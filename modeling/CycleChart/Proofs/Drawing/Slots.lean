import CycleChart.Drawing.Axis
import CycleChart.Proofs.Binary.Enclosure

namespace CycleChart.Drawing

open Binary (Double Exact Format binary32 binary64)

/-- A number that is a share of a whole. The quotient of two counts that are both too large to be told from infinity is
not a number. -/
def IsShare (d : Double) : Prop := d.exact = .nan ∨ d.exact.Within 0 1

theorem isShare_div {m n : Nat} (le : m ≤ n) (positive : 0 < n) : IsShare (.ofNat m / .ofNat n) := by
  have mono : binary64.rounded m ≤ binary64.rounded n :=
    Format.rounded_mono (by decide) (Nat.cast_nonneg _) (by exact_mod_cast le)
  have least : 1 ≤ binary64.rounded n := by
    have one : binary64.rounded 1 = 1 := by simpa using Double.holds_one.rounded
    rw [← one]
    exact Format.rounded_mono (by decide) zero_le_one (by exact_mod_cast positive)
  have nonneg := binary64.rounded_nonneg m
  change (Double.ofExact (Exact.div _ _)).exact = _ ∨ (Double.ofExact (Exact.div _ _)).exact.Within 0 1
  rw [Double.exact_ofNat, Double.exact_ofNat, Format.nearest_finite, Format.nearest_finite]
  generalize binary64.rounded m = p at *
  generalize binary64.rounded n = q at *
  split <;> split
  · exact .inl Double.exact_ofExact_nan
  · linarith
  · refine .inr (Double.within_ofExact ?_ Double.holds_zero Double.holds_one)
    exact ⟨le_rfl, le_rfl, zero_le_one⟩
  · refine .inr (Double.within_ofExact ?_ Double.holds_zero Double.holds_one)
    rw [Exact.div, if_neg (by linarith)]
    have share : 0 ≤ p / q := div_nonneg nonneg (by linarith)
    exact ⟨share, share, div_le_one_of_le₀ mono (by linarith)⟩

theorem thousandth_within : (0.001 : Double).exact.Within 0 (1 / 2) := by
  refine Double.within_ofExact ?_ Double.holds_zero (Format.holds_half (i := 1) (by decide) (by decide) (by decide))
  exact (Exact.within_ofRat _).mono (by norm_num) (by norm_num)

/-! A share of some pixels. -/

section

variable {share : Double}

/-- What is not a number stays so and counts as no pixel. -/
theorem toInt32_of_nan (length : Int) (h : share.exact = .nan) :
    (.ofInt length * share + 0.001 : Double).floor.toInt32 = 0 ∧
      (.ofInt length * share - 0.001 : Double).ceil.toInt32 = 0 := by
  have product : (.ofInt length * share : Double).exact = .nan := by
    rw [Double.exact_mul, h]
    change (Double.ofExact (Exact.mul _ _)).exact = _
    cases (Double.ofInt length).exact <;> exact Double.exact_ofExact_nan
  have sum : (.ofInt length * share + 0.001 : Double).exact = .nan := by
    rw [Double.exact_add, product]
    exact Double.exact_ofExact_nan
  have difference : (.ofInt length * share - 0.001 : Double).exact = .nan := by
    rw [Double.exact_sub, product]
    exact Double.exact_ofExact_nan
  constructor
  · rw [Double.floor, sum, Double.toInt32]
    rfl
  · rw [Double.ceil, difference, Double.toInt32]
    rfl

variable {length : Int} (short : length.natAbs < 2 ^ 23) (h : share.exact.Within 0 1)
include short h

theorem product_within : (.ofInt length * share : Double).exact.Within (min length 0 : Int) (max length 0 : Int) := by
  have product := (Double.within_ofInt (i := length) (by omega)).mul_share h
  refine Double.within_ofExact (product.mono ?_ ?_) ?_ ?_
  · push_cast
    exact le_rfl
  · push_cast
    exact le_rfl
  · exact Format.holds_int (by simp only [binary64]; omega) (by decide) (by decide)
  · exact Format.holds_int (by simp only [binary64]; omega) (by decide) (by decide)

theorem floor_mem (up : 0 ≤ length) : 0 ≤ (.ofInt length * share + 0.001 : Double).floor.toInt32 ∧
    (.ofInt length * share + 0.001 : Double).floor.toInt32 ≤ length := by
  have product := product_within short h
  rw [min_eq_right up, max_eq_left up] at product
  -- half a pixel more is a double, and too little to reach the next pixel
  have sum : (.ofInt length * share + 0.001 : Double).exact.Within 0 ((2 * length + 1 : Int) / 2) := by
    refine Double.within_ofExact ((product.add thousandth_within).mono ?_ ?_) Double.holds_zero ?_
    · norm_num
    · push_cast
      linarith
    · exact Format.holds_half (by simp only [binary64]; omega) (by decide) (by decide)
  have floor : (.ofInt length * share + 0.001 : Double).floor.exact.Within (0 : Int) length := by
    refine Double.within_ofExact (sum.floor.mono ?_ ?_) ?_ ?_
    · simp
    · exact Int.cast_le.2 (Int.lt_add_one_iff.1 (Int.floor_lt.2 (by push_cast; linarith)))
    · simpa using Double.holds_zero
    · exact Format.holds_int (by simp only [binary64]; omega) (by decide) (by decide)
  exact floor.clampTo (by decide) (by omega)

theorem ceil_mem (down : length ≤ 0) : length ≤ (.ofInt length * share - 0.001 : Double).ceil.toInt32 ∧
    (.ofInt length * share - 0.001 : Double).ceil.toInt32 ≤ 0 := by
  have product := product_within short h
  rw [min_eq_left down, max_eq_right down] at product
  have difference : (.ofInt length * share - 0.001 : Double).exact.Within ((2 * length - 1 : Int) / 2) 0 := by
    refine Double.within_ofExact ((product.sub thousandth_within).mono ?_ ?_) ?_ Double.holds_zero
    · push_cast
      linarith
    · norm_num
    · exact Format.holds_half (by simp only [binary64]; omega) (by decide) (by decide)
  have ceil : (.ofInt length * share - 0.001 : Double).ceil.exact.Within length (0 : Int) := by
    refine Double.within_ofExact (difference.ceil.mono ?_ ?_) ?_ ?_
    · exact Int.cast_le.2 (Int.le_of_sub_one_lt (Int.lt_ceil.2 (by push_cast; linarith)))
    · simp
    · exact Format.holds_int (by simp only [binary64]; omega) (by decide) (by decide)
    · simpa using Double.holds_zero
  exact ceil.clampTo (by omega) (by decide)

end

/-- A pixel that is a share of the way lies on the way. -/
theorem pixelAt_mem {first last : Int} {share : Double} (short : (last - first).natAbs < 2 ^ 23) (h : IsShare share) :
    min first last ≤ pixelAt first last share ∧ pixelAt first last share ≤ max first last := by
  simp only [pixelAt]
  rcases h with nan | h
  · obtain ⟨floor, ceil⟩ := toInt32_of_nan (last - first) nan
    rw [floor, ceil]
    split_ifs <;> omega
  · split_ifs with none up
    · omega
    · have := floor_mem short h up.le
      omega
    · have := ceil_mem short h (by omega)
      omega

/-- A quotient by a number that is rounded. Should that be infinite, the quotient is zero. -/
theorem quotient_within {f : Format} {x : Exact} {l h : Rat} {parts least : Nat} (positive : 0 < f.precision)
    (within : x.Within l h) (low : l ≤ 0) (high : 0 ≤ h) (le : least ≤ parts) (filled : 0 < least)
    (held : f.Holds least) : (x / f.nearest (.ofRat parts)).Within (l / least) (h / least) := by
  obtain ⟨s, p, rfl, pos⟩ := within.exists_finite
  have divisor : (0 : Rat) < least := Nat.cast_pos.2 filled
  have below : l / least ≤ 0 := div_nonpos_of_nonpos_of_nonneg low divisor.le
  have above : 0 ≤ h / least := div_nonneg high divisor.le
  have reach : (least : Rat) ≤ f.rounded parts := by
    rw [← held.rounded]
    exact Format.rounded_mono positive divisor.le (by exact_mod_cast le)
  rw [Exact.ofRat, if_neg (not_lt.2 (Nat.cast_nonneg _)), Format.nearest_finite]
  split
  · have zero : (Exact.finite (s != false) 0).value = 0 := by cases s <;> simp [Exact.value]
    exact ⟨le_rfl, by linarith, by linarith⟩
  · obtain ⟨-, least_le, le_most⟩ := within
    have value := Exact.value_div s false p (q := f.rounded parts) (by linarith)
    generalize f.rounded parts = q at *
    have quotient : Exact.finite s p / Exact.finite false q = Exact.finite (s != false) (p / q) := by
      change Exact.div _ _ = _
      rw [Exact.div, if_neg (by linarith)]
    rw [quotient] at value ⊢
    refine ⟨div_nonneg pos (by linarith), ?_⟩
    rw [value]
    change l / least ≤ (Exact.finite s p).value / q ∧ (Exact.finite s p).value / q ≤ h / least
    generalize (Exact.finite s p).value = v at *
    rw [div_le_div_iff₀ divisor (by linarith), div_le_div_iff₀ (by linarith) divisor]
    constructor
    · calc l * q
        _ ≤ l * least := mul_le_mul_of_nonpos_left reach low
        _ ≤ v * least := mul_le_mul_of_nonneg_right least_le divisor.le
    · calc v * least
        _ ≤ h * least := mul_le_mul_of_nonneg_right le_most divisor.le
        _ ≤ h * q := mul_le_mul_of_nonneg_left reach high

namespace SlotAxis

variable {a : SlotAxis} (slots : 0 < a.lastSlot) (down : a.last ≤ a.first) (short : a.first - a.last < 2 ^ 23)
include slots down short

/-- Two slots or more share the axis, so none has more than half of it. -/
theorem step_mem : (a.last - a.first) / 2 ≤ a.step ∧ a.step ≤ 0 := by
  have holds : binary32.Holds |((a.last - a.first : Int) : Rat)| :=
    Format.holds_int (by simp only [binary32]; omega) (by decide) (by decide)
  have length := (Exact.within_ofRat (a.last - a.first : Int)).nearest (by decide) holds holds
  have quotient : (binary32.nearest (.ofRat (a.last - a.first : Int)) /
      binary32.nearest (.ofRat (a.lastSlot + 1 : Nat))).Within ((a.last - a.first : Int) / 2) 0 := by
    have negative : ((a.last - a.first : Int) : Rat) ≤ 0 := by exact_mod_cast (by omega : a.last - a.first ≤ 0)
    have two : binary32.Holds ((2 : Nat) : Rat) := by
      simpa using Format.holds_int (f := binary32) (i := 2) (by decide) (by decide) (by decide)
    have parts := quotient_within (by decide) (length.mono le_rfl negative) negative le_rfl
      (show 2 ≤ a.lastSlot + 1 by omega) two_pos two
    rwa [Nat.cast_ofNat, zero_div] at parts
  have step := quotient.nearest (f := binary32) (by decide)
    (Format.holds_half (by simp only [binary32]; omega) (by decide) (by decide))
    (Format.holds_int (i := 0) (by decide) (by decide) (by decide))
  have half : (((a.last - a.first) / 2 : Int) : Rat) ≤ ((a.last - a.first : Int) : Rat) / 2 := by
    rw [le_div_iff₀ two_pos]
    exact_mod_cast Int.ediv_mul_le _ two_ne_zero
  exact (step.mono (d := (0 : Int)) half (by simp)).round.clampTo (by omega) (by decide)

/-- Every slot starts within the axis, at least one slot's length before its end. -/
theorem start_mem {slot : Nat} (le : slot ≤ a.lastSlot) :
    a.last - a.step ≤ a.start slot ∧ a.start slot ≤ a.first := by
  obtain ⟨most, least⟩ := step_mem slots down short
  have short' : (a.last - a.step - a.first).natAbs < 2 ^ 23 := by omega
  have := pixelAt_mem short' (isShare_div le slots)
  rw [start, if_neg slots.ne']
  omega

theorem stop_mem (slot : Nat) : a.last ≤ a.stop slot ∧ a.stop slot ≤ a.first := by
  obtain ⟨most, least⟩ := step_mem slots down short
  unfold stop
  split
  · rename_i less
    have next := start_mem slots down short (show slot + 1 ≤ a.lastSlot from less)
    omega
  · exact ⟨le_rfl, down⟩

/-- The middle of a slot lies between its ends. -/
theorem center_mem_slot {slot : Nat} (le : slot ≤ a.lastSlot) :
    min (a.start slot) (a.stop slot) ≤ a.center slot ∧ a.center slot ≤ max (a.start slot) (a.stop slot) := by
  obtain ⟨most, least⟩ := step_mem slots down short
  have here := start_mem slots down short le
  unfold center stop
  split
  · have half := Int.mul_tdiv_add_tmod (a.start slot + a.start (slot + 1)) 2
    have rest := Int.tmod_two_eq (a.start slot + a.start (slot + 1))
    omega
  · have half := Int.mul_tdiv_add_tmod a.step 2
    have rest := Int.tmod_two_eq a.step
    omega

/-- The middle of every slot lies on the axis. -/
theorem center_mem {slot : Nat} (le : slot ≤ a.lastSlot) : a.last ≤ a.center slot ∧ a.center slot ≤ a.first := by
  obtain ⟨most, least⟩ := step_mem slots down short
  have start := start_mem slots down short le
  have stop := stop_mem slots down short slot
  have between := center_mem_slot slots down short le
  omega

end SlotAxis
end CycleChart.Drawing
