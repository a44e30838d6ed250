import CycleChart.Proofs.Binary.Signed
import CycleChart.Proofs.Drawing.Slots

namespace CycleChart.Drawing

open Binary (Double Exact Format binary64)

/-- The thousandth of a pixel, as the nearest double. -/
def thousandth : Rat := binary64.near (1 / 1000)

theorem hasValue_thousandth : (0.001 : Double).exact.HasValue thousandth := by
  refine Double.hasValue_ofExact (k := 0) ?_ (by norm_num [abs_le]) (by decide) (by decide)
  exact (Exact.within_ofRat _).mono (by norm_num) (by norm_num)

theorem thousandth_mem : 1 / 2000 ≤ thousandth ∧ thousandth ≤ 1 / 500 := by
  have error := Double.near_error (v := 1 / 1000) (k := 0) (by norm_num [abs_le]) (by decide)
  rw [abs_le] at error
  norm_num at error
  rw [thousandth]
  constructor <;> linarith

/-- How many of some pixels a share covers. The share is scaled and a thousandth is added, and each time the result
takes the place of the nearest double. -/
def covered (length : Int) (s : Rat) : Int := ⌊binary64.near (binary64.near (length * s) + thousandth)⌋

section

variable {length : Int} {s t : Rat}

theorem covered_mono (length_nonneg : 0 ≤ length) (le : s ≤ t) : covered length s ≤ covered length t := by
  have scaled : (length : Rat) * s ≤ length * t := mul_le_mul_of_nonneg_left le (Int.cast_nonneg length_nonneg)
  have sum := add_le_add_left (Double.near_mono scaled) thousandth
  exact Int.floor_mono (Double.near_mono sum)

variable (length_nonneg : 0 ≤ length) (nonneg : 0 ≤ s) (le : s ≤ 1)
include length_nonneg nonneg le

theorem abs_scaled_le {k : Int} (short : (length : Rat) ≤ 2 ^ k) : |(length : Rat) * s| ≤ 2 ^ k := by
  have filled : (0 : Rat) ≤ length := Int.cast_nonneg length_nonneg
  rw [abs_of_nonneg (mul_nonneg filled nonneg)]
  exact (mul_le_of_le_one_right filled le).trans short

theorem abs_moved_le {k : Int} (short : (length : Rat) ≤ 2 ^ k) (low : 0 ≤ k) (high : k < 1023) :
    |binary64.near (length * s) + thousandth| ≤ 2 ^ (k + 1) := by
  obtain ⟨least, most⟩ := thousandth_mem
  have scaled := abs_scaled_le length_nonneg nonneg le short
  have rounded := abs_le.1 (Double.abs_near_le scaled (by omega) (by omega))
  have one : (1 : Rat) ≤ 2 ^ k := one_le_zpow₀ (by norm_num) low
  rw [Binary.two_zpow_add, abs_le]
  constructor <;> linarith

/-- A share covers all pixels that it comes to but for a part of one. -/
theorem covered_near (short : length ≤ 4096) :
    length * s - 1 < covered length s ∧ covered length s ≤ length * s + 1 / 64 := by
  obtain ⟨least, most⟩ := thousandth_mem
  have power : (length : Rat) ≤ 2 ^ (12 : Int) := by
    norm_num
    exact_mod_cast short
  have scaled := Double.near_error (abs_scaled_le length_nonneg nonneg le power) (by decide)
  have moved := Double.near_error (abs_moved_le length_nonneg nonneg le power (by decide) (by decide)) (by decide)
  rw [abs_le] at scaled moved
  norm_num at scaled moved
  have above := Int.lt_floor_add_one (binary64.near (binary64.near (length * s) + thousandth))
  have below := Int.floor_le (binary64.near (binary64.near (length * s) + thousandth))
  rw [covered]
  constructor <;> linarith

end

theorem covered_zero (length : Int) : covered length 0 = 0 := by
  obtain ⟨low, high⟩ := covered_near (le_refl (0 : Int)) (le_refl 0) zero_le_one (by decide)
  have eq : covered length 0 = covered 0 0 := by simp [covered]
  norm_num at low high
  rw [eq]
  have most : covered 0 0 < 1 := by exact_mod_cast (by linarith : ((covered 0 0 : Int) : Rat) < 1)
  have least : -1 < covered 0 0 := by exact_mod_cast low
  omega

theorem covered_none (s : Rat) : covered 0 s = 0 := by
  have eq : covered 0 s = covered 0 0 := by simp only [covered, Int.cast_zero, zero_mul]
  rw [eq, covered_zero]

section

variable {length : Int} {s : Rat} (length_nonneg : 0 ≤ length) (short : length < 2 ^ 23) (nonneg : 0 ≤ s) (le : s ≤ 1)
include length_nonneg short nonneg le

theorem abs_covered_le :
    |binary64.near (binary64.near (length * s) + thousandth)| ≤ 2 ^ (24 : Int) ∧ |covered length s| ≤ 2 ^ 24 := by
  have power : (length : Rat) ≤ 2 ^ (23 : Int) := by exact_mod_cast short.le
  have moved := abs_moved_le length_nonneg nonneg le power (by decide) (by decide)
  have reached := Double.abs_near_le moved (by decide) (by decide)
  refine ⟨reached, abs_le.2 ⟨Int.le_floor.2 ?_, Int.cast_le.1 ((Int.floor_le _).trans ?_)⟩⟩
  · exact_mod_cast (abs_le.1 reached).1
  · exact_mod_cast (abs_le.1 reached).2

variable {share : Double} (h : share.exact.HasValue s)
include h

/-- The way up goes over the pixels that the share covers. -/
theorem toInt32_up : (.ofInt length * share + 0.001 : Double).floor.toInt32 = covered length s := by
  have power : (length : Rat) ≤ 2 ^ (23 : Int) := by exact_mod_cast short.le
  obtain ⟨-, range⟩ := abs_covered_le length_nonneg short nonneg le
  have bounds := abs_le.1 range
  have whole : (Double.ofInt length).exact.HasValue length := Double.within_ofInt (by omega)
  have scaled : (.ofInt length * share : Double).exact.HasValue (binary64.near (length * s)) :=
    Double.hasValue_ofExact (whole.mul h) (abs_scaled_le length_nonneg nonneg le power) (by decide) (by decide)
  have moved : (.ofInt length * share + 0.001 : Double).exact.HasValue
      (binary64.near (binary64.near (length * s) + thousandth)) :=
    Double.hasValue_ofExact (Exact.Within.add scaled hasValue_thousandth)
      (abs_moved_le length_nonneg nonneg le power (by decide) (by decide)) (by decide) (by decide)
  have floor := Double.hasValue_floor moved (show (covered length s).natAbs < _ by omega)
  exact Double.toInt32_of_hasValue floor (show _ ≤ covered length s by omega) (show covered length s ≤ _ by omega)

/-- The way down goes over as many pixels as the way up. -/
theorem toInt32_down : (.ofInt (-length) * share - 0.001 : Double).ceil.toInt32 = -covered length s := by
  have power : (length : Rat) ≤ 2 ^ (23 : Int) := by exact_mod_cast short.le
  obtain ⟨-, range⟩ := abs_covered_le length_nonneg short nonneg le
  have bounds := abs_le.1 range
  have whole : (Double.ofInt (-length)).exact.HasValue (-length : Int) := Double.within_ofInt (by omega)
  have product : ((-length : Int) : Rat) * s = -(length * s) := by
    push_cast
    ring
  have scaled : (.ofInt (-length) * share : Double).exact.HasValue (binary64.near (-(length * s))) := by
    refine Double.hasValue_ofExact (k := 23) ?_ ?_ (by decide) (by decide)
    · rw [← product]
      exact whole.mul h
    · rw [abs_neg]
      exact abs_scaled_le length_nonneg nonneg le power
  have difference : binary64.near (-(length * s)) - thousandth = -(binary64.near (length * s) + thousandth) := by
    rw [Format.near_neg]
    ring
  have moved : (.ofInt (-length) * share - 0.001 : Double).exact.HasValue
      (-binary64.near (binary64.near (length * s) + thousandth)) := by
    rw [← Format.near_neg]
    refine Double.hasValue_ofExact (k := 24) ?_ ?_ (by decide) (by decide)
    · rw [← difference]
      exact Exact.Within.sub scaled hasValue_thousandth
    · rw [abs_neg]
      exact abs_moved_le length_nonneg nonneg le power (by decide) (by decide)
  have turned : ⌈-binary64.near (binary64.near (length * s) + thousandth)⌉ = -covered length s := Int.ceil_neg
  have ceil := Double.hasValue_ceil moved (by rw [turned]; omega)
  rw [turned] at ceil
  exact Double.toInt32_of_hasValue ceil (by omega) (by omega)

end

section

variable {first last : Int} {share : Double} {s : Rat} (h : share.exact.HasValue s) (nonneg : 0 ≤ s) (le : s ≤ 1)
include h nonneg le

theorem pixelAt_up (up : first ≤ last) (short : last - first < 2 ^ 23) :
    pixelAt first last share = first + covered (last - first) s := by
  rcases up.eq_or_lt with rfl | up
  · simp [pixelAt, covered_none]
  · have length := toInt32_up (show 0 ≤ last - first by omega) short nonneg le h
    simp only [pixelAt]
    rw [if_neg (by omega), if_pos (by omega), length]

theorem pixelAt_down (down : last ≤ first) (short : first - last < 2 ^ 23) :
    pixelAt first last share = first - covered (first - last) s := by
  rcases down.eq_or_lt with rfl | down
  · simp [pixelAt, covered_none]
  · have length := toInt32_down (show 0 ≤ first - last by omega) short nonneg le h
    rw [neg_sub] at length
    simp only [pixelAt]
    rw [if_neg (by omega), if_neg (by omega), length]
    omega

end

/-- What is not a number is no way from the first pixel. -/
theorem pixelAt_of_nan {first last : Int} {share : Double} (h : share.exact = .nan) :
    pixelAt first last share = first := by
  obtain ⟨floor, ceil⟩ := toInt32_of_nan (last - first) h
  simp only [pixelAt, floor, ceil]
  split_ifs <;> omega

/-! The shares of slots. -/

/-- The share of a slot, each of the numbers being a double. -/
def shareOf (slot last : Nat) : Rat := binary64.near (binary64.near slot / binary64.near last)

theorem near_natCast_mono {m n : Nat} (le : m ≤ n) : binary64.near m ≤ binary64.near n :=
  Double.near_mono (by exact_mod_cast le)

theorem one_le_near {n : Nat} (positive : 0 < n) : 1 ≤ binary64.near n := by
  have one : binary64.near (1 : Nat) = 1 := by simpa using Double.holds_one.near
  rw [← one]
  exact near_natCast_mono positive

section

variable {last : Nat} (positive : 0 < last)
include positive

theorem quotient_mem {slot : Nat} (le : slot ≤ last) :
    0 ≤ binary64.near slot / binary64.near last ∧ binary64.near slot / binary64.near last ≤ 1 := by
  have nonneg : 0 ≤ binary64.near (slot : Rat) := Format.near_nonneg (Nat.cast_nonneg slot)
  have least := one_le_near positive
  exact ⟨div_nonneg nonneg (by linarith), div_le_one_of_le₀ (near_natCast_mono le) (by linarith)⟩

theorem shareOf_mem {slot : Nat} (le : slot ≤ last) : 0 ≤ shareOf slot last ∧ shareOf slot last ≤ 1 := by
  obtain ⟨low, high⟩ := quotient_mem positive le
  refine ⟨Format.near_nonneg low, ?_⟩
  have most := Double.near_mono high
  rwa [Format.Holds.near Double.holds_one] at most

theorem shareOf_mono {slot next : Nat} (le : slot ≤ next) : shareOf slot last ≤ shareOf next last :=
  Double.near_mono (div_le_div_of_nonneg_right (near_natCast_mono le) (by linarith [one_le_near positive]))

/-- The share of a slot is a number as long as the number of slots is finite as a double. -/
theorem hasValue_share {slot : Nat} (le : slot ≤ last) (finite : binary64.rounded last < 2 ^ binary64.highest) :
    (.ofNat slot / .ofNat last : Double).exact.HasValue (shareOf slot last) := by
  have value {n : Nat} (finite : binary64.rounded n < 2 ^ binary64.highest) :
      (Double.ofNat n).exact.HasValue (binary64.near n) := by
    rw [Double.exact_ofNat, Format.nearest_finite, if_neg (not_le.2 finite), Format.near_of_nonneg (Nat.cast_nonneg n)]
    exact ⟨binary64.rounded_nonneg _, le_rfl, le_rfl⟩
  have most := near_natCast_mono le
  rw [Format.near_of_nonneg (Nat.cast_nonneg _), Format.near_of_nonneg (Nat.cast_nonneg _)] at most
  obtain ⟨low, high⟩ := quotient_mem positive le
  have quotient := (value (most.trans_lt finite)).div (value finite) (by linarith [one_le_near positive])
  refine Double.hasValue_ofExact (k := 0) quotient ?_ (by decide) (by decide)
  rw [abs_of_nonneg low]
  simpa using high

theorem hasValue_share_few {slot : Nat} (le : slot ≤ last) (few : last < 2 ^ 53) :
    (.ofNat slot / .ofNat last : Double).exact.HasValue (shareOf slot last) := by
  have held : binary64.Holds (last : Rat) := by simpa using Double.holds_of_small (i := last) (by omega)
  refine hasValue_share positive le ?_
  rw [held.rounded]
  exact held.lt

/-- The shares of slots are numbers, unless there are so many slots that their number is infinite as a double. Then
none has a share that counts. -/
theorem share_cases :
    (∀ slot ≤ last, (.ofNat slot / .ofNat last : Double).exact.HasValue (shareOf slot last)) ∨
      ∀ slot ≤ last, (.ofNat slot / .ofNat last : Double).exact = .nan ∨
        (.ofNat slot / .ofNat last : Double).exact.HasValue 0 := by
  by_cases finite : 2 ^ binary64.highest ≤ binary64.rounded last
  · right
    intro slot le
    change (Double.ofExact (Exact.div _ _)).exact = _ ∨ (Double.ofExact (Exact.div _ _)).exact.HasValue 0
    rw [Double.exact_ofNat, Double.exact_ofNat, Format.nearest_finite, Format.nearest_finite, if_pos finite]
    split
    · exact .inl Double.exact_ofExact_nan
    · refine .inr (Double.within_ofExact ?_ Double.holds_zero Double.holds_zero)
      exact ⟨le_rfl, le_rfl, le_rfl⟩
  · left
    intro slot le
    exact hasValue_share positive le (not_le.1 finite)

end

namespace SlotAxis

variable {a : SlotAxis} (slots : 0 < a.lastSlot) (down : a.last ≤ a.first) (short : a.first - a.last < 2 ^ 23)
include slots down short

theorem start_eq {slot : Nat} (le : slot ≤ a.lastSlot)
    (number : (.ofNat slot / .ofNat a.lastSlot : Double).exact.HasValue (shareOf slot a.lastSlot)) :
    a.start slot = a.first - covered (a.first - (a.last - a.step)) (shareOf slot a.lastSlot) := by
  obtain ⟨most, least⟩ := step_mem slots down short
  obtain ⟨low, high⟩ := shareOf_mem slots le
  rw [start, if_neg slots.ne',
    pixelAt_down number low high (show a.last - a.step ≤ a.first by omega) (show _ < _ by omega)]

/-- The slots start where their shares of the way end, or all of them at the first pixel. -/
theorem start_cases :
    (∀ slot ≤ a.lastSlot,
      a.start slot = a.first - covered (a.first - (a.last - a.step)) (shareOf slot a.lastSlot)) ∨
      ∀ slot ≤ a.lastSlot, a.start slot = a.first := by
  obtain ⟨most, least⟩ := step_mem slots down short
  rcases share_cases slots with numbers | none
  · left
    intro slot le
    exact start_eq slots down short le (numbers slot le)
  · right
    intro slot le
    rw [start, if_neg slots.ne']
    rcases none slot le with nan | zero
    · exact pixelAt_of_nan nan
    · rw [pixelAt_down zero le_rfl zero_le_one (show a.last - a.step ≤ a.first by omega) (show _ < _ by omega),
        covered_zero, sub_zero]

/-- Higher slots start further up. -/
theorem start_anti {slot next : Nat} (le : slot ≤ next) (within : next ≤ a.lastSlot) : a.start next ≤ a.start slot := by
  obtain ⟨most, least⟩ := step_mem slots down short
  rcases start_cases slots down short with shares | none
  · rw [shares next within, shares slot (le.trans within)]
    have more := covered_mono (show 0 ≤ a.first - (a.last - a.step) by omega) (shareOf_mono slots le)
    omega
  · rw [none next within, none slot (le.trans within)]

/-- Higher slots stop further up. -/
theorem stop_anti {slot next : Nat} (le : slot ≤ next) (within : next ≤ a.lastSlot) : a.stop next ≤ a.stop slot := by
  rcases le.eq_or_lt with rfl | less
  · exact le_rfl
  · have inside := start_mem slots down short (show slot + 1 ≤ a.lastSlot by omega)
    obtain ⟨most, least⟩ := step_mem slots down short
    rw [stop, stop, if_pos (by omega : slot < a.lastSlot)]
    split
    · exact start_anti slots down short (by omega) (by omega)
    · omega

end SlotAxis
end CycleChart.Drawing
