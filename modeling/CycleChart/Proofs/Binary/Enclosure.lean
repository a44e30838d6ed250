import CycleChart.Proofs.Binary.Encoding

namespace CycleChart.Binary

namespace Format

variable {f : Format}

/-- Whole multiples of a power of two that have few enough digits. -/
theorem holds_abs {i k : Int} (digits : i.natAbs < 2 ^ f.precision) (low : f.lowest ≤ k)
    (high : f.precision + k ≤ f.highest) : f.Holds |(i : Rat) * 2 ^ k| := by
  have eq : |(i : Rat) * 2 ^ k| = i.natAbs * 2 ^ k := by
    rw [abs_mul, abs_of_pos (two_zpow_pos k), Nat.cast_natAbs, Int.cast_abs]
  refine ⟨i.natAbs, k, eq, digits, low, ?_⟩
  rw [eq]
  calc (i.natAbs : Rat) * 2 ^ k
    _ < 2 ^ f.precision * 2 ^ k := mul_lt_mul_of_pos_right (by exact_mod_cast digits) (two_zpow_pos _)
    _ = 2 ^ (f.precision + k) := by rw [two_zpow_add, zpow_natCast]
    _ ≤ 2 ^ f.highest := two_zpow_le_iff.2 high

theorem holds_half {i : Int} (digits : i.natAbs < 2 ^ f.precision) (low : f.lowest ≤ -1)
    (high : f.precision ≤ f.highest) : f.Holds |(i : Rat) / 2| := by
  have := holds_abs digits low (by omega)
  rwa [zpow_neg_one, ← div_eq_mul_inv] at this

theorem holds_int {i : Int} (digits : i.natAbs < 2 ^ f.precision) (low : f.lowest ≤ 0)
    (high : f.precision ≤ f.highest) : f.Holds |(i : Rat)| := by
  have := holds_abs digits low (by omega)
  rwa [zpow_zero, mul_one] at this

end Format

namespace Exact

variable {x y : Exact} {a b c d : Rat}

/-- Whether a number is finite and lies between two bounds. -/
def Within (low high : Rat) : Exact → Prop
  | finite s q => 0 ≤ q ∧ low ≤ (finite s q).value ∧ (finite s q).value ≤ high
  | _ => False

theorem Within.exists_finite (h : x.Within a b) : ∃ s q, x = finite s q ∧ 0 ≤ q := by
  cases x with
  | nan => exact h.elim
  | infinite s => exact h.elim
  | finite s q => exact ⟨s, q, rfl, h.1⟩

theorem Within.mono (h : x.Within a b) (low : c ≤ a) (high : b ≤ d) : x.Within c d := by
  obtain ⟨s, q, rfl, -⟩ := h.exists_finite
  exact ⟨h.1, low.trans h.2.1, h.2.2.trans high⟩

theorem Within.le (h : x.Within a b) : a ≤ b := by
  obtain ⟨s, q, rfl, -⟩ := h.exists_finite
  exact h.2.1.trans h.2.2

theorem within_ofRat (q : Rat) : (ofRat q).Within q q := by
  unfold ofRat
  split
  · rename_i negative
    exact ⟨by linarith, by simp [value], by simp [value]⟩
  · rename_i positive
    exact ⟨not_lt.1 positive, le_rfl, le_rfl⟩

theorem Within.neg (h : x.Within a b) : (-x).Within (-b) (-a) := by
  obtain ⟨s, q, rfl, -⟩ := h.exists_finite
  obtain ⟨pos, low, high⟩ := h
  cases s <;> simp only [value] at low high
  · exact ⟨pos, neg_le_neg high, neg_le_neg low⟩
  · exact ⟨pos, neg_le.1 high, le_neg.1 low⟩

theorem Within.add (hx : x.Within a b) (hy : y.Within c d) : (x + y).Within (a + c) (b + d) := by
  obtain ⟨s, p, rfl, -⟩ := hx.exists_finite
  obtain ⟨t, q, rfl, -⟩ := hy.exists_finite
  obtain ⟨-, xlow, xhigh⟩ := hx
  obtain ⟨-, ylow, yhigh⟩ := hy
  change (Exact.add (finite s p) (finite t q)).Within _ _
  simp only [Exact.add]
  split
  · rename_i zero
    have value : (finite (s && t) 0).value = 0 := by cases s <;> cases t <;> simp [Exact.value]
    exact ⟨le_rfl, by linarith, by linarith⟩
  · exact (within_ofRat _).mono (by linarith) (by linarith)

theorem Within.sub (hx : x.Within a b) (hy : y.Within c d) : (x - y).Within (a - d) (b - c) := by
  rw [sub_eq_add_neg, sub_eq_add_neg]
  exact hx.add hy.neg

theorem value_mul (s t : Bool) (p q : Rat) :
    (finite s p * finite t q).value = (finite s p).value * (finite t q).value := by
  change (finite (s != t) (p * q)).value = _
  cases s <;> cases t <;> simp [value]

theorem value_div (s t : Bool) (p : Rat) {q : Rat} (h : q ≠ 0) :
    (finite s p / finite t q).value = (finite s p).value / (finite t q).value := by
  change (Exact.div (finite s p) (finite t q)).value = _
  rw [Exact.div, if_neg h]
  cases s <;> cases t <;> simp [value, neg_div, div_neg]

/-- A part of a magnitude lies between that magnitude and zero. -/
theorem Within.mul_share (hx : x.Within a b) (hy : y.Within 0 1) : (x * y).Within (min a 0) (max b 0) := by
  obtain ⟨s, p, rfl, pos⟩ := hx.exists_finite
  obtain ⟨t, q, rfl, pos'⟩ := hy.exists_finite
  refine ⟨mul_nonneg pos pos', ?_⟩
  change min a 0 ≤ (finite s p * finite t q).value ∧ (finite s p * finite t q).value ≤ max b 0
  rw [value_mul]
  obtain ⟨-, low, high⟩ := hx
  obtain ⟨-, share, share'⟩ := hy
  generalize (finite s p).value = u at *
  generalize (finite t q).value = v at *
  constructor
  · rcases le_total 0 u with h | h
    · exact (min_le_right _ _).trans (mul_nonneg h share)
    · exact (min_le_left _ _).trans (by nlinarith)
  · rcases le_total 0 u with h | h
    · exact (by nlinarith : u * v ≤ b).trans (le_max_left _ _)
    · exact (mul_nonpos_of_nonpos_of_nonneg h share).trans (le_max_right _ _)

theorem Within.nearest {f : Format} (positive : 0 < f.precision) (h : x.Within a b) (ha : f.Holds |a|)
    (hb : f.Holds |b|) : (f.nearest x).Within a b := by
  obtain ⟨s, q, rfl, pos⟩ := h.exists_finite
  obtain ⟨-, low, high⟩ := h
  have below : ∀ {c}, f.Holds c → q ≤ c → f.rounded q ≤ c ∧ ¬2 ^ f.highest ≤ f.rounded q := by
    intro c hc le
    have le := Format.rounded_mono positive pos le
    rw [hc.rounded] at le
    obtain ⟨-, -, -, -, -, lt⟩ := hc
    exact ⟨le, by linarith⟩
  have above : ∀ {c}, f.Holds c → c ≤ q → c ≤ f.rounded q := by
    intro c hc le
    have := Format.rounded_mono positive hc.nonneg le
    rwa [hc.rounded] at this
  have nonneg := f.rounded_nonneg q
  rw [Format.nearest_finite]
  -- the bound away from zero is kept by monotonicity, the other one too unless the sign alone keeps it
  cases s <;> simp only [value] at low high
  · rw [abs_of_nonneg (pos.trans high)] at hb
    obtain ⟨le, less⟩ := below hb high
    rw [if_neg less]
    refine ⟨nonneg, ?_, le⟩
    rcases le_total a 0 with ha' | ha'
    · exact ha'.trans nonneg
    · rw [abs_of_nonneg ha'] at ha
      exact above ha low
  · rw [abs_of_nonpos (by linarith)] at ha
    obtain ⟨le, less⟩ := below ha (by linarith)
    rw [if_neg less]
    refine ⟨nonneg, by simp only [value]; linarith, ?_⟩
    simp only [value]
    rcases le_total 0 b with hb' | hb'
    · linarith
    · rw [abs_of_nonpos hb'] at hb
      have := above hb (by linarith)
      linarith

/-! Whole numbers. -/

theorem rat_floor_eq (q : Rat) : q.floor = ⌊q⌋ := rfl

theorem rat_ceil_eq (q : Rat) : q.ceil = ⌈q⌉ := Rat.ceil_eq_neg_floor_neg q

theorem value_floor (s : Bool) (q : Rat) : (finite s q).floor.value = ⌊(finite s q).value⌋ := by
  cases s <;> simp [floor, value, rat_floor_eq, rat_ceil_eq, Int.floor_neg]

theorem value_ceil (s : Bool) (q : Rat) : (finite s q).ceil.value = ⌈(finite s q).value⌉ := by
  cases s <;> simp [ceil, value, rat_floor_eq, rat_ceil_eq, Int.ceil_neg]

theorem Within.floor (h : x.Within a b) : x.floor.Within ⌊a⌋ ⌊b⌋ := by
  obtain ⟨s, q, rfl, pos⟩ := h.exists_finite
  have bounds : (⌊a⌋ : Rat) ≤ (finite s q).floor.value ∧ (finite s q).floor.value ≤ ⌊b⌋ := by
    rw [value_floor]
    exact ⟨by exact_mod_cast Int.floor_mono h.2.1, by exact_mod_cast Int.floor_mono h.2.2⟩
  have below : 0 ≤ q.floor := Int.floor_nonneg.2 pos
  have above : 0 ≤ q.ceil := rat_ceil_eq q ▸ Int.ceil_nonneg pos
  cases s
  · exact ⟨by exact_mod_cast below, bounds⟩
  · exact ⟨by exact_mod_cast above, bounds⟩

theorem Within.ceil (h : x.Within a b) : x.ceil.Within ⌈a⌉ ⌈b⌉ := by
  obtain ⟨s, q, rfl, pos⟩ := h.exists_finite
  have bounds : (⌈a⌉ : Rat) ≤ (finite s q).ceil.value ∧ (finite s q).ceil.value ≤ ⌈b⌉ := by
    rw [value_ceil]
    exact ⟨by exact_mod_cast Int.ceil_mono h.2.1, by exact_mod_cast Int.ceil_mono h.2.2⟩
  have below : 0 ≤ q.floor := Int.floor_nonneg.2 pos
  have above : 0 ≤ q.ceil := rat_ceil_eq q ▸ Int.ceil_nonneg pos
  cases s
  · exact ⟨by exact_mod_cast above, bounds⟩
  · exact ⟨by exact_mod_cast below, bounds⟩

/-- The nearest whole number is at most a half away. -/
theorem Within.round_near (h : x.Within a b) : x.round.Within ⌈a - 1 / 2⌉ ⌊b + 1 / 2⌋ := by
  obtain ⟨s, q, rfl, pos⟩ := h.exists_finite
  obtain ⟨-, above, below⟩ := h
  have low : q - 1 / 2 ≤ ((q + 1 / 2).floor : Rat) := by
    have := Int.lt_floor_add_one (q + 1 / 2)
    rw [rat_floor_eq]
    linarith
  have high : ((q + 1 / 2).floor : Rat) ≤ q + 1 / 2 := Int.floor_le _
  have nonneg : 0 ≤ (q + 1 / 2).floor := by
    rw [rat_floor_eq]
    exact Int.floor_nonneg.2 (by linarith)
  refine ⟨by exact_mod_cast nonneg, ?_⟩
  cases s <;> simp only [value] at above below ⊢
  · exact ⟨Int.cast_le.2 (Int.ceil_le.2 (by linarith)), Int.cast_le.2 (Int.le_floor.2 (by linarith))⟩
  · have least : ⌈a - 1 / 2⌉ ≤ -(q + 1 / 2).floor := Int.ceil_le.2 (by push_cast; linarith)
    have most : -(q + 1 / 2).floor ≤ ⌊b + 1 / 2⌋ := Int.le_floor.2 (by push_cast; linarith)
    exact ⟨by exact_mod_cast least, by exact_mod_cast most⟩

theorem Within.round {m n : Int} (h : x.Within m n) : x.round.Within m n := by
  refine h.round_near.mono ?_ ?_
  · exact Int.cast_le.2 (Int.le_ceil_iff.2 (by linarith))
  · exact Int.cast_le.2 (Int.lt_add_one_iff.1 (Int.floor_lt.2 (by push_cast; linarith)))

theorem Within.clampTo {m n low high : Int} (h : x.Within m n) (hm : low ≤ m) (hn : n ≤ high) :
    m ≤ x.clampTo low high ∧ x.clampTo low high ≤ n := by
  obtain ⟨s, q, rfl, pos⟩ := h.exists_finite
  obtain ⟨-, above, below⟩ := h
  cases s <;> simp only [value] at above below
  · have above : m ≤ q.floor := Int.le_floor.2 above
    have below : q.floor ≤ n := by exact_mod_cast (Int.floor_le q).trans below
    simp only [Exact.clampTo]
    omega
  · have above : q.floor ≤ -m := by exact_mod_cast (Int.floor_le q).trans (le_neg.1 above)
    have below : -n ≤ q.floor := Int.le_floor.2 (by exact_mod_cast neg_le.1 below)
    simp only [Exact.clampTo]
    omega

/-- The nearest integer is at most a half away as long as it is not clamped. -/
theorem Within.clampTo_round {low high : Int} (h : x.Within a b) (ha : low ≤ a) (hb : b ≤ high) :
    a - 1 / 2 ≤ x.round.clampTo low high ∧ x.round.clampTo low high ≤ b + 1 / 2 := by
  have above : low ≤ ⌈a - 1 / 2⌉ := Int.le_ceil_iff.2 (by linarith)
  have below : ⌊b + 1 / 2⌋ ≤ high := Int.lt_add_one_iff.1 (Int.floor_lt.2 (by push_cast; linarith))
  obtain ⟨least, most⟩ := h.round_near.clampTo above below
  exact ⟨(Int.le_ceil _).trans (Int.cast_le.2 least), (Int.cast_le.2 most).trans (Int.floor_le _)⟩

end Exact

namespace Double

variable {x : Exact} {a b : Rat}

/-- Rounding to a double leaves the bounds that are doubles. -/
theorem within_ofExact (h : x.Within a b) (ha : binary64.Holds |a|) (hb : binary64.Holds |b|) :
    (ofExact x).exact.Within a b := by
  have nearest := h.nearest (by decide) ha hb
  obtain ⟨s, q, rfl, pos⟩ := h.exists_finite
  rwa [exact_ofExact_finite s pos]

theorem exact_mul (a b : Double) : (a * b).exact = (ofExact (a.exact * b.exact)).exact := rfl

theorem exact_add (a b : Double) : (a + b).exact = (ofExact (a.exact + b.exact)).exact := rfl

theorem exact_sub (a b : Double) : (a - b).exact = (ofExact (a.exact - b.exact)).exact := rfl

theorem exact_ofNat (n : Nat) : (ofNat n).exact = binary64.nearest (.finite false n) := by
  have nonneg : (0 : Rat) ≤ n := Nat.cast_nonneg n
  rw [ofNat, ofRat, Exact.ofRat, if_neg (not_lt.2 nonneg)]
  exact exact_ofExact_finite false nonneg

theorem within_ofInt {i : Int} (small : i.natAbs < 2 ^ 53) : (ofInt i).exact.Within i i := by
  have holds : binary64.Holds |(i : Rat)| := Format.holds_int small (by decide) (by decide)
  exact within_ofExact (Exact.within_ofRat i) holds holds

theorem holds_zero : binary64.Holds |(0 : Rat)| := Format.holds_int (i := 0) (by decide) (by decide) (by decide)

theorem holds_one : binary64.Holds |(1 : Rat)| :=
  Format.holds_int (i := 1) (by decide) (by decide) (by decide)

end Double
end CycleChart.Binary
