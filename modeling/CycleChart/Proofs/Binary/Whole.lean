import CycleChart.Proofs.Binary.Signed
import CycleChart.Proofs.Binary.Unsigned
import Mathlib.Algebra.Order.Floor.Ring

namespace CycleChart.Binary

theorem nearestEven_mem (q : Rat) (least most : Nat) (low : least - 1 / 2 < q) (high : q < most + 1 / 2)
    (nonneg : 0 ≤ q) : least ≤ nearestEven q ∧ nearestEven q ≤ most := by
  have error := nearestEven_error nonneg
  rw [abs_le] at error
  have above : (least : Rat) < (nearestEven q + 1 : Nat) := by
    push_cast
    linarith
  have below : (nearestEven q : Rat) < (most + 1 : Nat) := by
    push_cast
    linarith
  exact ⟨Nat.lt_add_one_iff.1 (by exact_mod_cast above), Nat.lt_add_one_iff.1 (by exact_mod_cast below)⟩

namespace Format

variable {f : Format} {q : Rat}

/-- A magnitude of the format is whole unless it has a place left after the point. -/
theorem Holds.whole_or_lt (h : f.Holds q) : (∃ n : Nat, q = n) ∨ 2 * q < (2 ^ f.precision : Nat) := by
  obtain ⟨n, k, rfl, digits, -, -⟩ := h
  rcases le_or_gt 0 k with positive | negative
  · obtain ⟨d, rfl⟩ := Int.eq_ofNat_of_zero_le positive
    exact .inl ⟨n * 2 ^ d, by push_cast; rw [zpow_natCast]⟩
  · right
    have half : (2 : Rat) ^ k ≤ 2 ^ (-1 : Int) := two_zpow_le_iff.2 (by omega)
    calc 2 * ((n : Rat) * 2 ^ k)
      _ ≤ 2 * (n * 2 ^ (-1 : Int)) := by gcongr
      _ = n := by rw [zpow_neg_one]; ring
      _ < (2 ^ f.precision : Nat) := by exact_mod_cast digits

section

variable (low : f.lowest ≤ 0) (high : f.precision ≤ f.highest)
include low high

theorem holds_natCast {n : Nat} (digits : n < 2 ^ f.precision) : f.Holds (n : Rat) := by
  have held := holds_int (f := f) (i := n) digits low high
  rwa [Int.cast_natCast, abs_of_nonneg (Nat.cast_nonneg n)] at held

theorem holds_floor (nonneg : 0 ≤ q) (small : 2 * q < (2 ^ f.precision : Nat) + 1) : f.Holds (⌊q⌋ : Rat) := by
  obtain ⟨m, eq⟩ := Int.eq_ofNat_of_zero_le (Int.floor_nonneg.2 nonneg)
  have le : ((m : Int) : Rat) ≤ q := eq ▸ Int.floor_le q
  rw [Int.cast_natCast] at le
  have twice : ((2 * m : Nat) : Rat) < (2 ^ f.precision + 1 : Nat) := by
    push_cast at small ⊢
    linarith
  have less : 2 * m < 2 ^ f.precision + 1 := by exact_mod_cast twice
  have filled : 0 < 2 ^ f.precision := Nat.two_pow_pos _
  rw [eq, Int.cast_natCast]
  exact holds_natCast low high (by omega)

theorem Holds.floor (h : f.Holds q) : f.Holds (⌊q⌋ : Rat) := by
  rcases h.whole_or_lt with ⟨n, rfl⟩ | small
  · simpa using h
  · exact holds_floor low high h.nonneg (by linarith)

theorem Holds.round (h : f.Holds q) : f.Holds (⌊q + 1 / 2⌋ : Rat) := by
  have nonneg := h.nonneg
  rcases h.whole_or_lt with ⟨n, rfl⟩ | small
  · have same : ⌊(n : Rat) + 1 / 2⌋ = n := by
      rw [Int.floor_eq_iff]
      push_cast
      constructor <;> linarith
    rwa [same, Int.cast_natCast]
  · exact holds_floor low high (by linarith) (by linarith)

/-- What is left after the point keeps the unit. -/
theorem Holds.fract (h : f.Holds q) : f.Holds (Int.fract q) := by
  have positive : 0 ≤ f.highest := by omega
  have less : Int.fract q < 2 ^ f.highest := (Int.fract_lt_one q).trans_le (one_le_zpow₀ (by norm_num) positive)
  obtain ⟨n, k, rfl, digits, least, -⟩ := h
  rcases le_or_gt 0 k with whole | parts
  · obtain ⟨d, rfl⟩ := Int.eq_ofNat_of_zero_le whole
    have none : Int.fract ((n : Rat) * 2 ^ (d : Int)) = (0 : Nat) := by
      have eq : (n : Rat) * 2 ^ (d : Int) = (n * 2 ^ d : Nat) := by push_cast; rw [zpow_natCast]
      rw [eq, Int.fract_natCast, Nat.cast_zero]
    rw [none]
    exact holds_natCast low high (Nat.two_pow_pos _)
  · obtain ⟨d, rfl⟩ : ∃ d : Nat, k = -d := ⟨(-k).toNat, by omega⟩
    have quotient : (n : Rat) * 2 ^ (-d : Int) = n / (2 ^ d : Nat) := by
      rw [zpow_neg, zpow_natCast, div_eq_mul_inv]
      push_cast
      rfl
    rw [quotient] at less ⊢
    rw [Int.fract_div_natCast_eq_div_natCast_mod] at less ⊢
    refine ⟨n % 2 ^ d, -d, ?_, (Nat.mod_le _ _).trans_lt digits, least, less⟩
    rw [zpow_neg, zpow_natCast, div_eq_mul_inv]
    push_cast
    rfl

end

/-- From a power of two on, the magnitudes of the format are multiples of what its digits leave of that power. -/
theorem exists_rounded_eq {k : Int} (h : 2 ^ k ≤ q) : ∃ n : Nat, f.rounded q = n * 2 ^ (k - (f.precision - 1)) := by
  have pos : 0 < q := (two_zpow_pos k).trans_le h
  have exponent := (le_log2_iff pos).2 h
  have unit := unit_of_pos (f := f) pos
  obtain ⟨d, eq⟩ : ∃ d : Nat, f.unit q = d + (k - (f.precision - 1)) :=
    ⟨(f.unit q - (k - (f.precision - 1))).toNat, by omega⟩
  refine ⟨f.units q * 2 ^ d, ?_⟩
  rw [rounded, eq, two_zpow_add, zpow_natCast]
  push_cast
  ring

end Format

namespace Exact

variable {x y : Exact} {v w : Rat}

/-- A number that is not below zero has no sign, unless it is zero. -/
theorem HasValue.exists_sign (h : x.HasValue v) (nonneg : 0 ≤ v) : ∃ s, x = finite s v ∧ (s = true → v = 0) := by
  obtain ⟨s, q, rfl, pos⟩ := Within.exists_finite h
  obtain ⟨-, low, high⟩ := h
  cases s <;> simp only [value] at low high
  · exact ⟨false, by rw [le_antisymm high low], fun negative => absurd negative Bool.false_ne_true⟩
  · obtain rfl : q = 0 := by linarith
    obtain rfl : v = 0 := by linarith
    exact ⟨true, rfl, fun _ => rfl⟩

theorem hasValue_finite {s : Bool} (nonneg : 0 ≤ v) (sign : s = true → v = 0) : (finite s v).HasValue v := by
  cases s
  · exact ⟨nonneg, le_rfl, le_rfl⟩
  · obtain rfl := sign rfl
    exact ⟨le_rfl, by simp [value], by simp [value]⟩

theorem HasValue.round (h : x.HasValue v) (nonneg : 0 ≤ v) : x.round.HasValue ⌊v + 1 / 2⌋ := by
  obtain ⟨s, rfl, sign⟩ := h.exists_sign nonneg
  refine hasValue_finite (by exact_mod_cast Int.floor_nonneg.2 (by linarith)) fun negative => ?_
  rw [sign negative]
  norm_num

theorem HasValue.trunc (h : x.HasValue v) (nonneg : 0 ≤ v) : x.trunc.HasValue ⌊v⌋ := by
  obtain ⟨s, rfl, sign⟩ := h.exists_sign nonneg
  refine hasValue_finite (by exact_mod_cast Int.floor_nonneg.2 nonneg) fun negative => ?_
  rw [sign negative]
  norm_num

theorem AtMost.mono (h : x.AtMost v) (le : v ≤ w) : x.AtMost w := by
  cases h with
  | nan => exact .nan
  | infinite => exact .infinite
  | finite nonneg least => exact .finite nonneg (least.trans le)

theorem AtMost.value_le (h : x.AtMost v) (nonneg : 0 ≤ v) : x.value ≤ v := by
  cases h with
  | nan => exact nonneg
  | infinite => exact nonneg
  | finite _ le => exact le

theorem HasValue.sub (hx : x.HasValue v) (hy : y.HasValue w) : (x - y).HasValue (v - w) := Within.sub hx hy

end Exact

namespace Double

variable {d : Double} {v b : Rat}

/-- Numbers that are doubles are left as they are. -/
theorem hasValue_of_holds {x : Exact} (h : x.HasValue v) (held : binary64.Holds v) :
    (ofExact x).exact.HasValue v := by
  have size : binary64.Holds |v| := by rwa [abs_of_nonneg held.nonneg]
  exact within_ofExact h size size

theorem near_shifted {n : Nat} {k : Int} (digits : n < 2 ^ 53) (low : -1074 ≤ k) (high : k ≤ 971) :
    binary64.near (n * 2 ^ k) = n * 2 ^ k := by
  apply Format.Holds.near
  rw [abs_of_nonneg (by positivity)]
  exact holds_shifted digits low high

/-- Whole numbers are doubles up to a power of two. -/
theorem holds_natCast {n : Nat} (le : n ≤ 2 ^ 53) : binary64.Holds (n : Rat) := by
  rcases le.eq_or_lt with rfl | less
  · have held := holds_shifted (n := 1) (k := 53) (by decide) (by decide) (by decide)
    norm_num at held ⊢
    exact held
  · exact Format.holds_natCast (by decide) (by decide) less

theorem near_natCast {n : Nat} (le : n ≤ 2 ^ 53) : binary64.near n = n := by
  apply Format.Holds.near
  rw [abs_of_nonneg (Nat.cast_nonneg n)]
  exact holds_natCast le

theorem hasValue_round (h : d.exact.HasValue v) (held : binary64.Holds v) :
    d.round.exact.HasValue ⌊v + 1 / 2⌋ :=
  hasValue_of_holds (h.round held.nonneg) (held.round (by decide) (by decide))

theorem hasValue_trunc (h : d.exact.HasValue v) (held : binary64.Holds v) : d.trunc.exact.HasValue ⌊v⌋ :=
  hasValue_of_holds (h.trunc held.nonneg) (held.floor (by decide) (by decide))

theorem hasValue_fraction (h : d.exact.HasValue v) (held : binary64.Holds v) :
    d.fraction.exact.HasValue (Int.fract v) := by
  have rest := h.sub (hasValue_trunc h held)
  rw [Int.self_sub_floor] at rest
  exact hasValue_of_holds rest (held.fract (by decide) (by decide))

theorem isZero_iff (h : d.exact.HasValue v) : d.isZero = true ↔ v = 0 := by
  have number : d.isNaN = false := by
    obtain ⟨s, q, eq, -⟩ := Exact.Within.exists_finite h
    rw [isNaN, eq]
    rfl
  have below : d.lt 0 = true ↔ v < 0 := h.lt_iff hasValue_zero
  have above : (0 : Double).lt d = true ↔ 0 < v := hasValue_zero.lt_iff h
  rw [isZero, number, Bool.not_false, Bool.true_and, Bool.and_eq_true, Bool.not_eq_true', Bool.not_eq_true',
    ← Bool.not_eq_true, ← Bool.not_eq_true, below, above, not_lt, not_lt]
  exact ⟨fun h => le_antisymm h.2 h.1, fun h => ⟨h.ge, h.le⟩⟩

/-- Whole numbers beyond 64 bits are taken for the greatest one of 64 bits. -/
theorem toUInt64_of_hasValue {n : Nat} (h : d.exact.HasValue n) : d.toUInt64.toNat = min n 0xFFFFFFFFFFFFFFFF := by
  have clamped : d.exact.clampTo 0 0xFFFFFFFFFFFFFFFF = (min n 0xFFFFFFFFFFFFFFFF : Nat) := by
    obtain ⟨s, eq, sign⟩ := h.exists_sign (Nat.cast_nonneg n)
    have floor : ((n : Rat)).floor = n := by rw [Exact.rat_floor_eq, Int.floor_natCast]
    rw [eq]
    cases s
    · simp only [Exact.clampTo, floor]
      omega
    · have zero : n = 0 := by exact_mod_cast sign rfl
      simp only [Exact.clampTo, floor]
      omega
  rw [toUInt64, clamped, UInt64.toNat_ofNat_of_lt' (show _ < 2 ^ 64 by omega), Int.toNat_natCast]

/-- What is not above zero is taken for zero. -/
theorem hasValue_max_zero (h : d.exact.AtMost b) : (d.max 0).exact.HasValue (Max.max d.exact.value 0) := by
  have zero : (0 : Double).exact = .finite false 0 := exact_zero
  have number : (0 : Double).isNaN = false := by rw [isNaN, zero]; rfl
  rw [Double.max, number, isNaN, lt, zero]
  cases eq : d.exact with
  | nan => simpa [Exact.isNaN, Exact.value] using hasValue_zero
  | infinite s =>
    rw [eq] at h
    cases h
    simpa [Exact.isNaN, Exact.lt, Exact.value] using hasValue_zero
  | finite s q =>
    rw [eq] at h
    obtain ⟨nonneg, -⟩ : 0 ≤ q ∧ (Exact.finite s q).value ≤ b := by
      cases h with
      | finite nonneg le => exact ⟨nonneg, le⟩
    have self : d.exact.HasValue (Exact.finite s q).value := by
      rw [eq]
      exact ⟨nonneg, le_rfl, le_rfl⟩
    have none : (Exact.finite false 0).value = 0 := rfl
    simp only [Exact.isNaN, Exact.lt, none, Bool.false_eq_true, if_false, decide_eq_true_eq]
    split
    · rename_i negative
      rw [max_eq_right negative.le]
      exact hasValue_zero
    · rename_i positive
      rw [max_eq_left (not_lt.1 positive)]
      exact self

/-- What is neither below a number nor above another one is a number between them. -/
theorem exists_between {a t b : Double} {low high : Rat} (ha : a.exact.HasValue low) (hb : b.exact.HasValue high)
    (above : a.le t = true) (below : t.le b = true) : ∃ v, t.exact.HasValue v ∧ low ≤ v ∧ v ≤ high := by
  simp only [le, Bool.and_eq_true, Bool.not_eq_true'] at above below
  obtain ⟨⟨-, number⟩, above⟩ := above
  obtain ⟨-, below⟩ := below
  have finite : ∃ v, t.exact.HasValue v := by
    obtain ⟨s, p, first, -⟩ := Exact.Within.exists_finite ha
    obtain ⟨u, q, last, -⟩ := Exact.Within.exists_finite hb
    rw [lt, first] at above
    rw [lt, last] at below
    cases eq : t.exact with
    | nan =>
      rw [isNaN, eq] at number
      cases number
    | infinite negative =>
      rw [eq] at above below
      cases negative
      · cases below
      · cases above
    | finite negative magnitude => exact ⟨_, (holds_exact eq).nonneg, le_rfl, le_rfl⟩
  obtain ⟨v, value⟩ := finite
  refine ⟨v, value, not_lt.1 fun less => ?_, not_lt.1 fun less => ?_⟩
  · exact Bool.false_ne_true (above.symm.trans ((value.lt_iff ha).2 less))
  · exact Bool.false_ne_true (below.symm.trans ((hb.lt_iff value).2 less))

/-- The next double is off by a part of the number that the digits leave, and by less than that of one. -/
theorem near_error_le (nonneg : 0 ≤ v) : |binary64.near v - v| ≤ (1 + v) / 2 ^ 52 := by
  rcases le_or_gt v 1 with small | large
  · have error := near_error (v := v) (k := 0) (by rwa [abs_of_nonneg nonneg, zpow_zero]) (by decide)
    refine error.trans ?_
    norm_num
    linarith
  · have pos : 0 < v := one_pos.trans large
    obtain ⟨least, less⟩ := zpow_log2_le pos
    have exponent : 0 ≤ log2 v := (le_log2_iff pos).2 (by simpa using large.le)
    have error := near_error (v := v) (k := log2 v + 1) (by rw [abs_of_nonneg nonneg]; exact less.le) (by omega)
    calc |binary64.near v - v|
      _ ≤ 2 ^ (log2 v + 1 - 53) := error
      _ = 2 ^ log2 v / 2 ^ 52 := by
          rw [div_eq_mul_inv, ← zpow_natCast, ← zpow_neg, ← two_zpow_add]
          congr 1
          omega
      _ ≤ (1 + v) / 2 ^ 52 := by
          gcongr
          linarith

end Double
end CycleChart.Binary
