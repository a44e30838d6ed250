import CycleChart.Binary.Double
import Mathlib.Algebra.Order.Field.Power
import Mathlib.Data.Rat.Floor
import Mathlib.Tactic.Linarith
import Mathlib.Tactic.NormNum
import Mathlib.Tactic.Positivity
import Mathlib.Tactic.Ring

namespace CycleChart.Binary

theorem twoPow_eq_zpow (k : Int) : twoPow k = (2 : Rat) ^ k := by
  rw [twoPow]
  split
  · rename_i h
    obtain ⟨n, rfl⟩ := Int.eq_ofNat_of_zero_le h
    simp
  · rename_i h
    obtain ⟨n, rfl⟩ : ∃ n : Nat, k = -n := ⟨(-k).toNat, by omega⟩
    simp

theorem two_zpow_pos (k : Int) : (0 : Rat) < 2 ^ k := zpow_pos (by norm_num) k

theorem two_zpow_le_iff {j k : Int} : (2 : Rat) ^ j ≤ 2 ^ k ↔ j ≤ k := zpow_le_zpow_iff_right₀ (by norm_num)

theorem two_zpow_lt_iff {j k : Int} : (2 : Rat) ^ j < 2 ^ k ↔ j < k := zpow_lt_zpow_iff_right₀ (by norm_num)

theorem two_zpow_add (j k : Int) : (2 : Rat) ^ (j + k) = 2 ^ j * 2 ^ k := zpow_add₀ (by norm_num) j k

/-! The binade of a number. -/

theorem num_div_den {q : Rat} (h : 0 ≤ q) : (q.num.toNat : Rat) / q.den = q := by
  have num : ((q.num.toNat : Int) : Rat) = q.num := by
    rw [Int.toNat_of_nonneg (Rat.num_nonneg.2 h)]
  rw [Int.cast_natCast] at num
  rw [num, Rat.num_div_den]

theorem zpow_log2_le {q : Rat} (h : 0 < q) : 2 ^ log2 q ≤ q ∧ q < 2 ^ (log2 q + 1) := by
  have num : 0 < q.num := Rat.num_pos.2 h
  have n : q.num.toNat ≠ 0 := by omega
  have d : q.den ≠ 0 := q.den_nz
  have dpos : (0 : Rat) < q.den := by exact_mod_cast q.den_pos
  have eq := num_div_den h.le
  have nlow : (2 : Rat) ^ (q.num.toNat.log2 : Int) ≤ q.num.toNat := by
    rw [zpow_natCast]
    exact_mod_cast Nat.log2_self_le n
  have nhigh : (q.num.toNat : Rat) < 2 ^ ((q.num.toNat.log2 : Int) + 1) := by
    have lt := Nat.lt_log2_self (n := q.num.toNat)
    exact_mod_cast lt
  have dlow : (2 : Rat) ^ (q.den.log2 : Int) ≤ q.den := by
    rw [zpow_natCast]
    exact_mod_cast Nat.log2_self_le d
  have dhigh : (q.den : Rat) < 2 ^ ((q.den.log2 : Int) + 1) := by
    have lt := Nat.lt_log2_self (n := q.den)
    exact_mod_cast lt
  rw [log2]
  generalize (q.num.toNat.log2 : Int) = a at *
  generalize (q.den.log2 : Int) = b at *
  have below : 2 ^ (a - b - 1) < q := by
    rw [← eq, lt_div_iff₀ dpos]
    calc (2 : Rat) ^ (a - b - 1) * q.den
      _ < 2 ^ (a - b - 1) * 2 ^ (b + 1) := mul_lt_mul_of_pos_left dhigh (two_zpow_pos _)
      _ = 2 ^ a := by rw [← two_zpow_add]; congr 1; omega
      _ ≤ _ := nlow
  have above : q < 2 ^ (a - b + 1) := by
    rw [← eq, div_lt_iff₀ dpos]
    calc (q.num.toNat : Rat)
      _ < 2 ^ (a + 1) := nhigh
      _ = 2 ^ (a - b + 1) * 2 ^ b := by rw [← two_zpow_add]; congr 1; omega
      _ ≤ 2 ^ (a - b + 1) * q.den := mul_le_mul_of_nonneg_left dlow (two_zpow_pos _).le
  rw [twoPow_eq_zpow]
  split
  · exact ⟨‹_›, above⟩
  · rename_i less
    exact ⟨below.le, by simpa using less⟩

theorem le_log2_iff {q : Rat} (h : 0 < q) {k : Int} : k ≤ log2 q ↔ 2 ^ k ≤ q := by
  obtain ⟨low, high⟩ := zpow_log2_le h
  constructor
  · intro le
    exact (two_zpow_le_iff.2 le).trans low
  · intro le
    have lt := two_zpow_lt_iff.1 (le.trans_lt high)
    omega

theorem log2_mono {p q : Rat} (h : 0 < p) (le : p ≤ q) : log2 p ≤ log2 q :=
  (le_log2_iff (h.trans_le le)).2 ((zpow_log2_le h).1.trans le)

/-! The nearest whole number. -/

/-- The whole part of a number, and what the nearest whole number is by the rest. -/
theorem nearestEven_spec {q : Rat} (h : 0 ≤ q) :
    ∃ whole : Nat, (whole : Rat) ≤ q ∧ q < whole + 1 ∧
      nearestEven q =
        if q - whole < 1 / 2 then whole else if 1 / 2 < q - whole then whole + 1 else whole + whole % 2 := by
  have dpos : (0 : Rat) < q.den := by exact_mod_cast q.den_pos
  have eq := num_div_den h
  refine ⟨q.num.toNat / q.den, ?_⟩
  have cut : (q.num.toNat : Rat) = q.den * (q.num.toNat / q.den : Nat) + (q.num.toNat % q.den : Nat) := by
    exact_mod_cast (Nat.div_add_mod q.num.toNat q.den).symm
  have less : ((q.num.toNat % q.den : Nat) : Rat) < q.den := by exact_mod_cast Nat.mod_lt _ q.den_pos
  have rest : q - (q.num.toNat / q.den : Nat) = (q.num.toNat % q.den : Nat) / q.den := by
    rw [eq_div_iff dpos.ne', sub_mul]
    nth_rewrite 1 [← eq]
    rw [div_mul_cancel₀ _ dpos.ne', cut]
    ring
  have half : ∀ n : Nat,
      ((n : Rat) / q.den < 1 / 2 ↔ 2 * n < q.den) ∧ (1 / 2 < (n : Rat) / q.den ↔ q.den < 2 * n) := by
    intro n
    rw [div_lt_iff₀ dpos, lt_div_iff₀ dpos]
    constructor
    · rw [← @Nat.cast_lt Rat]
      push_cast
      constructor <;> intro h <;> linarith
    · rw [← @Nat.cast_lt Rat]
      push_cast
      constructor <;> intro h <;> linarith
  have small : q - (q.num.toNat / q.den : Nat) < 1 := by
    rw [rest, div_lt_one dpos]
    exact less
  have some : 0 ≤ q - (q.num.toNat / q.den : Nat) := by
    rw [rest]
    positivity
  refine ⟨by linarith, by linarith, ?_⟩
  simp only [rest, (half _).1, (half _).2]
  rfl

theorem nearestEven_mono {p q : Rat} (h : 0 ≤ p) (le : p ≤ q) : nearestEven p ≤ nearestEven q := by
  obtain ⟨a, alow, ahigh, peq⟩ := nearestEven_spec h
  obtain ⟨b, blow, bhigh, qeq⟩ := nearestEven_spec (h.trans le)
  have ab : a ≤ b := by
    have : (a : Rat) < b + 1 := by linarith
    exact Nat.lt_succ_iff.1 (by exact_mod_cast this)
  rw [peq, qeq]
  rcases Nat.eq_or_lt_of_le ab with rfl | lt
  · split_ifs <;> first | omega | (exfalso; linarith)
  · split_ifs <;> omega

theorem nearestEven_natCast (n : Nat) : nearestEven n = n := by
  simp [nearestEven, Nat.mod_one]

namespace Format

variable {f : Format} {p q : Rat}

/-! The spacing of the format. -/

theorem lowest_le_unit (f : Format) (q : Rat) : f.lowest ≤ f.unit q := by
  unfold unit
  split <;> omega

theorem unit_of_pos (h : 0 < q) : f.unit q = max (log2 q - (f.precision - 1)) f.lowest := if_neg h.ne'

theorem unit_mono (h : 0 ≤ p) (le : p ≤ q) : f.unit p ≤ f.unit q := by
  rcases h.eq_or_lt with rfl | pos
  · rw [unit, if_pos rfl]
    exact f.lowest_le_unit q
  · rw [unit_of_pos pos, unit_of_pos (pos.trans_le le)]
    have := log2_mono pos le
    omega

/-- The magnitude that takes the place of another one. -/
def rounded (f : Format) (q : Rat) : Rat := f.units q * 2 ^ f.unit q

theorem rounded_nonneg (f : Format) (q : Rat) : 0 ≤ f.rounded q :=
  mul_nonneg (Nat.cast_nonneg _) (two_zpow_pos _).le

theorem lt_zpow_unit (f : Format) (h : 0 ≤ q) : q < 2 ^ (f.unit q + f.precision) := by
  rcases h.eq_or_lt with rfl | pos
  · exact two_zpow_pos _
  · refine (zpow_log2_le pos).2.trans_le (two_zpow_le_iff.2 ?_)
    rw [unit_of_pos pos]
    omega

theorem units_le (f : Format) (h : 0 ≤ q) : f.units q ≤ 2 ^ f.precision := by
  have le : q / 2 ^ f.unit q ≤ (2 ^ f.precision : Nat) := by
    rw [div_le_iff₀ (two_zpow_pos _)]
    have lt := f.lt_zpow_unit h
    rw [two_zpow_add, mul_comm] at lt
    push_cast
    exact_mod_cast lt.le
  have := nearestEven_mono (div_nonneg h (two_zpow_pos _).le) le
  rwa [nearestEven_natCast, ← twoPow_eq_zpow] at this

/-- Above the lowest binade a magnitude has its full count of digits. -/
theorem le_units (positive : 0 < f.precision) (h : 0 ≤ q) (above : f.lowest < f.unit q) :
    2 ^ (f.precision - 1) ≤ f.units q := by
  have pos : 0 < q := by
    apply h.lt_of_ne
    rintro rfl
    simp [unit] at above
  have le : ((2 ^ (f.precision - 1) : Nat) : Rat) ≤ q / 2 ^ f.unit q := by
    rw [le_div_iff₀ (two_zpow_pos _)]
    push_cast
    rw [← zpow_natCast, ← two_zpow_add]
    refine (two_zpow_le_iff.2 ?_).trans (zpow_log2_le pos).1
    rw [unit_of_pos pos] at above ⊢
    omega
  have := nearestEven_mono (Nat.cast_nonneg _) le
  rwa [nearestEven_natCast, ← twoPow_eq_zpow] at this

theorem rounded_mono (positive : 0 < f.precision) (h : 0 ≤ p) (le : p ≤ q) : f.rounded p ≤ f.rounded q := by
  rcases (unit_mono (f := f) h le).eq_or_lt with same | below
  · have units : f.units p ≤ f.units q := by
      simp only [Format.units, ← same, twoPow_eq_zpow]
      apply nearestEven_mono (div_nonneg h (two_zpow_pos _).le)
      exact div_le_div_of_nonneg_right le (two_zpow_pos _).le
    rw [rounded, rounded, same]
    exact mul_le_mul_of_nonneg_right (by exact_mod_cast units) (two_zpow_pos _).le
  -- the binades differ, so a power of two lies between the rounded numbers
  · have low := f.units_le h
    have high := le_units positive (h.trans le) ((f.lowest_le_unit p).trans_lt below)
    calc f.rounded p
      _ ≤ (2 ^ f.precision : Nat) * 2 ^ f.unit p :=
          mul_le_mul_of_nonneg_right (by exact_mod_cast low) (two_zpow_pos _).le
      _ = 2 ^ (f.precision + f.unit p) := by
          push_cast
          rw [← zpow_natCast, ← two_zpow_add]
      _ ≤ 2 ^ ((f.precision - 1 : Nat) + f.unit q) := two_zpow_le_iff.2 (by omega)
      _ = (2 ^ (f.precision - 1) : Nat) * 2 ^ f.unit q := by
          rw [two_zpow_add]
          push_cast
          rw [← zpow_natCast]
      _ ≤ f.rounded q := mul_le_mul_of_nonneg_right (by exact_mod_cast high) (two_zpow_pos _).le

/-- Whether a magnitude is one of the format's. -/
def Holds (f : Format) (q : Rat) : Prop :=
  ∃ (n : Nat) (k : Int), q = n * 2 ^ k ∧ n < 2 ^ f.precision ∧ f.lowest ≤ k ∧ q < 2 ^ f.highest

theorem Holds.nonneg (h : f.Holds q) : 0 ≤ q := by
  obtain ⟨n, k, rfl, -⟩ := h
  exact mul_nonneg (Nat.cast_nonneg _) (two_zpow_pos _).le

theorem Holds.lt (h : f.Holds q) : q < 2 ^ f.highest := by
  obtain ⟨-, -, -, -, -, lt⟩ := h
  exact lt

theorem Holds.rounded (h : f.Holds q) : f.rounded q = q := by
  obtain ⟨n, k, rfl, digits, low, -⟩ := h
  have unit : f.unit (n * 2 ^ k) ≤ k := by
    rcases (Nat.cast_nonneg (α := Rat) n).eq_or_lt with zero | pos
    · rw [← zero, zero_mul, Format.unit, if_pos rfl]
      exact low
    · have pos := mul_pos pos (two_zpow_pos k)
      have lt : (n : Rat) * 2 ^ k < 2 ^ (f.precision + k) := by
        rw [two_zpow_add]
        exact mul_lt_mul_of_pos_right (by exact_mod_cast digits) (two_zpow_pos _)
      have := two_zpow_lt_iff.1 ((zpow_log2_le pos).1.trans_lt lt)
      rw [unit_of_pos pos]
      omega
  obtain ⟨m, eq⟩ : ∃ m : Nat, k = m + f.unit (n * 2 ^ k) := ⟨(k - f.unit (n * 2 ^ k)).toNat, by omega⟩
  have whole : (n : Rat) * 2 ^ k / 2 ^ f.unit (n * 2 ^ k) = (n * 2 ^ m : Nat) := by
    rw [div_eq_iff (two_zpow_pos _).ne']
    conv_lhs => rw [eq]
    rw [two_zpow_add, zpow_natCast]
    push_cast
    ring
  have units : f.units (n * 2 ^ k) = n * 2 ^ m := by
    rw [Format.units, twoPow_eq_zpow, whole, nearestEven_natCast]
  rw [Format.rounded, units, ← whole, div_mul_cancel₀ _ (two_zpow_pos _).ne']

theorem nearest_finite (f : Format) (s : Bool) (q : Rat) :
    f.nearest (.finite s q) = if 2 ^ f.highest ≤ f.rounded q then .infinite s else .finite s (f.rounded q) := by
  simp only [nearest, twoPow_eq_zpow, rounded]
  congr

end Format
end CycleChart.Binary
