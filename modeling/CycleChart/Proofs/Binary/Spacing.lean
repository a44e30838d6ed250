import CycleChart.Proofs.Binary.Whole

namespace CycleChart.Binary

theorem log2_eq {q : Rat} {k : Int} (low : 2 ^ k ≤ q) (high : q < 2 ^ (k + 1)) : log2 q = k := by
  have pos : 0 < q := (two_zpow_pos k).trans_le low
  have least := (le_log2_iff pos).2 low
  have most := two_zpow_lt_iff.1 ((zpow_log2_le pos).1.trans_lt high)
  omega

theorem log2_natCast {n : Nat} (some : n ≠ 0) : log2 (n : Rat) = n.log2 := by
  apply log2_eq
  · rw [zpow_natCast]
    exact_mod_cast Nat.log2_self_le some
  · exact_mod_cast Nat.lt_log2_self (n := n)

/-- Away from the middle of two whole numbers, the nearest one is less than a half away. -/
theorem nearestEven_eq_iff {q : Rat} {n : Nat} (nonneg : 0 ≤ q) (apart : |q - n| ≠ 1 / 2) :
    nearestEven q = n ↔ |q - n| < 1 / 2 := by
  constructor
  · rintro rfl
    rw [abs_sub_comm] at apart ⊢
    exact (nearestEven_error nonneg).lt_of_ne apart
  · intro near
    rw [abs_lt] at near
    obtain ⟨low, high⟩ := nearestEven_mem q n n (by linarith) (by linarith) nonneg
    exact le_antisymm high low

/-! How far whole numbers are from the doubles that take their place. -/

/-- How far a number is from the nearest multiple of a unit. -/
def offGrid (n unit : Nat) : Nat := min (n % unit) (unit - n % unit)

theorem offGrid_of_dvd {n unit : Nat} (h : unit ∣ n) : offGrid n unit = 0 := by
  rw [offGrid, Nat.mod_eq_zero_of_dvd h, Nat.zero_min]

theorem two_mul_offGrid_le (n unit : Nat) : 2 * offGrid n unit ≤ unit := by
  rw [offGrid]
  omega

/-- What divides a number and the unit divides how far the number is from the multiples of the unit. -/
theorem dvd_offGrid {d n unit : Nat} (h : d ∣ n) (h' : d ∣ unit) : d ∣ offGrid n unit := by
  have rest : d ∣ n % unit := (Nat.dvd_mod_iff h').2 h
  rw [offGrid]
  rcases min_choice (n % unit) (unit - n % unit) with eq | eq <;> rw [eq]
  · exact rest
  · exact Nat.dvd_sub h' rest

theorem abs_nearestEven_div (n : Nat) {unit : Nat} (filled : 0 < unit) :
    |(nearestEven ((n : Rat) / unit) * unit : Rat) - n| = offGrid n unit := by
  have pos : (0 : Rat) < unit := by exact_mod_cast filled
  obtain ⟨whole, low, high, eq⟩ := nearestEven_spec (q := (n : Rat) / unit) (by positivity)
  rw [le_div_iff₀ pos] at low
  rw [div_lt_iff₀ pos] at high
  obtain ⟨r, cut⟩ : ∃ r, n = whole * unit + r := Nat.exists_eq_add_of_le (by exact_mod_cast low)
  have less : r < unit := by
    have most : n < (whole + 1) * unit := by exact_mod_cast high
    rw [Nat.succ_mul] at most
    omega
  have rest : n % unit = r := by rw [cut, Nat.add_comm, Nat.add_mul_mod_self_right, Nat.mod_eq_of_lt less]
  have part : (n : Rat) / unit - whole = r / unit := by
    rw [cut, sub_eq_iff_eq_add, div_eq_iff pos.ne', add_mul, div_mul_cancel₀ _ pos.ne']
    push_cast
    ring
  have down : |((whole : Nat) * unit : Rat) - n| = r := by
    rw [cut, abs_of_nonpos (by push_cast; linarith [Nat.cast_nonneg (α := Rat) r])]
    push_cast
    ring
  have up : |((whole + 1 : Nat) * unit : Rat) - n| = (unit - r : Nat) := by
    have le : (r : Rat) ≤ unit := by exact_mod_cast less.le
    rw [cut, Nat.cast_sub less.le, abs_of_nonneg (by push_cast; linarith)]
    push_cast
    ring
  have half : ((r : Rat) / unit < 1 / 2 ↔ 2 * r < unit) ∧ (1 / 2 < (r : Rat) / unit ↔ unit < 2 * r) := by
    rw [div_lt_iff₀ pos, lt_div_iff₀ pos, ← @Nat.cast_lt Rat, ← @Nat.cast_lt Rat]
    push_cast
    constructor <;> constructor <;> intro h <;> linarith
  rw [eq, part, offGrid, rest]
  simp only [half.1, half.2]
  split_ifs with first second
  · rw [down, min_eq_left (by omega)]
  · rw [up, min_eq_right (by omega)]
  · -- in the middle both neighbours are as far
    have middle : unit - r = r := by omega
    rw [middle, min_self]
    rcases Nat.mod_two_eq_zero_or_one whole with even | odd
    · rw [even, Nat.add_zero, down]
    · rw [odd, up, middle]

namespace Double

/-- A whole number is rounded to a whole number, as far away as the multiples of the unit are. -/
theorem exists_near_natCast (n : Nat) :
    ∃ m : Nat, binary64.near n = m ∧ |(m : Rat) - n| = offGrid n (2 ^ (n.log2 - 52)) := by
  rcases lt_or_ge n (2 ^ 53) with small | large
  · have unit : n.log2 - 52 = 0 := by
      rcases Nat.eq_zero_or_pos n with rfl | some
      · rfl
      · have digits := (Nat.log2_lt some.ne').2 small
        omega
    refine ⟨n, near_natCast small.le, ?_⟩
    rw [unit, pow_zero, offGrid_of_dvd (one_dvd n), sub_self, abs_zero, Nat.cast_zero]
  · have some : n ≠ 0 := by omega
    have digits : 53 ≤ n.log2 := (Nat.le_log2 some).2 large
    have unit : binary64.unit n = (n.log2 - 52 : Nat) := by
      rw [Format.unit_of_pos (by positivity), log2_natCast some]
      simp only [binary64]
      omega
    refine ⟨nearestEven ((n : Rat) / (2 ^ (n.log2 - 52) : Nat)) * 2 ^ (n.log2 - 52), ?_, ?_⟩
    · rw [Format.near_of_nonneg (Nat.cast_nonneg n), Format.rounded, Format.units, unit, twoPow_eq_zpow, zpow_natCast]
      push_cast
      rfl
    · rw [← abs_nearestEven_div n (Nat.two_pow_pos _)]
      push_cast
      rfl

/-- The double nearest to what lies around a whole number, in one binade and not in the middle of two doubles. -/
theorem near_eq_iff {x : Rat} {n j : Nat} (low : 2 ^ j ≤ x) (high : x < 2 ^ (j + 1)) (small : j ≤ 52)
    (apart : |x - n| ≠ 2 ^ ((j : Int) - 53)) : binary64.near x = n ↔ |x - n| < 2 ^ ((j : Int) - 53) := by
  have pos : 0 < x := (by positivity : (0 : Rat) < 2 ^ j).trans_le low
  have step : (0 : Rat) < 2 ^ ((j : Int) - 52) := two_zpow_pos _
  have unit : binary64.unit x = (j : Int) - 52 := by
    have exponent : log2 x = j := log2_eq (by rwa [zpow_natCast]) (by exact_mod_cast high)
    rw [Format.unit_of_pos pos, exponent]
    simp only [binary64]
    omega
  have whole : (n : Rat) = (n * 2 ^ (52 - j) : Nat) * 2 ^ ((j : Int) - 52) := by
    have none : (2 : Rat) ^ (52 - j) * 2 ^ ((j : Int) - 52) = 1 := by
      rw [← zpow_natCast, ← two_zpow_add, ← zpow_zero (2 : Rat)]
      congr 1
      omega
    push_cast
    rw [mul_assoc, none, mul_one]
  have half : (2 : Rat) ^ ((j : Int) - 53) = 1 / 2 * 2 ^ ((j : Int) - 52) := by
    rw [show (j : Int) - 53 = -1 + (j - 52) by ring, two_zpow_add]
    norm_num
  have scaled : |x - n| = |x / 2 ^ ((j : Int) - 52) - (n * 2 ^ (52 - j) : Nat)| * 2 ^ ((j : Int) - 52) := by
    rw [← abs_of_pos step, ← abs_mul, abs_of_pos step, sub_mul, div_mul_cancel₀ _ step.ne', ← whole]
  have rounded : binary64.near x = n ↔ nearestEven (x / 2 ^ ((j : Int) - 52)) = n * 2 ^ (52 - j) := by
    rw [Format.near_of_nonneg pos.le, Format.rounded, Format.units, unit, twoPow_eq_zpow]
    conv_lhs => rw [whole]
    rw [mul_left_inj' step.ne', Nat.cast_inj]
  rw [scaled, half] at apart ⊢
  rw [rounded, mul_lt_mul_iff_left₀ step]
  exact nearestEven_eq_iff (by positivity) fun eq => apart (by rw [eq])

end Double
end CycleChart.Binary
