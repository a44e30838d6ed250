import CycleChart.Proofs.Binary.Rounding

namespace CycleChart.Binary.Double

/-- The number with some bits below the sign. -/
theorem exact_signed (s : Bool) {m : Nat} (h : m ≤ infinityBits) :
    (⟨UInt64.ofNat ((if s then signWeight else 0) + m)⟩ : Double).exact =
      if m / fractionCount = 2047 then (if m % fractionCount = 0 then .infinite s else .nan)
      else if m / fractionCount = 0 then .finite s ((m % fractionCount : Nat) * 2 ^ (-1074 : Int))
      else .finite s ((fractionCount + m % fractionCount : Nat) * 2 ^ (((m / fractionCount : Nat) : Int) - 1075)) := by
  have bits : (UInt64.ofNat ((if s then signWeight else 0) + m)).toNat = (if s then signWeight else 0) + m := by
    apply UInt64.toNat_ofNat_of_lt'
    simp only [infinityBits, fractionCount, signWeight, UInt64.size] at *
    split <;> omega
  have negative : decide (signWeight ≤ (if s then signWeight else 0) + m) = s := by
    simp only [infinityBits, fractionCount, signWeight] at *
    cases s <;> simp
    omega
  have exponent : ((if s then signWeight else 0) + m) / fractionCount % 2048 = m / fractionCount := by
    simp only [infinityBits, fractionCount, signWeight] at *
    split <;> omega
  have fraction : ((if s then signWeight else 0) + m) % fractionCount = m % fractionCount := by
    simp only [fractionCount, signWeight] at *
    split <;> omega
  simp only [exact, bits, negative, exponent, fraction, twoPow_eq_zpow, binary64]

/-- Consecutive bits stand for consecutive magnitudes: `u` units of a binade, counted after all smaller binades. -/
theorem exact_units (s : Bool) {e u : Nat} (digits : e = 0 ∨ 2 ^ 52 ≤ u) (most : u ≤ 2 ^ 53)
    (h : e * fractionCount + u < infinityBits) :
    (⟨UInt64.ofNat ((if s then signWeight else 0) + (e * fractionCount + u))⟩ : Double).exact =
      .finite s (u * 2 ^ ((e : Int) - 1074)) := by
  have count : fractionCount = 2 ^ 52 := rfl
  have infinity : infinityBits = 2047 * 2 ^ 52 := rfl
  rw [exact_signed s h.le]
  rw [count, infinity] at h
  rw [count, if_neg (by omega)]
  by_cases lowest : u < 2 ^ 52
  · obtain rfl : e = 0 := by omega
    rw [Nat.zero_mul, Nat.zero_add, if_pos (Nat.div_eq_of_lt lowest), Nat.mod_eq_of_lt lowest]
    norm_num
  · rw [if_neg (by omega)]
    -- a full count of units carries into the exponent of the next binade
    rcases most.eq_or_lt with rfl | less
    · have quotient : (e * 2 ^ 52 + 2 ^ 53) / 2 ^ 52 = e + 2 := by omega
      have remainder : (e * 2 ^ 52 + 2 ^ 53) % 2 ^ 52 = 0 := by omega
      have exponent : ((e + 2 : Nat) : Int) - 1075 = (e - 1074) + 1 := by omega
      have double : ((2 ^ 53 : Nat) : Rat) = (2 ^ 52 : Nat) * 2 := by norm_num
      rw [quotient, remainder, exponent, two_zpow_add, double, Nat.add_zero, zpow_one, mul_assoc, mul_comm _ (2 : Rat)]
    · have quotient : (e * 2 ^ 52 + u) / 2 ^ 52 = e + 1 := by omega
      have remainder : 2 ^ 52 + (e * 2 ^ 52 + u) % 2 ^ 52 = u := by omega
      rw [quotient, remainder]
      congr 3
      push_cast
      ring

/-- From the bits of infinity on the units reach beyond the highest binade. -/
theorem infinityBits_le_iff {e u : Nat} (digits : e = 0 ∨ 2 ^ 52 ≤ u) (most : u ≤ 2 ^ 53) :
    infinityBits ≤ e * fractionCount + u ↔ (2 : Rat) ^ (1024 : Int) ≤ u * 2 ^ ((e : Int) - 1074) := by
  have count : fractionCount = 2 ^ 52 := rfl
  have infinity : infinityBits = 2047 * 2 ^ 52 := rfl
  rw [count, infinity]
  have reach : (2 : Rat) ^ (1024 : Int) = (2 ^ 53 : Nat) * 2 ^ (971 : Int) := by
    rw [Nat.cast_pow, ← zpow_natCast]
    exact two_zpow_add 53 971
  have reach' : (2 : Rat) ^ (1024 : Int) = (2 ^ 52 : Nat) * 2 ^ (972 : Int) := by
    rw [Nat.cast_pow, ← zpow_natCast]
    exact two_zpow_add 52 972
  constructor
  · intro h
    rcases most.eq_or_lt with rfl | less
    · rw [reach]
      exact mul_le_mul_of_nonneg_left (two_zpow_le_iff.2 (by omega)) (Nat.cast_nonneg _)
    · rw [reach']
      have big : 2 ^ 52 ≤ u := by omega
      exact mul_le_mul (by exact_mod_cast big) (two_zpow_le_iff.2 (by omega)) (two_zpow_pos _).le (Nat.cast_nonneg _)
  · intro h
    by_contra! less
    refine absurd h (not_le.2 ?_)
    rcases lt_or_ge e 2045 with small | large
    · calc (u : Rat) * 2 ^ ((e : Int) - 1074)
        _ ≤ (2 ^ 53 : Nat) * 2 ^ (970 : Int) :=
            mul_le_mul (by exact_mod_cast most) (two_zpow_le_iff.2 (by omega)) (two_zpow_pos _).le (Nat.cast_nonneg _)
        _ < 2 ^ (1024 : Int) := by
            rw [reach]
            exact mul_lt_mul_of_pos_left (two_zpow_lt_iff.2 (by omega)) (by norm_num)
    · obtain rfl : e = 2045 := by omega
      have less : u < 2 ^ 53 := by omega
      rw [reach]
      exact mul_lt_mul_of_pos_right (by exact_mod_cast less) (two_zpow_pos _)

/-- The bits of a double stand for the number that the format rounds to. -/
theorem exact_ofExact_finite (s : Bool) {q : Rat} (h : 0 ≤ q) :
    (ofExact (.finite s q)).exact = binary64.nearest (.finite s q) := by
  have low := binary64.lowest_le_unit q
  have most : binary64.units q ≤ 2 ^ 53 := binary64.units_le h
  obtain ⟨e, unit⟩ : ∃ e : Nat, binary64.unit q = e - 1074 := by
    refine ⟨(binary64.unit q + 1074).toNat, ?_⟩
    simp only [binary64] at low ⊢
    omega
  have digits : e = 0 ∨ 2 ^ 52 ≤ binary64.units q := by
    rcases Nat.eq_zero_or_pos e with zero | positive
    · exact .inl zero
    · refine .inr (Format.le_units (f := binary64) (by decide) h ?_)
      rw [unit]
      simp only [binary64]
      omega
  have places : (binary64.unit q - binary64.lowest).toNat = e := by
    rw [unit]
    simp only [binary64]
    omega
  have highest : binary64.highest = 1024 := rfl
  rw [Format.nearest_finite, Format.rounded, unit, highest]
  simp only [ofExact, places]
  generalize binary64.units q = u at *
  by_cases large : infinityBits ≤ e * fractionCount + u
  · rw [if_pos ((infinityBits_le_iff digits most).1 large), Nat.min_eq_right large, exact_signed s le_rfl]
    rfl
  · rw [if_neg (fun le => large ((infinityBits_le_iff digits most).2 le)), Nat.min_eq_left (by omega)]
    exact exact_units s digits most (by omega)

theorem exact_ofExact_nan : (ofExact .nan).exact = .nan := rfl

end CycleChart.Binary.Double
