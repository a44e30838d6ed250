import CycleChart.Proofs.Binary.Whole

namespace CycleChart.Binary.Double

/-- A number from zero to a whole number. -/
def UpTo (n : Nat) (d : Double) : Prop := d.exact.Within 0 n

variable {d e : Double} {m n : Nat}

/-- Rounding keeps a whole bound of up to 53 bits. -/
theorem upTo_ofExact {x : Exact} (h : x.Within 0 n) (le : n ≤ 2 ^ 53) : (ofExact x).UpTo n := by
  have nonneg : (0 : Rat) ≤ n := Nat.cast_nonneg n
  have held : binary64.Holds |(n : Rat)| := (abs_of_nonneg nonneg).symm ▸ holds_natCast le
  exact within_ofExact h holds_zero held

theorem upTo_ofRat {q : Rat} (nonneg : 0 ≤ q) (le : q ≤ n) (few : n ≤ 2 ^ 53) : (ofRat q).UpTo n :=
  upTo_ofExact ((Exact.within_ofRat q).mono nonneg le) few

theorem upTo_ofNat (le : m ≤ n) (few : n ≤ 2 ^ 53) : (ofNat m).UpTo n :=
  upTo_ofRat (Nat.cast_nonneg m) (Nat.cast_le.2 le) few

theorem UpTo.mul (hd : d.UpTo m) (he : e.UpTo n) (le : m * n ≤ 2 ^ 53) : (d * e).UpTo (m * n) := by
  refine upTo_ofExact ?_ le
  have product := Exact.Within.mul hd he le_rfl le_rfl
  rwa [mul_zero, ← Nat.cast_mul] at product

theorem UpTo.add (hd : d.UpTo m) (he : e.UpTo n) (le : m + n ≤ 2 ^ 53) : (d + e).UpTo (m + n) := by
  refine upTo_ofExact ?_ le
  have sum := Exact.Within.add hd he
  rwa [add_zero, ← Nat.cast_add] at sum

theorem UpTo.div {parts : Nat} (h : d.UpTo m) (le : m ≤ parts * n) (filled : 0 < parts) (few : parts < 2 ^ 53)
    (small : n ≤ 2 ^ 53) : (d / ofNat parts).UpTo n := by
  have divisor : (0 : Rat) < parts := Nat.cast_pos.2 filled
  have quotient := Exact.Within.div h (hasValue_ofNat few) divisor
  refine upTo_ofExact (quotient.mono (zero_div _).ge ?_) small
  rw [div_le_iff₀ divisor, mul_comm]
  exact_mod_cast le

/-- Division by at least one keeps the bound. -/
theorem UpTo.div_of_one_le {high : Rat} (h : d.UpTo n) (divisor : e.exact.Within 1 high) (small : n ≤ 2 ^ 53) :
    (d / e).UpTo n := by
  obtain ⟨s, q, eq, nonneg⟩ := divisor.exists_finite
  rw [eq] at divisor
  have least : 1 ≤ (Exact.finite s q).value := divisor.2.1
  have value : e.exact.HasValue (Exact.finite s q).value := by
    rw [eq]
    exact ⟨nonneg, le_rfl, le_rfl⟩
  have quotient := Exact.Within.div h value (one_pos.trans_le least)
  refine upTo_ofExact (quotient.mono (zero_div _).ge ?_) small
  exact div_le_self (Nat.cast_nonneg n) least

theorem UpTo.within_int (h : d.UpTo n) : d.exact.Within (0 : Int) (n : Int) := by
  rw [Int.cast_zero, Int.cast_natCast]
  exact h

theorem UpTo.round (h : d.UpTo n) (le : n ≤ 2 ^ 53) : d.round.UpTo n := by
  have nearest := h.within_int.round
  rw [Int.cast_zero, Int.cast_natCast] at nearest
  exact upTo_ofExact nearest le

theorem UpTo.ceil (h : d.UpTo n) (le : n ≤ 2 ^ 53) : d.ceil.UpTo n := by
  have whole := Exact.Within.ceil h
  rw [Int.ceil_zero, Int.ceil_natCast, Int.cast_zero, Int.cast_natCast] at whole
  exact upTo_ofExact whole le

theorem UpTo.max (hd : d.UpTo n) (he : e.UpTo n) : (d.max e).UpTo n := by
  rw [Double.max]
  split_ifs <;> assumption

theorem UpTo.toUInt32 (h : d.UpTo n) (small : n < 2 ^ 32) : d.toUInt32.toNat ≤ n := by
  obtain ⟨low, high⟩ := h.within_int.clampTo (Int.le_refl 0) (show (n : Int) ≤ 0xFFFFFFFF by omega)
  rw [Double.toUInt32, UInt32.toNat_ofNat_of_lt' (show _ < 2 ^ 32 by omega)]
  omega

theorem UpTo.toInt32 (h : d.UpTo n) (small : n < 2 ^ 31) : 0 ≤ d.toInt32 ∧ d.toInt32 ≤ n :=
  h.within_int.clampTo (by decide) (by omega)

end CycleChart.Binary.Double
