import CycleChart.Proofs.Binary.Enclosure

namespace CycleChart.Binary

namespace Exact

variable {x y : Exact} {v : Rat}

/-- The difference of finite numbers, the first of which has no minus sign. -/
theorem finite_sub (v : Rat) (s : Bool) (q : Rat) :
    finite false v - finite s q =
      if v - (finite s q).value = 0 then finite false 0 else ofRat (v - (finite s q).value) := by
  have sum : (finite false v).value + (finite (!s) q).value = v - (finite s q).value := by
    cases s <;> simp [value, sub_eq_add_neg]
  change Exact.add (finite false v) (finite (!s) q) = _
  rw [Exact.add, sum, Bool.false_and]

/-- Whether a number has no minus sign. What is not a number has none. -/
inductive Unsigned : Exact → Prop where
  | nan : Unsigned nan
  | infinite : Unsigned (infinite false)
  | finite {q : Rat} (nonneg : 0 ≤ q) : Unsigned (finite false q)

theorem Unsigned.mul (hx : x.Unsigned) (hy : y.Unsigned) : (x * y).Unsigned := by
  change (Exact.mul x y).Unsigned
  cases hx with
  | nan => exact .nan
  | infinite =>
    cases hy with
    | nan => exact .nan
    | infinite => exact .infinite
    | finite _ =>
      rw [Exact.mul]
      split
      · exact .nan
      · exact .infinite
  | finite nonneg =>
    cases hy with
    | nan => exact .nan
    | infinite =>
      rw [Exact.mul]
      split
      · exact .nan
      · exact .infinite
    | finite nonneg' => exact .finite (mul_nonneg nonneg nonneg')

theorem Unsigned.div (hx : x.Unsigned) (hy : y.Unsigned) : (x / y).Unsigned := by
  change (Exact.div x y).Unsigned
  cases hx with
  | nan => exact .nan
  | infinite =>
    cases hy with
    | nan => exact .nan
    | infinite => exact .nan
    | finite _ => exact .infinite
  | finite nonneg =>
    cases hy with
    | nan => exact .nan
    | infinite => exact .finite le_rfl
    | finite nonneg' =>
      rw [Exact.div]
      split
      · split
        · exact .nan
        · exact .infinite
      · exact .finite (div_nonneg nonneg nonneg')

theorem Unsigned.floor (hx : x.Unsigned) : x.floor.Unsigned := by
  cases hx with
  | nan => exact .nan
  | infinite => exact .infinite
  | finite nonneg => exact .finite (Int.cast_nonneg (Int.floor_nonneg.2 nonneg))

/-- Taking away nothing leaves no sign. -/
theorem Unsigned.sub_zero (hx : x.Unsigned) : (x - Exact.finite false 0).Unsigned := by
  cases hx with
  | nan => exact .nan
  | infinite => exact .infinite
  | @finite q nonneg =>
    have rest : q - (Exact.finite false 0).value = q := by simp [value]
    rw [finite_sub, rest]
    split
    · exact .finite le_rfl
    · rw [ofRat, if_neg (not_lt.2 nonneg)]
      exact .finite nonneg

theorem Unsigned.not_lt (hx : x.Unsigned) {s : Bool} {q : Rat} (h : (Exact.finite s q).value ≤ 0) :
    x.lt (Exact.finite s q) = false := by
  cases hx with
  | nan => rfl
  | infinite => rfl
  | finite nonneg =>
    rw [Exact.lt, decide_eq_false_iff_not]
    exact not_lt.2 (h.trans nonneg)

/-- What is no number and negative infinity are below every number. -/
inductive AtMost (v : Rat) : Exact → Prop where
  | nan : AtMost v nan
  | infinite : AtMost v (infinite true)
  | finite {s : Bool} {q : Rat} (nonneg : 0 ≤ q) (le : (finite s q).value ≤ v) : AtMost v (finite s q)

theorem atMost_ofRat {q : Rat} (le : q ≤ v) : (ofRat q).AtMost v := by
  obtain ⟨s, p, eq, nonneg⟩ := (within_ofRat q).exists_finite
  have within := within_ofRat q
  rw [eq] at within ⊢
  exact .finite nonneg (within.2.2.trans le)

/-- Taking away a number without a sign leaves no more than there was. -/
theorem Unsigned.sub_atMost (hy : y.Unsigned) (nonneg : 0 ≤ v) : (Exact.finite false v - y).AtMost v := by
  cases hy with
  | nan => exact .nan
  | infinite => exact .infinite
  | @finite q nonneg' =>
    rw [finite_sub]
    split
    · exact .finite le_rfl nonneg
    · exact atMost_ofRat (sub_le_self v nonneg')

/-- What is taken away leaves no sign if it is no more than there was. -/
theorem AtMost.sub_unsigned (hy : y.AtMost v) : (Exact.finite false v - y).Unsigned := by
  cases hy with
  | nan => exact .nan
  | infinite => exact .infinite
  | finite nonneg le =>
    rw [finite_sub]
    split
    · exact .finite le_rfl
    · rw [ofRat, if_neg (not_lt.2 (sub_nonneg.2 le))]
      exact .finite (sub_nonneg.2 le)

end Exact

namespace Double

variable {x : Exact} {v : Rat}

theorem unsigned_ofExact (h : x.Unsigned) : (ofExact x).exact.Unsigned := by
  cases h with
  | nan => exact .nan
  | infinite => exact .infinite
  | finite nonneg =>
    rw [exact_ofExact_finite false nonneg, Format.nearest_finite]
    split
    · exact .infinite
    · exact .finite (binary64.rounded_nonneg _)

theorem atMost_ofExact (h : x.AtMost v) (held : binary64.Holds v) : (ofExact x).exact.AtMost v := by
  cases h with
  | nan => exact .nan
  | infinite => exact .infinite
  | @finite s q nonneg le =>
    rw [exact_ofExact_finite s nonneg, Format.nearest_finite]
    cases s
    · have most := Format.rounded_mono (f := binary64) (by decide) nonneg le
      rw [held.rounded] at most
      rw [if_neg (not_le.2 (most.trans_lt held.lt))]
      exact .finite (binary64.rounded_nonneg _) most
    · split
      · exact .infinite
      · refine .finite (binary64.rounded_nonneg _) ?_
        have nonneg := held.nonneg
        have positive := binary64.rounded_nonneg q
        rw [Exact.value]
        linarith

theorem holds_shifted {n : Nat} {k : Int} (digits : n < 2 ^ 53) (low : -1074 ≤ k) (high : k ≤ 971) :
    binary64.Holds (n * 2 ^ k) := by
  have abs := Format.holds_abs (f := binary64) (i := n) (k := k) digits low (by simp only [binary64]; omega)
  rwa [Int.cast_natCast, abs_of_nonneg (mul_nonneg (Nat.cast_nonneg _) (two_zpow_pos _).le)] at abs

/-- Every finite double is one of the numbers of its format. -/
theorem holds_exact {d : Double} {s : Bool} {q : Rat} (h : d.exact = .finite s q) : binary64.Holds q := by
  have digits := Nat.mod_lt d.bits.toNat (show 0 < fractionCount by decide)
  have places := Nat.mod_lt (d.bits.toNat / fractionCount) (show 0 < 2048 by decide)
  have count : fractionCount = 2 ^ 52 := rfl
  simp only [exact, twoPow_eq_zpow] at h
  generalize d.bits.toNat / fractionCount % 2048 = e at *
  generalize d.bits.toNat % fractionCount = n at *
  split at h
  · split at h <;> cases h
  · split at h
    · cases h
      exact holds_shifted (by omega) le_rfl (by decide)
    · cases h
      exact holds_shifted (by omega) (by omega) (by omega)

theorem exact_zero : (0 : Double).exact = .finite false 0 := by decide +kernel

theorem unsigned_ofNat (n : Nat) : (ofNat n).exact.Unsigned := by
  have nonneg : (0 : Rat) ≤ n := Nat.cast_nonneg n
  refine unsigned_ofExact ?_
  rw [Exact.ofRat, if_neg (not_lt.2 nonneg)]
  exact .finite nonneg

end Double
end CycleChart.Binary
