import CycleChart.Proofs.Json.Tokens
import CycleChart.Report.Reader

namespace CycleChart.Json

open Reading

def extend (n : Nat) (digits : List Char) : Nat := digits.foldl (fun n c => n * 10 + (c.toNat - '0'.toNat)) n

theorem le_extend (n : Nat) (digits : List Char) : n ≤ extend n digits := by
  induction digits generalizing n with
  | nil => exact Nat.le_refl n
  | cons c digits ih =>
    have step := ih (n * 10 + (c.toNat - '0'.toNat))
    change n ≤ extend (n * 10 + (c.toNat - '0'.toNat)) digits
    omega

theorem absorb_of_le {n : Nat} {digits : List Char} (h : extend n digits ≤ maxCount) :
    absorb n digits = (extend n digits, 0) := by
  induction digits generalizing n with
  | nil => rfl
  | cons c digits ih =>
    have below := le_extend (n * 10 + digitValue c) digits
    have fits : n * 10 + digitValue c ≤ maxCount := Nat.le_trans below h
    rw [absorb]
    simp only [if_pos fits]
    exact ih h

theorem absorb_of_lt {n : Nat} {digits : List Char} (start : n ≤ maxCount) (h : maxCount < extend n digits) :
    (absorb n digits).2 ≠ 0 := by
  induction digits generalizing n with
  | nil => exact absurd h (Nat.not_lt.2 start)
  | cons c digits ih =>
    rw [absorb]
    split
    · rename_i fits
      exact ih fits h
    · exact Nat.succ_ne_zero _

/-- A token that is no integer without a sign. -/
def Uncounted (x : Except Halt (Number × List Char)) : Prop := ∀ n r, x ≠ .ok (.natural n, r)

theorem uncounted_decimalAt (positive : Bool) (significand : Nat) (exponent : Int) (rest : List Char) :
    Uncounted (decimalAt positive significand exponent rest) := by
  intro n r h
  unfold decimalAt at h
  split at h <;> simp [stopAt] at h

theorem uncounted_readExponent (positive : Bool) (significand : Nat) (start : Int) (s : List Char) :
    Uncounted (readExponent positive significand start s) := by
  intro n r h
  unfold readExponent at h
  simp only at h
  split at h
  · split at h <;> simp [stopAt] at h
  · split at h
    · exact uncounted_decimalAt _ _ _ _ n r h
    · split at h <;> simp [stopAt] at h

theorem uncounted_readFraction (positive : Bool) (significand extra : Nat) (s : List Char) :
    Uncounted (readFraction positive significand extra s) := by
  intro n r h
  unfold readFraction at h
  simp only at h
  split at h
  · split at h <;> simp [stopAt] at h
  · split at h
    · exact uncounted_readExponent _ _ _ _ n r h
    · exact uncounted_readExponent _ _ _ _ n r h
    · exact uncounted_decimalAt _ _ _ _ n r h

theorem countOf_of_uncounted {positive : Bool} {s : List Char} (h : Uncounted (readNumber positive s)) :
    (countOf positive s).toOption = none := by
  unfold countOf
  split
  · rfl
  · rename_i n r number
    exact absurd number (h n r)
  · rfl
  · rfl

theorem uncounted_integer (n : Nat) (rest : List Char) : Uncounted (.ok (integer false n, rest)) := by
  intro m r h
  simp only [integer, Bool.false_eq_true, if_false] at h
  split at h <;> simp at h

theorem uncounted_readNumber {n : Numeral} (positive : Bool) {rest : List Char} (stop : Stops rest)
    (longer : n.fraction ≠ [] ∨ n.exponent ≠ []) :
    Uncounted (readNumber positive (n.whole ++ (n.fraction ++ (n.exponent ++ rest)))) := by
  unfold readNumber
  simp only [n.takeDigits_whole stop]
  split
  · rename_i none
    exact absurd none n.isWhole.1.1
  · rename_i c more leading
    exact absurd leading (n.isWhole.not_leading c more)
  · rcases n.isFraction with no | ⟨digits, form, -⟩
    · rcases n.isExponent with none | ⟨letter, sign, digits, spelled, either, -⟩
      · exact absurd longer (by simp [no, none])
      · rw [no, spelled]
        rcases either with rfl | rfl <;> exact uncounted_readExponent _ _ _ _
    · rw [form]
      exact uncounted_readFraction _ _ _ _

theorem readNumber_whole {n : Numeral} (positive : Bool) {rest : List Char} (stop : Stops rest)
    (short : n.fraction = [] ∧ n.exponent = []) :
    readNumber positive (n.whole ++ rest) =
      if (absorb 0 n.whole).2 = 0 then .ok (integer positive (absorb 0 n.whole).1, rest)
      else decimalAt positive (absorb 0 n.whole).1 (absorb 0 n.whole).2 rest := by
  have taken := n.takeDigits_whole stop
  simp only [short.1, short.2, List.nil_append] at taken
  unfold readNumber
  simp only [taken]
  split
  · rename_i none
    exact absurd none n.isWhole.1.1
  · rename_i c more leading
    exact absurd leading (n.isWhole.not_leading c more)
  · split
    · exact absurd rfl (stop '.' rfl).2.1
    · exact absurd rfl (stop 'e' rfl).2.2.1
    · exact absurd rfl (stop 'E' rfl).2.2.2
    · rfl

/-- A numeral after its sign reads as what it counts, and it is refused if it counts nothing. -/
theorem countOf_numeral (n : Numeral) {rest : List Char} (stop : Stops rest) :
    (countOf (!n.negative) (n.whole ++ (n.fraction ++ (n.exponent ++ rest)))).toOption =
      n.count?.map (·, rest) := by
  by_cases short : n.fraction = [] ∧ n.exponent = []
  · have read := readNumber_whole (!n.negative) stop short
    simp only [short.1, short.2, List.nil_append]
    by_cases fits : Numeral.value n.whole ≤ maxCount
    · have all := absorb_of_le (n := 0) fits
      simp only [all, if_true] at read
      cases sign : n.negative with
      | true =>
        have none : n.count? = none := if_neg fun all => by simp [sign] at all
        rw [none]
        apply countOf_of_uncounted
        rw [sign] at read
        rw [read]
        exact uncounted_integer _ rest
      | false =>
        have small : Numeral.value n.whole < 0x10000000000000000 := Nat.lt_succ_of_le fits
        have some : n.count? = some (.ofNat (Numeral.value n.whole)) := if_pos ⟨sign, short.1, short.2, small⟩
        rw [sign] at read
        rw [some, countOf, read]
        rfl
    · have some := absorb_of_lt (Nat.zero_le _) (Nat.not_le.1 fits)
      rw [if_neg some] at read
      have none : n.count? = none := if_neg fun all => fits (Nat.le_of_lt_succ all.2.2.2)
      rw [none]
      apply countOf_of_uncounted
      rw [read]
      exact uncounted_decimalAt _ _ _ rest
  · have longer : n.fraction ≠ [] ∨ n.exponent ≠ [] := Decidable.not_and_iff_or_not.1 short
    have none : n.count? = none := if_neg fun all => short ⟨all.2.1, all.2.2.1⟩
    rw [countOf_of_uncounted (uncounted_readNumber _ stop longer), none]
    rfl

end CycleChart.Json
