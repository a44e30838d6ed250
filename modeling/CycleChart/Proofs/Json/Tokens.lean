import CycleChart.Proofs.Json.Grammar
import CycleChart.Proofs.Results
import CycleChart.Report.Skip

namespace CycleChart.Json

open Reading

theorem isSpace_iff (c : Char) : isSpace c ↔ c ∈ [' ', '\t', '\n', '\r'] := by
  simp [isSpace, or_assoc]

theorem skipSpace_append {a : List Char} (h : IsSpaces a) (s : List Char) : skipSpace (a ++ s) = skipSpace s := by
  have all : ∀ c ∈ a, isSpace c := fun c mem => (isSpace_iff c).2 (h c mem)
  exact List.dropWhile_append_of_pos all

theorem skipSpace_of_not_isSpace {c : Char} {s : List Char} (h : ¬isSpace c) : skipSpace (c :: s) = c :: s :=
  List.dropWhile_cons_of_neg h

theorem skipSpace_idem (s : List Char) : skipSpace (skipSpace s) = skipSpace s := by
  cases spaced : skipSpace s with
  | nil => rfl
  | cons c t =>
    have found : (s.dropWhile isSpace).head? = some c := by
      rw [← skipSpace, spaced]
      rfl
    have first : ¬isSpace c := by
      have h := List.head?_dropWhile_not isSpace s
      rw [found] at h
      simpa using h
    exact skipSpace_of_not_isSpace first

theorem hexDigit?_of_isHex {c : Char} {n : Nat} (h : IsHex c n) : hexDigit? c = some n := by
  have table : ∀ n < 16, hexDigit? (Nat.digitChar n) = some n ∧ hexDigit? (Nat.digitChar n).toUpper = some n := by
    decide
  obtain ⟨small, rfl | rfl⟩ := h
  · exact (table n small).1
  · exact (table n small).2

theorem fourHex?_of_isHex {a b c d : Char} {i j k l : Nat} (h : IsHex a i ∧ IsHex b j ∧ IsHex c k ∧ IsHex d l) :
    fourHex? a b c d = some (((i * 16 + j) * 16 + k) * 16 + l) := by
  obtain ⟨ha, hb, hc, hd⟩ := h
  simp [fourHex?, hexDigit?_of_isHex ha, hexDigit?_of_isHex hb, hexDigit?_of_isHex hc, hexDigit?_of_isHex hd]

theorem plainEscape?_of_mem {e c : Char} (h : (e, c) ∈ escapes) : plainEscape? e = some c ∧ e ≠ 'u' := by
  have table : ∀ p ∈ escapes, plainEscape? p.1 = some p.2 ∧ p.1 ≠ 'u' := by decide
  exact table (e, c) h

theorem takeDigits_append {digits rest : List Char} (h : ∀ c ∈ digits, c.isDigit)
    (stop : ∀ c ∈ rest.head?, ¬c.isDigit) : takeDigits (digits ++ rest) = (digits, rest) := by
  have none : rest.takeWhile Char.isDigit = [] ∧ rest.dropWhile Char.isDigit = rest := by
    cases rest with
    | nil => exact ⟨rfl, rfl⟩
    | cons c t =>
      have first : ¬c.isDigit := stop c rfl
      exact ⟨List.takeWhile_cons_of_neg first, List.dropWhile_cons_of_neg first⟩
  rw [takeDigits, List.takeWhile_append_of_pos h, List.dropWhile_append_of_pos h, none.1, none.2, List.append_nil]

/-- Nothing that could go on with a number follows. -/
def Stops (rest : List Char) : Prop := ∀ c ∈ rest.head?, ¬c.isDigit ∧ c ≠ '.' ∧ c ≠ 'e' ∧ c ≠ 'E'

theorem stops_cons {c : Char} (s : List Char) (h : ¬c.isDigit ∧ c ≠ '.' ∧ c ≠ 'e' ∧ c ≠ 'E' := by decide) :
    Stops (c :: s) := by
  rintro d ⟨⟩
  exact h

theorem stops_append {a rest : List Char} (h : IsSpaces a) (stop : Stops rest) : Stops (a ++ rest) := by
  cases a with
  | nil => exact stop
  | cons c a =>
    have table : [' ', '\t', '\n', '\r'].all fun c => ¬c.isDigit ∧ c ≠ '.' ∧ c ≠ 'e' ∧ c ≠ 'E' := by decide
    have space := List.all_eq_true.1 table c (h c (by simp))
    exact stops_cons _ (of_decide_eq_true space)

theorem Numeral.exponent_head (n : Numeral) {rest : List Char} (stop : Stops rest) :
    ∀ c ∈ (n.exponent ++ rest).head?, ¬c.isDigit ∧ c ≠ '.' := by
  intro c found
  rcases n.isExponent with no | ⟨letter, sign, digits, eq, either, -⟩
  · rw [no] at found
    exact ⟨(stop c found).1, (stop c found).2.1⟩
  · rw [eq] at found
    obtain rfl : letter = c := by simpa using found
    rcases either with rfl | rfl <;> decide

theorem Numeral.fraction_head (n : Numeral) {rest : List Char} (stop : Stops rest) :
    ∀ c ∈ (n.fraction ++ (n.exponent ++ rest)).head?, ¬c.isDigit := by
  intro c found
  rcases n.isFraction with no | ⟨digits, eq, -⟩
  · rw [no] at found
    exact (n.exponent_head stop c found).1
  · rw [eq] at found
    obtain rfl : '.' = c := by simpa using found
    decide

theorem Numeral.takeDigits_whole (n : Numeral) {rest : List Char} (stop : Stops rest) :
    takeDigits (n.whole ++ (n.fraction ++ (n.exponent ++ rest))) = (n.whole, n.fraction ++ (n.exponent ++ rest)) :=
  takeDigits_append n.isWhole.1.2 (n.fraction_head stop)

theorem Numeral.whole_cons (n : Numeral) : ∃ d ds, n.whole = d :: ds ∧ d.isDigit := by
  obtain ⟨some, all⟩ := n.isWhole.1
  cases whole : n.whole with
  | nil => exact absurd whole some
  | cons d ds => exact ⟨d, ds, rfl, all d (by simp [whole])⟩

theorem ne_of_isDigit {d c : Char} (h : d.isDigit) (other : ¬c.isDigit := by decide) : d ≠ c := by
  rintro rfl
  exact other h

/-- Digits of a whole part have no zero in front of others. -/
theorem IsWhole.not_leading {s : List Char} (h : IsWhole s) (c : Char) (more : List Char) : s ≠ '0' :: c :: more := by
  rintro rfl
  simpa using h.2 rfl

end CycleChart.Json
