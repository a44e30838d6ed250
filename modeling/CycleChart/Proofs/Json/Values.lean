import CycleChart.Proofs.Json.Counting
import CycleChart.Proofs.Json.Skipping

namespace CycleChart

open Reading

namespace Json

/-- What a value counts, if it counts anything. -/
def count? : Json → Option UInt64
  | .number n => n.count?
  | _ => none

/-- The labels and counts of some members. -/
def entries? : List (List Piece × Json) → Option (List (String × UInt64))
  | [] => some []
  | (k, v) :: ms => do
    let label ← text? k
    let n ← v.count?
    let es ← entries? ms
    return (label, n) :: es

/-- Adds entries to counts. A later one takes the place of one with the same label. -/
def collect (counts : LabelCounts) (es : List (String × UInt64)) : LabelCounts :=
  es.foldl (fun counts e => counts.insert e.1 e.2) counts

def counts? : Json → Option LabelCounts
  | .object ms => (entries? ms).map (collect .empty)
  | _ => none

/-- What is said by a value that may be `null`. -/
def orNull {α : Type} (f : Json → Option α) : Json → Option (Option α)
  | .null => some none
  | v => (f v).map some

theorem readCount_value {v : Json} {s rest : List Char} (h : Forms (.value v) s) (stop : Stops rest) :
    (readCount (s ++ rest)).toOption = v.count?.map (·, rest) := by
  cases h with
  | number n =>
    have read := countOf_numeral n stop
    cases sign : n.negative with
    | true =>
      rw [sign] at read
      simp only [Numeral.text, sign, if_true, List.append_assoc, List.cons_append, List.nil_append]
      exact read
    | false =>
      obtain ⟨d, ds, whole, digit⟩ := n.whole_cons
      have space : ¬isSpace d := not_isSpace_of_begins (.inr digit)
      have minus : d ≠ '-' := ne_of_isDigit digit
      rw [sign] at read
      simp only [Numeral.text, sign, Bool.false_eq_true, if_false, List.append_assoc, List.nil_append]
      rw [whole] at read ⊢
      rw [readCount, List.cons_append, skipSpace_of_not_isSpace space]
      simp only [minus, digit, if_true, if_false]
      exact read
  | _ => rfl

theorem readCount_spaced {v : Json} {s rest : List Char} (h : Forms (.spaced v) s) (stop : Stops rest) :
    ∃ b, IsSpaces b ∧ (readCount (s ++ rest)).toOption = v.count?.map (·, b ++ rest) := by
  cases h with
  | @spaced _ a s b before inside after =>
    refine ⟨b, after, ?_⟩
    have skipped : readCount (a ++ (s ++ b) ++ rest) = readCount (s ++ (b ++ rest)) := by
      rw [readCount, readCount, List.append_assoc, skipSpace_append before, List.append_assoc]
    rw [skipped]
    exact readCount_value inside (stops_append after stop)

theorem orNull_of_ne_null {α : Type} {v : Json} (h : v ≠ .null) (f : Json → Option α) :
    v.orNull f = (f v).map some := by
  cases v <;> first | rfl | exact absurd rfl h

/-- Only `null` begins with its letter. -/
theorem null_or_first {v : Json} {s : List Char} (h : Forms (.value v) s) :
    v = .null ∧ s = ['n', 'u', 'l', 'l'] ∨ v ≠ .null ∧ ∃ c t, s = c :: t ∧ Begins c ∧ c ≠ 'n' := by
  cases h with
  | null => exact .inl ⟨rfl, rfl⟩
  | number n =>
    obtain ⟨c, t, eq, rfl | digit⟩ := n.text_cons
    · exact .inr ⟨nofun, '-', t, eq, .inl (by decide), by decide⟩
    · exact .inr ⟨nofun, c, t, eq, .inr digit, ne_of_isDigit digit⟩
  | _ => exact .inr ⟨nofun, _, _, rfl, .inl (by decide), by decide⟩

theorem readOptional_skipSpace {α : Type} (read : List Char → Except Halt (α × List Char)) (s : List Char) :
    readOptional read (skipSpace s) = readOptional read s := by
  rw [readOptional, readOptional, skipSpace_idem]

theorem readOptional_value {α : Type} {read : List Char → Except Halt (α × List Char)} {f : Json → Option α}
    {v : Json} {s rest : List Char} (h : Forms (.value v) s)
    (reads : (read (s ++ rest)).toOption = (f v).map (·, rest)) :
    (readOptional read (s ++ rest)).toOption = (v.orNull f).map (·, rest) := by
  rcases null_or_first h with ⟨rfl, rfl⟩ | ⟨other, c, t, rfl, begins, letter⟩
  · have space : skipSpace (['n', 'u', 'l', 'l'] ++ rest) = 'n' :: 'u' :: 'l' :: 'l' :: rest :=
      skipSpace_of_not_isSpace (by decide)
    simp only [readOptional, space]
    rfl
  · have space : skipSpace (c :: t ++ rest) = c :: t ++ rest :=
      skipSpace_of_not_isSpace (not_isSpace_of_begins begins)
    have plain : readOptional read (c :: t ++ rest) = (read (c :: t ++ rest)).map fun p => (some p.1, p.2) := by
      rw [readOptional, space]
      split
      · simp_all
      · rfl
    rw [plain, toOption_map, reads, orNull_of_ne_null other, Option.map_map, Option.map_map]
    rfl

theorem readOptional_spaced {α : Type} {read : List Char → Except Halt (α × List Char)} {f : Json → Option α}
    (reads : ∀ {v s rest}, Forms (.value v) s → Stops rest → (read (s ++ rest)).toOption = (f v).map (·, rest))
    {v : Json} {s rest : List Char} (h : Forms (.spaced v) s) (stop : Stops rest) :
    ∃ b, IsSpaces b ∧ (readOptional read (s ++ rest)).toOption = (v.orNull f).map (·, b ++ rest) := by
  cases h with
  | @spaced _ a s b before inside after =>
    refine ⟨b, after, ?_⟩
    rw [← readOptional_skipSpace, List.append_assoc, skipSpace_append before, readOptional_skipSpace, List.append_assoc]
    exact readOptional_value inside (reads inside (stops_append after stop))

end Json
end CycleChart
