import CycleChart.Proofs.Json.Members

namespace CycleChart.Json

/-- The values that an object gives to a member, in the order in which they are written. -/
def given (ms : List (List Piece × Json)) (m : Member) : List Json :=
  (ms.filter fun e => text? e.1 = some m.name).map (·.2)

def isNull : Json → Bool
  | .null => true
  | _ => false

/-- Whether a value is of the kind that a member asks for. -/
def Suits : Member → Json → Prop
  | .total _, v => v = .null ∨ v.count?.isSome
  | .counts, v => v = .null ∨ ∃ es, v = .object es ∧ ∀ e ∈ es, e.2.count?.isSome

/-- A member is given twice, or a value is not of the kind that its member asks for. -/
def Refused (ms : List (List Piece × Json)) : Prop :=
  ∃ m, 2 ≤ (given ms m).length ∨ ∃ v ∈ given ms m, ¬Suits m v

/-- The first required member that is absent or `null`. -/
def firstLacking (ms : List (List Piece × Json)) : Option Member :=
  Member.required.find? fun m => (given ms m).all isNull

/-- No half of a pair stands alone in a name or a label, and no label is repeated. -/
structure Legible (ms : List (List Piece × Json)) : Prop where
  names : ∀ e ∈ ms, (text? e.1).isSome
  labels : ∀ es, .object es ∈ given ms .counts → (∀ e ∈ es, (text? e.1).isSome) ∧ (es.map fun e => text? e.1).Nodup

theorem named?_eq_some_iff {s : String} {m : Member} : Member.named? s = some m ↔ s = m.name := by
  constructor
  · intro h
    simpa [eq_comm] using List.find?_some h
  · rintro rfl
    cases m with
    | counts => decide
    | total t => cases t <;> decide

theorem given_cons (k : List Piece) (v : Json) (ms : List (List Piece × Json)) (m : Member) :
    given ((k, v) :: ms) m = if text? k = some m.name then v :: given ms m else given ms m := by
  by_cases h : text? k = some m.name <;> simp [given, h]

theorem given_cons_known {k : List Piece} {name : String} {m : Member} (text : text? k = some name)
    (known : Member.named? name = some m) (v : Json) (ms : List (List Piece × Json)) (o : Member) :
    given ((k, v) :: ms) o = if o = m then v :: given ms o else given ms o := by
  have same : text? k = some o.name ↔ o = m := by
    rw [text, Option.some.injEq, ← named?_eq_some_iff, known, Option.some.injEq, eq_comm]
  rw [given_cons]
  simp only [same]

theorem given_cons_unknown {k : List Piece} {name : String} (text : text? k = some name)
    (unknown : Member.named? name = none) (v : Json) (ms : List (List Piece × Json)) (o : Member) :
    given ((k, v) :: ms) o = given ms o := by
  have other : text? k ≠ some o.name := by
    rw [text, ne_eq, Option.some.injEq, ← named?_eq_some_iff, unknown]
    nofun
  rw [given_cons, if_neg other]

theorem Legible.tail {k : List Piece} {v : Json} {ms : List (List Piece × Json)} (h : Legible ((k, v) :: ms)) :
    Legible ms where
  names := fun e mem => h.names e (List.mem_cons_of_mem _ mem)
  labels := fun es mem => h.labels es (by
    rw [given_cons]
    split
    · exact List.mem_cons_of_mem _ mem
    · exact mem)

theorem given_of_not_refused {ms : List (List Piece × Json)} (h : ¬Refused ms) (m : Member) :
    given ms m = [] ∨ ∃ v, given ms m = [v] ∧ Suits m v := by
  have once : ¬2 ≤ (given ms m).length := fun twice => h ⟨m, .inl twice⟩
  have suits : ∀ v ∈ given ms m, Suits m v := by
    intro v mem
    exact Classical.byContradiction fun unfit => h ⟨m, .inr ⟨v, mem, unfit⟩⟩
  match given ms m, once, suits with
  | [], _, _ => exact .inl rfl
  | [v], _, suits => exact .inr ⟨v, rfl, suits v (by simp)⟩
  | _ :: _ :: _, once, _ => simp at once

/-! Entries of an object of counts. -/

theorem entries?_isSome {es : List (List Piece × Json)} (labels : ∀ e ∈ es, (text? e.1).isSome) :
    (entries? es).isSome ↔ ∀ e ∈ es, e.2.count?.isSome := by
  induction es with
  | nil => simp [entries?]
  | cons e es ih =>
    obtain ⟨k, v⟩ := e
    have rest := ih fun e mem => labels e (List.mem_cons_of_mem _ mem)
    obtain ⟨label, text⟩ := Option.isSome_iff_exists.1 (labels (k, v) (by simp))
    simp only [entries?, text, List.forall_mem_cons, ← rest]
    cases v.count? <;> cases entries? es <;> simp

theorem labels_entries? {es : List (List Piece × Json)} {entries : List (String × UInt64)}
    (h : entries? es = some entries) : es.map (fun e => text? e.1) = entries.map fun e => some e.1 := by
  induction es generalizing entries with
  | nil =>
    cases h
    rfl
  | cons e es ih =>
    obtain ⟨k, v⟩ := e
    cases text : text? k with
    | none => simp [entries?, text] at h
    | some label =>
      cases count : v.count? with
      | none => simp [entries?, text, count] at h
      | some n =>
        cases rest : entries? es with
        | none => simp [entries?, text, count, rest] at h
        | some others =>
          obtain rfl : (label, n) :: others = entries := by simpa [entries?, text, count, rest] using h
          simp [text, ih rest]

end CycleChart.Json
