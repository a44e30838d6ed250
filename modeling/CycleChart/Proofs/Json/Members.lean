import CycleChart.Proofs.Json.Strings
import CycleChart.Proofs.Json.Values

namespace CycleChart

open Reading

namespace Json

theorem readName_spaces {a : List Char} (h : IsSpaces a) (first : Bool) (s : List Char) :
    readName first (a ++ s) = readName first s := by
  simp only [readName, skipSpace_append h]

theorem readName_closing {a : List Char} (h : IsSpaces a) (first : Bool) (s : List Char) :
    readName first (a ++ '\x7d' :: s) = .ok (none, s) := by
  rw [readName_spaces h, readName, skipSpace_of_not_isSpace (by decide)]
  rfl

/-- What stands between a member and what was read before it. -/
def comma (first : Bool) : List Char := if first then [] else [',']

theorem readName_member {k : List Piece} {a name : List Char} (first : Bool) (h : IsSpaces a) (spelled : Spells k name)
    (t : List Char) :
    (readName first (comma first ++ (a ++ '"' :: (name ++ '"' :: t)))).toOption =
      (text? k).map fun text => (some text, t) := by
  have quoted : skipSpace (a ++ '"' :: (name ++ '"' :: t)) = '"' :: (name ++ '"' :: t) := by
    rw [skipSpace_append h, skipSpace_of_not_isSpace (by decide)]
  have read := readString_of_spells spelled [] t
  have separated : skipSpace (',' :: (a ++ '"' :: (name ++ '"' :: t))) = ',' :: (a ++ '"' :: (name ++ '"' :: t)) :=
    skipSpace_of_not_isSpace (by decide)
  cases chars : chars? k with
  | none =>
    obtain ⟨halt, broken⟩ := exists_error_of_toOption (read.trans (by rw [chars]; rfl))
    cases first <;> simp [comma, readName, quoted, separated, broken, text?, chars, Except.toOption]
  | some cs =>
    have whole := eq_ok_of_toOption (read.trans (by rw [chars]; rfl))
    cases first <;> simp [comma, readName, quoted, separated, whole, text?, chars, Except.toOption]

theorem readName_forms {k : List Piece} {v : Json} {s : List Char} (h : Forms (.member k v) s) (first : Bool)
    (rest : List Char) :
    ∃ r u, (readName first (comma first ++ (s ++ rest))).toOption = (text? k).map (fun text => (some text, r)) ∧
      readColon r = .ok (u ++ rest) ∧ Forms (.spaced v) u := by
  cases h with
  | @member _ _ a name b u before spelled after value =>
    refine ⟨b ++ ':' :: (u ++ rest), u, ?_, readColon_spaces after _, value⟩
    have read := readName_member first before spelled (b ++ ':' :: (u ++ rest))
    simpa only [List.append_assoc, List.cons_append] using read

/-- The members of an object from some place on, before its bracket. Before all but the first one stands a comma. -/
inductive Rest : Bool → List (List Piece × Json) → List Char → Prop where
  | none {first : Bool} {s : List Char} (space : IsSpaces s) : Rest first [] s
  | some {first : Bool} {k : List Piece} {v : Json} {ms : List (List Piece × Json)} {s t : List Char}
      (head : Forms (.member k v) s) (tail : Rest false ms t) : Rest first ((k, v) :: ms) (comma first ++ (s ++ t))

theorem rest_of_members {m : List Piece × Json} {ms : List (List Piece × Json)} {s : List Char}
    (h : Forms (.members (m :: ms)) s) (first : Bool) : Rest first (m :: ms) (comma first ++ s) := by
  induction ms generalizing m s first with
  | nil =>
    cases h with
    | lastMember only =>
      have tail : Rest false [] [] := .none nofun
      have rest : Rest first _ (comma first ++ (s ++ [])) := .some only tail
      rwa [List.append_nil] at rest
  | cons n ms ih =>
    cases h with
    | nextMember head tail => exact .some head (ih tail false)

theorem rest_of_forms {ms : List (List Piece × Json)} {s : List Char} (h : Forms (.members ms) s) : Rest true ms s := by
  cases ms with
  | nil =>
    cases h with
    | noMember space => exact .none space
  | cons m ms => exact rest_of_members h true

theorem stops_of_rest {ms : List (List Piece × Json)} {t : List Char} (h : Rest false ms t) (rest : List Char) :
    Stops (t ++ '\x7d' :: rest) := by
  cases h with
  | none space => exact stops_append space (stops_cons rest)
  | some head tail => exact stops_cons _

theorem readEntries_spaces {a : List Char} (h : IsSpaces a) (first : Bool) (counts : LabelCounts) (s : List Char) :
    readEntries first counts (a ++ s) = readEntries first counts s := by
  rw [readEntries, readEntries, readName_spaces h]

theorem readEntries_broken {first : Bool} {counts : LabelCounts} {s : List Char}
    (h : (readName first s).toOption = none) : (readEntries first counts s).toOption = none := by
  obtain ⟨halt, broken⟩ := exists_error_of_toOption h
  rw [readEntries]
  split <;> simp_all [Except.toOption]

theorem readEntries_step {first : Bool} {counts : LabelCounts} {label : String} {s r t : List Char}
    (named : readName first s = .ok (some label, r)) (colon : readColon r = .ok t) :
    (readEntries first counts s).toOption =
      (readCount t).toOption.bind fun (n, u) => (readEntries false (counts.insert label n) u).toOption := by
  conv => lhs; rw [readEntries]
  split
  · simp_all
  · simp_all
  · rename_i eq
    rw [named] at eq
    cases eq
    split
    · simp_all
    · rename_i eq
      rw [colon] at eq
      cases eq
      split <;> simp_all [Except.toOption]

theorem readEntries_of_rest {first : Bool} {ms : List (List Piece × Json)} {s : List Char} (h : Rest first ms s)
    (counts : LabelCounts) (rest : List Char) :
    (readEntries first counts (s ++ '\x7d' :: rest)).toOption =
      (entries? ms).map fun es => (collect counts es, rest) := by
  induction h generalizing counts with
  | none space =>
    rw [readEntries]
    split <;> simp_all [readName_closing space, entries?, collect, Except.toOption]
  | @some first k v ms s t head tail ih =>
    obtain ⟨r, u, named, colon, value⟩ := readName_forms head first (t ++ '\x7d' :: rest)
    obtain ⟨b, spaces, counted⟩ := readCount_spaced value (stops_of_rest tail rest)
    simp only [List.append_assoc]
    cases label : text? k with
    | none =>
      rw [label] at named
      rw [readEntries_broken named]
      simp [entries?, label]
    | some label' =>
      rw [label] at named
      rw [readEntries_step (eq_ok_of_toOption named) colon, counted]
      cases count : v.count? with
      | none => simp [entries?, count]
      | some n =>
        simp only [Option.map_some, Option.bind_some, readEntries_spaces spaces, ih, entries?, label, count]
        cases entries? ms <;> rfl

theorem readCounts_value {v : Json} {s rest : List Char} (h : Forms (.value v) s) :
    (readCounts (s ++ rest)).toOption = v.counts?.map (·, rest) := by
  cases h with
  | @object ms s inside =>
    have opened : readCounts ('\x7b' :: (s ++ ['\x7d']) ++ rest) = readEntries true .empty (s ++ '\x7d' :: rest) := by
      rw [readCounts, List.cons_append, skipSpace_of_not_isSpace (by decide), List.append_assoc]
      rfl
    rw [opened, counts?, Option.map_map]
    exact readEntries_of_rest (rest_of_forms inside) .empty rest
  | number n =>
    obtain ⟨c, t, eq, first⟩ := n.text_cons
    have space : ¬isSpace c := by
      rcases first with rfl | digit
      · decide
      · exact not_isSpace_of_begins (.inr digit)
    have other : c ≠ '\x7b' := by
      rcases first with rfl | digit
      · decide
      · exact ne_of_isDigit digit
    rw [eq, readCounts, List.cons_append, skipSpace_of_not_isSpace space]
    simp only [if_neg other]
    rfl
  | _ => rfl

end Json

namespace Draft

/-- Notes the value of a member, if it is of the kind that the member asks for. -/
def note (d : Draft) (v : Json) : Member → Option Draft
  | .counts => (v.orNull Json.counts?).map fun counts => ⟨some counts, d.totals⟩
  | .total t => (v.orNull Json.count?).map fun n => ⟨d.counts, (t, n) :: d.totals⟩

/-- Takes one more member of an object. -/
def take (d : Draft) (member : List Json.Piece × Json) : Option Draft :=
  (Json.text? member.1).bind fun name =>
    match Member.named? name with
    | none => some d
    | some m => if d.has m then none else d.note member.2 m

end Draft

namespace Json

theorem readMember_spaced {v : Json} {s rest : List Char} (h : Forms (.spaced v) s) (stop : Stops rest) (m : Member)
    (d : Draft) : ∃ b, IsSpaces b ∧ (readMember m d (s ++ rest)).toOption = (d.note v m).map (·, b ++ rest) := by
  cases m with
  | counts =>
    obtain ⟨b, spaces, read⟩ := readOptional_spaced (fun h _ => readCounts_value h) h stop
    refine ⟨b, spaces, ?_⟩
    cases found : v.orNull counts? with
    | none =>
      obtain ⟨halt, broken⟩ := exists_error_of_toOption (read.trans (by rw [found]; rfl))
      simp [readMember, broken, Draft.note, found, Except.toOption]
    | some counts =>
      have whole := eq_ok_of_toOption (read.trans (by rw [found]; rfl))
      simp [readMember, whole, Draft.note, found, Except.toOption]
  | total t =>
    obtain ⟨b, spaces, read⟩ := readOptional_spaced readCount_value h stop
    refine ⟨b, spaces, ?_⟩
    cases found : v.orNull count? with
    | none =>
      obtain ⟨halt, broken⟩ := exists_error_of_toOption (read.trans (by rw [found]; rfl))
      simp [readMember, broken, Draft.note, found, Except.toOption]
    | some n =>
      have whole := eq_ok_of_toOption (read.trans (by rw [found]; rfl))
      simp [readMember, whole, Draft.note, found, Except.toOption]

theorem readMembers_spaces {a : List Char} (h : IsSpaces a) (first : Bool) (d : Draft) (s : List Char) :
    readMembers first d (a ++ s) = readMembers first d s := by
  rw [readMembers, readMembers, readName_spaces h]

theorem readMembers_broken {first : Bool} {d : Draft} {s : List Char}
    (h : (readName first s).toOption = none) : (readMembers first d s).toOption = none := by
  obtain ⟨halt, broken⟩ := exists_error_of_toOption h
  rw [readMembers]
  split <;> simp_all [Except.toOption]

theorem readMembers_unknown {first : Bool} {d : Draft} {name : String} {s r t u : List Char}
    (named : readName first s = .ok (some name, r)) (colon : readColon r = .ok t) (unknown : Member.named? name = none)
    (skipped : skipValue t = .ok u) : readMembers first d s = readMembers false d u := by
  conv => lhs; rw [readMembers]
  split
  · simp_all
  · simp_all
  · rename_i eq
    rw [named] at eq
    cases eq
    split
    · split
      · simp_all
      · rename_i eq
        rw [colon] at eq
        cases eq
        split <;> simp_all
    · simp_all

theorem readMembers_repeated {first : Bool} {d : Draft} {name : String} {m : Member} {s r : List Char}
    (named : readName first s = .ok (some name, r)) (known : Member.named? name = some m) (has : d.has m) :
    (readMembers first d s).toOption = none := by
  rw [readMembers]
  split
  · simp_all
  · simp_all
  · rename_i eq
    rw [named] at eq
    cases eq
    split <;> simp_all [Except.toOption]

theorem readMembers_known {first : Bool} {d : Draft} {name : String} {m : Member} {s r t : List Char}
    (named : readName first s = .ok (some name, r)) (colon : readColon r = .ok t)
    (known : Member.named? name = some m) (new : d.has m = false) :
    (readMembers first d s).toOption =
      (readMember m d t).toOption.bind fun (next, u) => (readMembers false next u).toOption := by
  conv => lhs; rw [readMembers]
  split
  · simp_all
  · simp_all
  · rename_i eq
    rw [named] at eq
    cases eq
    split
    · simp_all
    · rename_i eq
      rw [known] at eq
      cases eq
      rw [new]
      simp only [Bool.false_eq_true, if_false]
      split
      · simp_all
      · rename_i eq
        rw [colon] at eq
        cases eq
        split <;> simp_all [Except.toOption]

/-- The members of a report are taken one by one. -/
theorem readMembers_of_rest {first : Bool} {ms : List (List Piece × Json)} {s : List Char} (h : Rest first ms s)
    (d : Draft) (rest : List Char) :
    (readMembers first d (s ++ '\x7d' :: rest)).toOption = (ms.foldlM Draft.take d).map (·, rest) := by
  induction h generalizing d with
  | none space =>
    rw [readMembers]
    split <;> simp_all [readName_closing space, Except.toOption]
  | @some first k v ms s t head tail ih =>
    obtain ⟨r, u, named, colon, value⟩ := readName_forms head first (t ++ '\x7d' :: rest)
    have stop := stops_of_rest tail rest
    simp only [List.append_assoc, List.foldlM_cons, Draft.take]
    cases text : text? k with
    | none =>
      rw [text] at named
      rw [readMembers_broken named]
      rfl
    | some name =>
      rw [text] at named
      have named := eq_ok_of_toOption named
      simp only [Option.bind_some]
      cases known : Member.named? name with
      | none =>
        obtain ⟨b, spaces, skipped⟩ := skipValue_spaced value stop
        rw [readMembers_unknown named colon known skipped, readMembers_spaces spaces, ih]
        rfl
      | some m =>
        simp only
        cases has : d.has m with
        | true =>
          rw [readMembers_repeated named known has]
          rfl
        | false =>
          obtain ⟨b, spaces, read⟩ := readMember_spaced value stop m d
          rw [readMembers_known named colon known has, read]
          cases noted : d.note v m with
          | none => rfl
          | some next =>
            simp only [Option.map_some, Option.bind_some, readMembers_spaces spaces, ih]
            rfl

/-- What is made of the text of an object. -/
theorem readDraft_object {ms : List (List Piece × Json)} {s : List Char} (h : Forms (.spaced (.object ms)) s) :
    (readDraft s).toOption = ms.foldlM Draft.take .empty := by
  cases h with
  | @spaced _ a s b before inside after =>
    cases inside with
    | @object _ s inside =>
      have members : (readMembers true .empty (s ++ '\x7d' :: b)).toOption =
          (ms.foldlM Draft.take .empty).map (·, b) := readMembers_of_rest (rest_of_forms inside) .empty b
      have opened : skipSpace (a ++ ('\x7b' :: (s ++ ['\x7d']) ++ b)) = '\x7b' :: (s ++ '\x7d' :: b) := by
        rw [skipSpace_append before, List.cons_append, skipSpace_of_not_isSpace (by decide), List.append_assoc]
        rfl
      have closed : skipSpace b = [] := by
        have all := skipSpace_append after []
        rwa [List.append_nil] at all
      simp only [readDraft, opened, if_true]
      cases taken : ms.foldlM Draft.take .empty with
      | none =>
        obtain ⟨halt, broken⟩ := exists_error_of_toOption (members.trans (by rw [taken]; rfl))
        simp [broken, Except.toOption]
      | some d =>
        have whole := eq_ok_of_toOption (members.trans (by rw [taken]; rfl))
        simp [whole, closed, Except.toOption]

end Json
end CycleChart
