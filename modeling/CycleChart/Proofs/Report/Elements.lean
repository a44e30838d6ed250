import CycleChart.Proofs.Report.Labels

namespace CycleChart

open Json Reading

namespace Json

/-- The items of a list from some place on, before its bracket. Before all but the first one stands a comma. -/
inductive Items : Bool → List Json → List Char → Prop where
  | none {first : Bool} {s : List Char} (space : IsSpaces s) : Items first [] s
  | some {first : Bool} {v : Json} {vs : List Json} {s t : List Char} (head : Forms (.spaced v) s)
      (tail : Items false vs t) : Items first (v :: vs) (comma first ++ (s ++ t))

theorem items_of_items {v : Json} {vs : List Json} {s : List Char} (h : Forms (.items (v :: vs)) s) (first : Bool) :
    Items first (v :: vs) (comma first ++ s) := by
  induction vs generalizing v s first with
  | nil =>
    cases h with
    | lastItem only =>
      have tail : Items false [] [] := .none nofun
      have items : Items first [v] (comma first ++ (s ++ [])) := .some only tail
      rwa [List.append_nil] at items
  | cons w vs ih =>
    cases h with
    | nextItem head tail => exact .some head (ih tail false)

theorem items_of_forms {vs : List Json} {s : List Char} (h : Forms (.items vs) s) : Items true vs s := by
  cases vs with
  | nil =>
    cases h with
    | noItem space => exact .none space
  | cons v vs => exact items_of_items h true

theorem stops_of_items {vs : List Json} {t : List Char} (h : Items false vs t) (rest : List Char) :
    Stops (t ++ ']' :: rest) := by
  cases h with
  | none space => exact stops_append space (stops_cons rest)
  | some head tail => exact stops_cons _

end Json

namespace Draft

/-- Notes values one after another, one for each member. -/
def noteAll (d : Draft) : List Member → List Json → Option Draft
  | [], [] => some d
  | m :: members, v :: vs => (d.note v m).bind fun next => next.noteAll members vs
  | _, _ => none

end Draft

namespace Json

theorem readMember_skipSpace (m : Member) (d : Draft) (s : List Char) :
    readMember m d (skipSpace s) = readMember m d s := by
  cases m with
  | counts => simp only [readMember, readOptional_skipSpace]
  | total t => simp only [readMember, readOptional_skipSpace]

theorem readListEnd_spaces {a : List Char} (h : IsSpaces a) (s : List Char) : readListEnd (a ++ s) = readListEnd s := by
  simp only [readListEnd, skipSpace_append h]

theorem readElements_spaces {a : List Char} (h : IsSpaces a) (seen : Nat) (members : List Member) (d : Draft)
    (s : List Char) : readElements seen members d (a ++ s) = readElements seen members d s := by
  cases members with
  | nil => rw [readElements, readElements, readListEnd_spaces h]
  | cons m members => simp only [readElements, skipSpace_append h]

theorem readElements_closing (seen : Nat) (m : Member) (members : List Member) (d : Draft) (s : List Char) :
    (readElements seen (m :: members) d (']' :: s)).toOption = none := by
  rw [readElements, skipSpace_of_not_isSpace (by decide)]
  rfl

/-- An element is read in front of its space or behind it. -/
theorem readElements_step {seen : Nat} {m : Member} {members : List Member} {d : Draft} {s t : List Char} {c : Char}
    (spaced : skipSpace s = c :: t) (begins : Begins c) :
    (readElements seen (m :: members) d (comma (seen = 0) ++ s)).toOption =
      (readMember m d s).toOption.bind fun (next, r) => (readElements (seen + 1) members next r).toOption := by
  have other : c ≠ ']' := begins.ne_closing .list
  rw [← readMember_skipSpace, spaced]
  by_cases first : seen = 0
  · simp only [readElements, comma, first, decide_true, if_true, List.nil_append, spaced, if_neg other]
    cases readMember m d (c :: t) <;> rfl
  · have separated : skipSpace (',' :: s) = ',' :: s := skipSpace_of_not_isSpace (by decide)
    simp only [readElements, comma, first, decide_false, Bool.false_eq_true, if_false, List.cons_append,
      List.nil_append, separated, if_true, spaced, if_neg other]
    rw [if_neg (by decide)]
    cases readMember m d (c :: t) <;> rfl

theorem readListEnd_comma {s t : List Char} {c : Char} (spaced : skipSpace s = c :: t) (begins : Begins c) :
    (readListEnd (',' :: s)).toOption = none := by
  have separated : skipSpace (',' :: s) = ',' :: s := skipSpace_of_not_isSpace (by decide)
  have other : c ≠ ']' := begins.ne_closing .list
  simp only [readListEnd, separated, spaced, if_neg (show ',' ≠ ']' by decide), if_true]
  split
  · rename_i eq
    cases eq
    exact absurd rfl other
  · rfl

/-- The elements of a report are noted one by one, one for each member. -/
theorem readElements_of_items {seen : Nat} {members : List Member} {vs : List Json} {s : List Char}
    (h : Items (seen = 0) vs s) (some : members ≠ [] ∨ seen ≠ 0) (d : Draft) (rest : List Char) :
    (readElements seen members d (s ++ ']' :: rest)).toOption = (d.noteAll members vs).map (·, rest) := by
  induction members generalizing seen vs s d with
  | nil =>
    have later : seen ≠ 0 := some.resolve_left fun no => no rfl
    rw [readElements, toOption_map]
    cases h with
    | none space =>
      rw [readListEnd_spaces space, readListEnd, skipSpace_of_not_isSpace (by decide)]
      rfl
    | @some _ v vs s t head tail =>
      obtain ⟨c, u, spaced, begins⟩ := first_of_spaced head (t ++ ']' :: rest)
      rw [comma, decide_eq_false later, if_neg (by decide), List.append_assoc, List.append_assoc, List.singleton_append,
        readListEnd_comma spaced begins]
      rfl
  | cons m members ih =>
    cases h with
    | none space =>
      rw [readElements_spaces space, readElements_closing]
      rfl
    | @some _ v vs s t head tail =>
      obtain ⟨c, u, spaced, begins⟩ := first_of_spaced head (t ++ ']' :: rest)
      obtain ⟨b, spaces, read⟩ := readMember_spaced head (stops_of_items tail rest) m d
      rw [List.append_assoc, List.append_assoc, readElements_step spaced begins, read, Draft.noteAll]
      cases d.note v m with
      | none => rfl
      | some next =>
        have later : Items (seen + 1 = 0) vs t := by
          rwa [decide_eq_false (Nat.succ_ne_zero seen)]
        simp only [Option.map_some, Option.bind_some, readElements_spaces spaces]
        exact ih later (.inr (Nat.succ_ne_zero seen)) next

/-- What is made of the text of a list. -/
theorem readDraft_list {vs : List Json} {s : List Char} (h : Forms (.spaced (.list vs)) s) :
    (readDraft s).toOption = Draft.empty.noteAll Member.all vs := by
  cases h with
  | @spaced _ a s b before inside after =>
    cases inside with
    | @list _ s inside =>
      have elements : (readElements 0 Member.all .empty (s ++ ']' :: b)).toOption =
          (Draft.empty.noteAll Member.all vs).map (·, b) :=
        @readElements_of_items 0 Member.all vs s (items_of_forms inside) (.inl (by decide)) .empty b
      have opened : skipSpace (a ++ ('[' :: (s ++ [']']) ++ b)) = '[' :: (s ++ ']' :: b) := by
        rw [skipSpace_append before, List.cons_append, skipSpace_of_not_isSpace (by decide), List.append_assoc]
        rfl
      have closed : skipSpace b = [] := by
        have all := skipSpace_append after []
        rwa [List.append_nil] at all
      simp only [readDraft, opened, if_neg (show '[' ≠ '\x7b' by decide), if_true]
      cases taken : Draft.empty.noteAll Member.all vs with
      | none =>
        obtain ⟨halt, broken⟩ := exists_error_of_toOption (elements.trans (by rw [taken]; rfl))
        simp [broken, Except.toOption]
      | some d =>
        have whole := eq_ok_of_toOption (elements.trans (by rw [taken]; rfl))
        simp [whole, closed, Except.toOption]

/-- Only objects and lists are looked into. -/
theorem readDraft_of_other {v : Json} {s : List Char} (h : Forms (.spaced v) s) (object : ∀ ms, v ≠ .object ms)
    (list : ∀ vs, v ≠ .list vs) : (readDraft s).toOption = none := by
  cases h with
  | @spaced _ a s b before inside after =>
    have first : ∃ c t, s = c :: t ∧ Begins c ∧ c ≠ '\x7b' ∧ c ≠ '[' := by
      cases inside with
      | list inside => exact absurd rfl (list _)
      | object inside => exact absurd rfl (object _)
      | number n =>
        obtain ⟨c, t, eq, rfl | digit⟩ := n.text_cons
        · exact ⟨'-', t, eq, .inl (by decide), by decide, by decide⟩
        · exact ⟨c, t, eq, .inr digit, ne_of_isDigit digit, ne_of_isDigit digit⟩
      | _ => exact ⟨_, _, rfl, .inl (by decide), by decide, by decide⟩
    obtain ⟨c, t, rfl, begins, noBrace, noBracket⟩ := first
    have spaced : skipSpace (a ++ (c :: t ++ b)) = c :: (t ++ b) := by
      rw [skipSpace_append before, List.cons_append]
      exact skipSpace_of_not_isSpace (not_isSpace_of_begins begins)
    simp only [readDraft, spaced, if_neg noBrace, if_neg noBracket]
    rfl

/-- A value that is taken for a member: it is of the kind that the member asks for, and no half of a pair stands alone
in a label. -/
structure Answers (m : Member) (v : Json) : Prop where
  suits : Suits m v
  labels : ∀ es, v = .object es → ∀ e ∈ es, (text? e.1).isSome

/-- What a list gives to a member by its place. -/
def placed (vs : List Json) (m : Member) : Option Json := (Member.all.zip vs).lookup m

/-- The first required member that has no place in a list, or whose place holds `null`. -/
def firstNull (vs : List Json) : Option Member := Member.required.find? fun m => (placed vs m).all isNull

theorem labels_of_entries? {es : List (List Piece × Json)} (h : (entries? es).isSome) :
    ∀ e ∈ es, (text? e.1).isSome := by
  obtain ⟨entries, said⟩ := Option.isSome_iff_exists.1 h
  intro e mem
  have text : text? e.1 ∈ entries.map fun e => some e.1 := labels_entries? said ▸ List.mem_map_of_mem mem
  obtain ⟨entry, -, eq⟩ := List.mem_map.1 text
  rw [← eq]
  rfl

end Json

namespace Draft

theorem note_isSome_iff (d : Draft) (v : Json) (m : Member) : (d.note v m).isSome ↔ Answers m v := by
  constructor
  · intro noted
    cases m with
    | total t =>
      constructor
      · cases v with
        | null => exact .inl rfl
        | _ => exact .inr (by simpa [note, orNull] using noted)
      · rintro es rfl
        simp [note, orNull, count?] at noted
    | counts =>
      cases v with
      | null =>
        refine ⟨.inl rfl, ?_⟩
        rintro _ ⟨⟩
      | object es =>
        have there : (entries? es).isSome := by simpa [note, orNull, counts?] using noted
        have labels := labels_of_entries? there
        constructor
        · exact .inr ⟨es, rfl, (entries?_isSome labels).1 there⟩
        · rintro _ ⟨⟩
          exact labels
      | _ => simp [note, orNull, counts?] at noted
  · intro answers
    cases m with
    | total t =>
      rcases answers.suits with rfl | counted
      · rfl
      · cases v <;> simp_all [note, orNull]
    | counts =>
      rcases answers.suits with rfl | ⟨es, rfl, counted⟩
      · rfl
      · have there := (entries?_isSome (answers.labels es rfl)).2 counted
        simpa [note, orNull, counts?] using there

theorem noteAll_isSome_iff (d : Draft) (members : List Member) (vs : List Json) :
    (d.noteAll members vs).isSome ↔ List.Forall₂ Answers members vs := by
  induction members generalizing d vs with
  | nil =>
    cases vs <;> simp [noteAll]
  | cons m members ih =>
    cases vs with
    | nil => simp [noteAll]
    | cons v vs =>
      rw [noteAll, List.forall₂_cons, ← d.note_isSome_iff]
      cases d.note v m with
      | none => simp
      | some next => simpa using ih next vs

/-- What a draft says about a member is what the value in its place says. -/
theorem noteAll_of_note {α : Type} {view : Draft → α} {said : Json → α} {m : Member}
    (noted : ∀ {d next v}, note d v m = some next → view next = said v)
    (kept : ∀ {d next v o}, note d v o = some next → o ≠ m → view next = view d) {members : List Member}
    (distinct : members.Nodup) {vs : List Json} {d last : Draft} (h : d.noteAll members vs = some last) :
    view last = match (members.zip vs).lookup m with
      | none => view d
      | some v => said v := by
  induction members generalizing vs d with
  | nil =>
    cases vs with
    | nil =>
      cases h
      rfl
    | cons v vs => cases h
  | cons o members ih =>
    cases vs with
    | nil => cases h
    | cons v vs =>
      obtain ⟨next, taken, h⟩ := Option.bind_eq_some_iff.1 h
      obtain ⟨once, distinct⟩ := List.nodup_cons.1 distinct
      have rest := ih distinct h
      rw [List.zip_cons_cons, List.lookup_cons]
      by_cases same : m = o
      · subst same
        have absent : (members.zip vs).lookup m = none := by
          apply List.lookup_eq_none_iff.2
          rintro ⟨p, w⟩ mem
          have other : p ≠ m := fun eq => once (eq ▸ (List.of_mem_zip mem).1)
          simpa using other.symm
        rw [absent] at rest
        rw [beq_self_eq_true]
        exact rest.trans (noted taken)
      · rw [beq_eq_false_iff_ne.2 same]
        rw [kept taken (Ne.symm same)] at rest
        exact rest

theorem nodup_all : Member.all.Nodup := by decide

theorem total?_of_noteAll {vs : List Json} {d : Draft} (h : Draft.empty.noteAll Member.all vs = some d) (t : Total) :
    d.total? t = (placed vs (.total t)).bind count? := by
  rw [noteAll_of_note total?_note total?_note_of_ne nodup_all h, placed]
  cases (Member.all.zip vs).lookup (.total t) <;> rfl

theorem counts_of_noteAll {vs : List Json} {d : Draft} (h : Draft.empty.noteAll Member.all vs = some d) :
    d.counts.join = (placed vs .counts).bind counts? := by
  have viewed : d.counts.join = _ := noteAll_of_note counts_note counts_note_of_ne nodup_all h
  rw [viewed, placed]
  cases (Member.all.zip vs).lookup .counts <;> rfl

theorem answers_of_placed {vs : List Json} (h : List.Forall₂ Answers Member.all vs) {m : Member} {v : Json}
    (there : placed vs m = some v) : Answers m v := by
  obtain ⟨_, _, split, -⟩ := List.lookup_eq_some_iff.1 there
  apply List.forall₂_zip h
  rw [split]
  exact List.mem_append_right _ List.mem_cons_self

theorem isNone_counts?_of_answers {v : Json} (h : Answers .counts v) : v.counts?.isNone = isNull v := by
  rcases h.suits with rfl | ⟨es, rfl, counted⟩
  · rfl
  · have there := (entries?_isSome (h.labels es rfl)).2 counted
    simpa [counts?, isNull] using there

/-- What the draft lacks is what the list has no value for. -/
theorem lacks_of_noteAll {vs : List Json} (fits : List.Forall₂ Answers Member.all vs) {d : Draft}
    (h : Draft.empty.noteAll Member.all vs = some d) (m : Member) : d.lacks m = (placed vs m).all isNull := by
  cases m with
  | total t =>
    rw [lacks, total?_of_noteAll h]
    cases there : placed vs (.total t) with
    | none => rfl
    | some v => exact isNone_count? (answers_of_placed fits there).suits
  | counts =>
    rw [lacks, counts_of_noteAll h]
    cases there : placed vs .counts with
    | none => rfl
    | some v => exact isNone_counts?_of_answers (answers_of_placed fits there)

end Draft

namespace Report

variable {text : String} {v : Json} {vs : List Json}

theorem parsing_iff_of_not_object (formed : IsTextOf text v) (other : ∀ ms, v ≠ .object ms) :
    (∃ reason position, parse text = .error (.parsing reason position)) ↔
      ∀ vs, v = .list vs → ¬List.Forall₂ Answers Member.all vs := by
  rw [parsing_iff]
  by_cases list : ∃ vs, v = .list vs
  · obtain ⟨vs, rfl⟩ := list
    rw [readDraft_list formed, ← Option.not_isSome_iff_eq_none, Draft.noteAll_isSome_iff]
    simp
  · have nowhere : ∀ vs, v ≠ .list vs := not_exists.1 list
    refine iff_of_true (readDraft_of_other formed other nowhere) ?_
    intro vs eq
    exact absurd eq (nowhere vs)

theorem parse_of_answers (formed : IsTextOf text (.list vs)) (fits : List.Forall₂ Answers Member.all vs) :
    ∃ d, Draft.empty.noteAll Member.all vs = some d ∧ parse text = d.finish.mapError .missing := by
  obtain ⟨d, noted⟩ := Option.isSome_iff_exists.1 ((Draft.noteAll_isSome_iff .empty Member.all vs).2 fits)
  exact ⟨d, noted, parse_of_read ((readDraft_list formed).trans noted)⟩

theorem find?_lacks (fits : List.Forall₂ Answers Member.all vs) {d : Draft}
    (noted : Draft.empty.noteAll Member.all vs = some d) : Member.required.find? d.lacks = firstNull vs := by
  rw [firstNull, funext (Draft.lacks_of_noteAll fits noted)]

/-- A text that is no object is refused, unless it is a list with one value for each member, in their order, that is
taken for it. Such a list is read as a report. -/
theorem parse_of_not_object (formed : IsTextOf text v) (other : ∀ ms, v ≠ .object ms) :
    ((∃ reason position, parse text = .error (.parsing reason position)) ↔
        ∀ vs, v = .list vs → ¬List.Forall₂ Answers Member.all vs) ∧
      ∀ vs, v = .list vs → List.Forall₂ Answers Member.all vs →
        (∀ m, firstNull vs = some m → parse text = .error (.missing m)) ∧
        (firstNull vs = none →
          ∃ r, parse text = .ok r ∧ (∀ t, r.total? t = (placed vs (.total t)).bind count?) ∧
            ∃ es entries, placed vs .counts = some (.object es) ∧ entries? es = some entries ∧
              r.counts = collect .empty entries) := by
  refine ⟨parsing_iff_of_not_object formed other, ?_⟩
  rintro vs rfl fits
  obtain ⟨d, noted, parsed⟩ := parse_of_answers formed fits
  rw [← find?_lacks fits noted]
  constructor
  · intro m lacking
    rw [parsed, Draft.finish_of_lacks lacking]
    rfl
  · intro complete
    obtain ⟨r, finished, counts, totals⟩ := Draft.finish_of_complete complete
    refine ⟨r, by rw [parsed, finished]; rfl, fun t => (totals t).trans (Draft.total?_of_noteAll noted t), ?_⟩
    rw [Draft.counts_of_noteAll noted] at counts
    obtain ⟨w, there, counted⟩ := Option.bind_eq_some_iff.1 counts
    cases w with
    | object es =>
      obtain ⟨entries, said, same⟩ := Option.map_eq_some_iff.1 counted
      exact ⟨es, entries, there, said, same.symm⟩
    | _ => cases counted

end Report

namespace Json

/-- The values of a report in the order of its members, without their names. -/
def nameless : List Json :=
  [.object [([.char 'a'], .number (digit 5))], .null, .null, .null, .null, .null,
    .number (digit 7), .number (digit 1), .number (digit 0)]

def namelessText : String := "[\x7b\"a\":5\x7d,null,null,null,null,null,7,1,0]"

theorem namelessText_list : IsTextOf namelessText (.list nameless) := by
  have counts := Forms.object (.lastMember (forms_member (spells_name "a") (.number (digit 5))))
  have numbers := Forms.nextItem (forms_spaced (.number (digit 7)))
    (.nextItem (forms_spaced (.number (digit 1))) (.lastItem (forms_spaced (.number (digit 0)))))
  have nulls := Forms.nextItem (forms_spaced .null) (.nextItem (forms_spaced .null)
    (.nextItem (forms_spaced .null) (.nextItem (forms_spaced .null) (.nextItem (forms_spaced .null) numbers))))
  have list := Forms.list (.nextItem (forms_spaced counts) nulls)
  exact (congrArg (Forms (.spaced (.list nameless))) (by decide +kernel)).mp (forms_spaced list)

theorem nameless_answers : List.Forall₂ Answers Member.all nameless := by
  have noted : (Draft.empty.noteAll Member.all nameless).isSome := by decide +kernel
  exact (Draft.noteAll_isSome_iff _ _ _).1 noted

/-- The values of a list are given to the members by their places. -/
theorem parse_namelessText :
    ∃ r, Report.parse namelessText = .ok r ∧ r.gas = 7 ∧ r.instructions = 1 ∧ r.syscalls = 0 ∧ r.blobs = none ∧
      r.counts.entries = [("a", 5)] := by
  obtain ⟨-, lists⟩ := Report.parse_of_not_object namelessText_list nofun
  obtain ⟨-, read⟩ := lists nameless rfl nameless_answers
  obtain ⟨r, parsed, totals, es, entries, object, said, counts⟩ := read rfl
  cases object
  cases said
  refine ⟨r, parsed, ?_, ?_, ?_, totals .blobs, ?_⟩
  · exact Option.some.inj (totals .gas)
  · exact Option.some.inj (totals .instructions)
  · exact Option.some.inj (totals .syscalls)
  · rw [counts]
    rfl

/-- Not only objects are read as reports. -/
theorem not_only_objects :
    ¬∀ (text : String) (v : Json), IsTextOf text v → (∀ ms, v ≠ .object ms) →
      ∃ reason position, Report.parse text = .error (.parsing reason position) := by
  intro all
  obtain ⟨reason, position, refused⟩ := all namelessText (.list nameless) namelessText_list nofun
  have accepted : (Report.parse namelessText).toOption.isSome := by decide +kernel
  rw [refused] at accepted
  cases accepted

end Json
end CycleChart
