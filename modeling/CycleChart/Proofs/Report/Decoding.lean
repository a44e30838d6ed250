import CycleChart.Proofs.Report.Given
import CycleChart.Report.Parse

namespace CycleChart

open Json Reading

theorem perm_insertEntry {κ ν : Type} [DecidableEq κ] [LT κ] [DecidableLT κ] {key : κ} (value : ν)
    {entries : List (κ × ν)} (new : key ∉ entries.map (·.1)) :
    (insertEntry key value entries).Perm ((key, value) :: entries) := by
  induction entries with
  | nil => exact .refl _
  | cons head entries ih =>
    obtain ⟨other, old⟩ := head
    simp only [List.map_cons, List.mem_cons, not_or] at new
    rw [insertEntry, if_neg new.1]
    split
    · exact .refl _
    · exact ((ih new.2).cons _).trans (.swap _ _ _)

/-- Entries that repeat no label are collected as they are. -/
theorem perm_collect {counts : LabelCounts} {es : List (String × UInt64)}
    (distinct : (counts.entries.map (·.1) ++ es.map (·.1)).Nodup) :
    (collect counts es).entries.Perm (counts.entries ++ es) := by
  induction es generalizing counts with
  | nil => simp [collect]
  | cons e es ih =>
    obtain ⟨label, n⟩ := e
    have new : label ∉ counts.entries.map (·.1) := by
      intro mem
      have apart := (List.nodup_append.1 distinct).2.2 label mem label (by simp)
      exact apart rfl
    have inserted : (counts.insert label n).entries.Perm ((label, n) :: counts.entries) := perm_insertEntry n new
    have keys : ((counts.insert label n).entries.map (·.1) ++ es.map (·.1)).Nodup := by
      refine (List.Perm.nodup_iff ?_).1 distinct
      have shifted := ((inserted.map (·.1)).append_right (es.map (·.1))).symm
      exact List.perm_middle.trans shifted
    exact (ih keys).trans ((inserted.append_right es).trans List.perm_middle.symm)

namespace Draft

theorem said_of_orNull {α : Type} {f : Json → Option α} (null : f .null = none) {v : Json} {a : Option α}
    (h : v.orNull f = some a) : a = f v := by
  by_cases same : v = .null
  · subst same
    cases h
    exact null.symm
  · rw [orNull_of_ne_null same] at h
    obtain ⟨b, said, rfl⟩ := Option.map_eq_some_iff.1 h
    exact said.symm

theorem note_eq_none_iff {ms : List (List Piece × Json)} (legible : Legible ms) {m : Member} {v : Json}
    (mem : v ∈ given ms m) (d : Draft) : d.note v m = none ↔ ¬Suits m v := by
  cases m with
  | total t =>
    cases v <;> simp [note, orNull, Suits]
  | counts =>
    cases v with
    | object es =>
      have labels := (legible.labels es mem).1
      have broken : entries? es = none ↔ ¬∀ e ∈ es, e.2.count?.isSome := by
        rw [← entries?_isSome labels]
        simp
      simp [note, orNull, Suits, counts?, broken]
    | _ => simp [note, orNull, Suits, counts?]

theorem has_note {d next : Draft} {m : Member} {v : Json} (h : d.note v m = some next) (o : Member) :
    next.has o = (decide (o = m) || d.has o) := by
  cases m with
  | counts =>
    obtain ⟨counts, -, rfl⟩ := Option.map_eq_some_iff.1 h
    cases o <;> simp [has]
  | total t =>
    obtain ⟨n, -, rfl⟩ := Option.map_eq_some_iff.1 h
    cases o with
    | counts => simp [has]
    | total u =>
      by_cases same : u = t
      · simp [has, same]
      · have apart : (u == t) = false := beq_eq_false_iff_ne.2 same
        simp [has, same, List.lookup_cons, apart]

/-- Members are refused if one is given twice or is there already, or if a value does not suit its member. -/
theorem foldlM_take_eq_none_iff {ms : List (List Piece × Json)} (legible : Legible ms) (d : Draft) :
    ms.foldlM take d = none ↔
      ∃ m, 2 ≤ (if d.has m then 1 else 0) + (given ms m).length ∧ given ms m ≠ [] ∨ ∃ v ∈ given ms m, ¬Suits m v := by
  induction ms generalizing d with
  | nil => simp [given]
  | cons e ms ih =>
    obtain ⟨k, v⟩ := e
    obtain ⟨name, text⟩ := Option.isSome_iff_exists.1 (legible.names (k, v) (by simp))
    rw [List.foldlM_cons]
    cases known : Member.named? name with
    | none =>
      simp only [given_cons_unknown text known, take, text, Option.bind_some, known]
      exact ih legible.tail d
    | some m =>
      have gives := given_cons_known text known v ms
      have mine : v ∈ given ((k, v) :: ms) m := by simp [gives]
      simp only [take, text, Option.bind_some, known]
      cases has : d.has m with
      | true =>
        refine iff_of_true rfl ⟨m, .inl ⟨?_, List.ne_nil_of_mem mine⟩⟩
        simp only [has, gives, if_true, List.length_cons]
        omega
      | false =>
        cases noted : d.note v m with
        | none => exact iff_of_true rfl ⟨m, .inr ⟨v, mine, (note_eq_none_iff legible mine d).1 noted⟩⟩
        | some next =>
          have suits : Suits m v := Classical.byContradiction fun unfit => by
            rw [(note_eq_none_iff legible mine d).2 unfit] at noted
            cases noted
          simp only [Bool.false_eq_true, if_false, Option.bind_eq_bind, Option.bind_some]
          refine (ih legible.tail next).trans (exists_congr fun o => ?_)
          rw [has_note noted, gives]
          by_cases same : o = m
          · subst same
            cases given ms o with
            | nil => simp [has, suits]
            | cons w vs =>
              have twice : 2 ≤ 1 + (vs.length + 1) := by omega
              simp [has, suits, twice]
          · simp [same]

theorem given_of_has {ms : List (List Piece × Json)} (legible : Legible ms) {d last : Draft}
    (h : ms.foldlM take d = some last) {m : Member} (has : d.has m) : given ms m = [] := by
  apply Classical.byContradiction
  intro given
  have refused : ms.foldlM take d = none := by
    refine (foldlM_take_eq_none_iff legible d).2 ⟨m, .inl ⟨?_, given⟩⟩
    have some := List.length_pos_iff.2 given
    simp only [has, if_true]
    omega
  rw [refused] at h
  cases h

/-- What a draft says about a member is what the value given to the member says, if there is one. -/
theorem foldlM_take_of_note {α : Type} {view : Draft → α} {said : Json → α} {m : Member}
    (noted : ∀ {d next v}, note d v m = some next → view next = said v)
    (kept : ∀ {d next v o}, note d v o = some next → o ≠ m → view next = view d)
    {ms : List (List Piece × Json)} (legible : Legible ms) {d last : Draft} (h : ms.foldlM take d = some last) :
    view last = match given ms m with
      | [] => view d
      | v :: _ => said v := by
  induction ms generalizing d with
  | nil =>
    cases h
    rfl
  | cons e ms ih =>
    obtain ⟨k, v⟩ := e
    obtain ⟨name, text⟩ := Option.isSome_iff_exists.1 (legible.names (k, v) (by simp))
    rw [List.foldlM_cons] at h
    obtain ⟨next, taken, h⟩ := Option.bind_eq_some_iff.1 h
    have rest := ih legible.tail h
    simp only [take, text, Option.bind_some] at taken
    cases known : Member.named? name with
    | none =>
      rw [known] at taken
      cases taken
      rw [given_cons_unknown text known]
      exact rest
    | some o =>
      simp only [known] at taken
      split at taken
      · cases taken
      · by_cases same : m = o
        · subst same
          have once : given ms m = [] := given_of_has legible.tail h (by simp [has_note taken])
          rw [once] at rest
          rw [given_cons_known text known, if_pos rfl]
          exact rest.trans (noted taken)
        · rw [given_cons_known text known, if_neg same, rest, kept taken (Ne.symm same)]

theorem total?_note {t : Total} {d next : Draft} {v : Json} (h : note d v (.total t) = some next) :
    next.total? t = v.count? := by
  obtain ⟨n, said, rfl⟩ := Option.map_eq_some_iff.1 h
  simp [total?, said_of_orNull rfl said]

theorem total?_note_of_ne {t : Total} {d next : Draft} {v : Json} {o : Member} (h : note d v o = some next)
    (other : o ≠ .total t) : next.total? t = d.total? t := by
  cases o with
  | counts =>
    obtain ⟨counts, -, rfl⟩ := Option.map_eq_some_iff.1 h
    rfl
  | total u =>
    obtain ⟨n, -, rfl⟩ := Option.map_eq_some_iff.1 h
    have apart : (t == u) = false := beq_eq_false_iff_ne.2 fun same => other (same ▸ rfl)
    simp [total?, List.lookup_cons, apart]

theorem counts_note {d next : Draft} {v : Json} (h : note d v .counts = some next) : next.counts.join = v.counts? := by
  obtain ⟨n, said, rfl⟩ := Option.map_eq_some_iff.1 h
  simp [said_of_orNull rfl said]

theorem counts_note_of_ne {d next : Draft} {v : Json} {o : Member} (h : note d v o = some next)
    (other : o ≠ .counts) : next.counts.join = d.counts.join := by
  cases o with
  | counts => exact absurd rfl other
  | total u =>
    obtain ⟨n, -, rfl⟩ := Option.map_eq_some_iff.1 h
    rfl

theorem total?_of_foldlM {ms : List (List Piece × Json)} (legible : Legible ms) {d : Draft}
    (h : ms.foldlM take .empty = some d) (t : Total) : d.total? t = (given ms (.total t)).head?.bind count? := by
  rw [foldlM_take_of_note total?_note total?_note_of_ne legible h]
  cases given ms (.total t) <;> rfl

theorem counts_of_foldlM {ms : List (List Piece × Json)} (legible : Legible ms) {d : Draft}
    (h : ms.foldlM take .empty = some d) : d.counts.join = (given ms .counts).head?.bind counts? := by
  have viewed : d.counts.join = _ := foldlM_take_of_note counts_note counts_note_of_ne legible h
  rw [viewed]
  cases given ms .counts <;> rfl

/-- Whether a member that has to be there is absent or `null`. -/
def lacks (d : Draft) : Member → Bool
  | .counts => d.counts.join.isNone
  | .total t => (d.total? t).isNone

theorem finish_of_lacks {d : Draft} {m : Member} (h : Member.required.find? d.lacks = some m) :
    d.finish = .error m := by
  simp only [Member.required, Total.required, List.map_cons, List.map_nil, List.find?, lacks] at h
  cases counts : d.counts.join <;> cases gas : d.total? .gas <;> cases instructions : d.total? .instructions <;>
    cases syscalls : d.total? .syscalls <;> simp_all [finish]

theorem finish_of_complete {d : Draft} (h : Member.required.find? d.lacks = none) :
    ∃ r, d.finish = .ok r ∧ d.counts.join = some r.counts ∧ ∀ t, r.total? t = d.total? t := by
  have there := List.find?_eq_none.1 h
  have counts := there .counts (by decide)
  have gas := there (.total .gas) (by decide)
  have instructions := there (.total .instructions) (by decide)
  have syscalls := there (.total .syscalls) (by decide)
  simp only [lacks, Bool.not_eq_true, Option.isNone_eq_false_iff, Option.isSome_iff_exists]
    at counts gas instructions syscalls
  obtain ⟨counts, counted⟩ := counts
  obtain ⟨gas, used⟩ := gas
  obtain ⟨instructions, executed⟩ := instructions
  obtain ⟨syscalls, called⟩ := syscalls
  simp only [finish, counted, used, executed, called]
  refine ⟨_, rfl, rfl, fun t => ?_⟩
  cases t <;> simp [Report.total?, used, executed, called]

theorem foldlM_take_empty_eq_none_iff {ms : List (List Piece × Json)} (legible : Legible ms) :
    ms.foldlM take .empty = none ↔ Refused ms := by
  refine (foldlM_take_eq_none_iff legible .empty).trans (exists_congr fun m => or_congr ?_ .rfl)
  have has : Draft.empty.has m = false := by cases m <;> rfl
  cases given ms m <;> simp [has]

theorem isNone_count? {t : Total} {v : Json} (h : Suits (.total t) v) : v.count?.isNone = isNull v := by
  rcases h with rfl | h
  · rfl
  · cases v <;> simp_all [count?, isNull]

theorem isNone_counts? {ms : List (List Piece × Json)} (legible : Legible ms) {v : Json} (mem : v ∈ given ms .counts)
    (h : Suits .counts v) : v.counts?.isNone = isNull v := by
  rcases h with rfl | ⟨es, rfl, counted⟩
  · rfl
  · have there := (entries?_isSome (legible.labels es mem).1).2 counted
    simpa [counts?, isNull] using there

/-- What the draft lacks is what the text lacks. -/
theorem lacks_of_foldlM {ms : List (List Piece × Json)} (legible : Legible ms) {d : Draft}
    (h : ms.foldlM take .empty = some d) (m : Member) : d.lacks m = (given ms m).all isNull := by
  have accepted : ¬Refused ms := mt (foldlM_take_empty_eq_none_iff legible).2 (by simp [h])
  cases m with
  | total t =>
    rw [lacks, total?_of_foldlM legible h]
    rcases given_of_not_refused accepted (.total t) with absent | ⟨v, once, suits⟩
    · rw [absent]
      rfl
    · rw [once]
      simpa using isNone_count? suits
  | counts =>
    rw [lacks, counts_of_foldlM legible h]
    rcases given_of_not_refused accepted .counts with absent | ⟨v, once, suits⟩
    · rw [absent]
      rfl
    · have said := isNone_counts? legible (by simp [once]) suits
      rw [once]
      simpa using said

end Draft

namespace Json

/-- An object that repeats no label counts what it says. -/
theorem perm_of_counts? {ms : List (List Piece × Json)} (legible : Legible ms) {v : Json} {counts : LabelCounts}
    (mem : v ∈ given ms .counts) (h : v.counts? = some counts) :
    ∃ es entries, v = .object es ∧ entries? es = some entries ∧ counts.entries.Perm entries := by
  cases v with
  | object es =>
    obtain ⟨entries, said, rfl⟩ := Option.map_eq_some_iff.1 h
    refine ⟨es, entries, rfl, said, ?_⟩
    have distinct := (legible.labels es mem).2
    rw [labels_entries? said] at distinct
    have apart : (entries.map (·.1)).Nodup := by
      simpa [List.Nodup, List.pairwise_map] using distinct
    exact @perm_collect .empty entries apart
  | _ => cases h

end Json

namespace Report

variable {ms : List (List Piece × Json)} {text : String}

theorem parse_of_read {d : Draft} (read : (readDraft text.toList).toOption = some d) :
    parse text = d.finish.mapError .missing := by
  rw [parse, eq_ok_of_toOption read]

/-- The parsing fails just where no draft can be read. -/
theorem parsing_iff : (∃ reason position, parse text = .error (.parsing reason position)) ↔
    (readDraft text.toList).toOption = none := by
  constructor
  · rintro ⟨reason, position, refused⟩
    cases read : (readDraft text.toList).toOption with
    | none => rfl
    | some d =>
      rw [parse_of_read read] at refused
      cases finished : d.finish <;> simp [finished, mapError_ok, mapError_error] at refused
  · intro unread
    obtain ⟨halt, broken⟩ := exists_error_of_toOption unread
    exact ⟨_, _, by rw [parse, broken]⟩

theorem parse_of_refused (object : IsTextOf text (.object ms)) (legible : Legible ms) (h : Refused ms) :
    ∃ reason position, parse text = .error (.parsing reason position) :=
  parsing_iff.2 ((readDraft_object object).trans ((Draft.foldlM_take_empty_eq_none_iff legible).2 h))

theorem parse_of_accepted (object : IsTextOf text (.object ms)) (legible : Legible ms) (h : ¬Refused ms) :
    ∃ d, ms.foldlM Draft.take .empty = some d ∧ parse text = d.finish.mapError .missing := by
  obtain ⟨d, taken⟩ := Option.ne_none_iff_exists'.1 (mt (Draft.foldlM_take_empty_eq_none_iff legible).1 h)
  exact ⟨d, taken, parse_of_read ((readDraft_object object).trans taken)⟩

theorem required_find? (legible : Legible ms) {d : Draft} (taken : ms.foldlM Draft.take .empty = some d) :
    Member.required.find? d.lacks = firstLacking ms := by
  rw [firstLacking, funext (Draft.lacks_of_foldlM legible taken)]

/-- The text of an object is refused at once if a member is given twice or does not suit. Else the first required
member that is lacking is missed. Else there is a report, of the totals and the counts that are written. -/
theorem parse_object (object : IsTextOf text (.object ms)) (legible : Legible ms) :
    ((∃ reason position, parse text = .error (.parsing reason position)) ↔ Refused ms) ∧
      (¬Refused ms → ∀ m, firstLacking ms = some m → parse text = .error (.missing m)) ∧
      (¬Refused ms → firstLacking ms = none →
        ∃ r, parse text = .ok r ∧ (∀ t, r.total? t = (given ms (.total t)).head?.bind count?) ∧
          ∃ es entries, given ms .counts = [.object es] ∧ entries? es = some entries ∧
            r.counts.entries.Perm entries) := by
  refine ⟨⟨?_, parse_of_refused object legible⟩, ?_, ?_⟩
  · rintro ⟨reason, position, refused⟩
    apply Classical.byContradiction
    intro accepted
    obtain ⟨d, -, parsed⟩ := parse_of_accepted object legible accepted
    rw [parsed] at refused
    cases finished : d.finish <;> simp [finished, mapError_ok, mapError_error] at refused
  · intro accepted m lacking
    obtain ⟨d, taken, parsed⟩ := parse_of_accepted object legible accepted
    rw [← required_find? legible taken] at lacking
    rw [parsed, Draft.finish_of_lacks lacking]
    rfl
  · intro accepted complete
    obtain ⟨d, taken, parsed⟩ := parse_of_accepted object legible accepted
    rw [← required_find? legible taken] at complete
    obtain ⟨r, finished, counts, totals⟩ := Draft.finish_of_complete complete
    refine ⟨r, by rw [parsed, finished]; rfl, fun t => (totals t).trans (Draft.total?_of_foldlM legible taken t), ?_⟩
    rw [Draft.counts_of_foldlM legible taken] at counts
    rcases given_of_not_refused accepted .counts with absent | ⟨v, once, -⟩
    · rw [absent] at counts
      cases counts
    · rw [once] at counts
      obtain ⟨es, entries, rfl, said, same⟩ := perm_of_counts? legible (by simp [once]) counts
      exact ⟨es, entries, once, said, same⟩

end Report

namespace Json

/-- A string without escapes. -/
def plain (s : String) : List Piece := s.toList.map .char

theorem spells_plain {s : List Char} (h : ∀ c ∈ s, 0x20 ≤ c.toNat ∧ c ≠ '"' ∧ c ≠ '\\') : Spells (s.map .char) s := by
  induction s with
  | nil => exact .nil
  | cons c s ih =>
    obtain ⟨first, rest⟩ := List.forall_mem_cons.1 h
    exact .raw first.1 first.2 (ih rest)

theorem spells_name (s : String) (h : s.toList.all (fun c => 0x20 ≤ c.toNat && c != '"' && c != '\\') := by decide) :
    Spells (plain s) s.toList := by
  apply spells_plain
  intro c mem
  have fits := List.all_eq_true.1 h c mem
  simpa [and_assoc] using fits

theorem forms_spaced {v : Json} {s : List Char} (h : Forms (.value v) s) : Forms (.spaced v) s := by
  have spaced := Forms.spaced (a := []) (b := []) nofun h nofun
  rwa [List.nil_append, List.append_nil] at spaced

theorem forms_member {k : List Piece} {v : Json} {name s : List Char} (spelled : Spells k name)
    (value : Forms (.value v) s) : Forms (.member k v) ('"' :: (name ++ '"' :: ':' :: s)) :=
  .member (a := []) (b := []) nofun spelled nofun (forms_spaced value)

theorem isWhole_digitChar (n : Nat) : IsWhole [Nat.digitChar (n % 10)] := by
  have every : ∀ d : Fin 10, IsWhole [Nat.digitChar d] := by decide
  exact every ⟨n % 10, Nat.mod_lt n (by decide)⟩

/-- A number of one digit. -/
def digit (n : Nat) : Numeral := ⟨false, [Nat.digitChar (n % 10)], [], [], isWhole_digitChar n, .inl rfl, .inl rfl⟩

/-- Members of which one has an unknown name and one an optional total. -/
def sample : List (List Piece × Json) :=
  [(plain "total_gas", .number (digit 7)), (plain "total_syscall_count", .number (digit 0)),
   ([.unit 0x78], .list [.null, .list []]), (plain "total_proofs", .null),
   (plain "cycle_tracker_results", .object [([.char 'a', .unit 0x62], .number (digit 5))]),
   (plain "total_instruction_count", .number (digit 1))]

def sampleText : String :=
  "\x7b\"total_gas\":7,\"total_syscall_count\":0,\"\\u0078\":[null,[\t]],\"total_proofs\":null," ++
    "\"cycle_tracker_results\":\x7b\"a\\u0062\":5\x7d,\"total_instruction_count\":1\x7d"

theorem sampleText_object : IsTextOf sampleText (.object sample) := by
  have empty : Forms (.value (.list [])) ['[', '\t', ']'] := .list (s := ['\t']) (.noItem (by decide))
  have items := Forms.list (.nextItem (forms_spaced .null) (.lastItem (forms_spaced empty)))
  have unknown : Spells [.unit 0x78] ['\\', 'u', '0', '0', '7', '8'] :=
    .numbered (i := 0) (j := 0) (k := 7) (l := 8) (by decide) .nil
  have label : Spells [.char 'a', .unit 0x62] ['a', '\\', 'u', '0', '0', '6', '2'] :=
    .raw (by decide) (by decide) (.numbered (i := 0) (j := 0) (k := 6) (l := 2) (by decide) .nil)
  have counts := Forms.object (.lastMember (forms_member label (.number (digit 5))))
  have executed := forms_member (spells_name "total_instruction_count") (.number (digit 1))
  have counted := Forms.nextMember (forms_member (spells_name "cycle_tracker_results") counts) (.lastMember executed)
  have proofs := Forms.nextMember (forms_member (spells_name "total_proofs") .null) counted
  have called := forms_member (spells_name "total_syscall_count") (.number (digit 0))
  have used := forms_member (spells_name "total_gas") (.number (digit 7))
  have object := Forms.object (.nextMember used (.nextMember called (.nextMember (forms_member unknown items) proofs)))
  exact (congrArg (Forms (.spaced (.object sample))) (by decide +kernel)).mp (forms_spaced object)

theorem sample_legible : Legible sample where
  names := by decide
  labels := by
    have counts : given sample .counts = [.object [([.char 'a', .unit 0x62], .number (digit 5))]] := by rfl
    rw [counts]
    rintro es mem
    cases List.mem_singleton.1 mem
    decide

theorem suits_total_iff {t : Total} {v : Json} : Suits (.total t) v ↔ (isNull v || v.count?.isSome) = true := by
  cases v <;> simp [Suits, isNull]

theorem sample_accepted : ¬Refused sample := by
  rintro ⟨m, h⟩
  cases m with
  | counts =>
    rcases h with twice | ⟨v, mem, unfit⟩
    · exact absurd twice (by decide)
    · cases List.mem_singleton.1 (show v ∈ [_] from mem)
      exact unfit (.inr ⟨_, rfl, by decide⟩)
  | total t =>
    rcases h with twice | ⟨v, mem, unfit⟩
    · exact absurd twice (by cases t <;> decide)
    · rw [suits_total_iff] at unfit
      revert v
      cases t <;> decide

theorem parse_sampleText :
    ∃ r, Report.parse sampleText = .ok r ∧ r.gas = 7 ∧ r.proofs = none ∧ r.counts.entries.Perm [("ab", 5)] := by
  obtain ⟨-, -, written⟩ := Report.parse_object sampleText_object sample_legible
  obtain ⟨r, parsed, totals, es, entries, object, said, same⟩ := written sample_accepted rfl
  refine ⟨r, parsed, ?_, totals .proofs, ?_⟩
  · exact Option.some.inj (totals .gas)
  · cases object
    cases said
    exact same

end Json
end CycleChart
