import CycleChart.Chart.Basic
import CycleChart.Proofs.Report.Decoding
import Mathlib.Data.List.Dedup

namespace CycleChart

open Json

theorem OrderedMap.nodup_keys (counts : LabelCounts) : (counts.entries.map (·.1)).Nodup :=
  List.pairwise_map.2 (counts.ascending.imp fun below => Std.ne_of_lt below)

namespace Json

/-- Of the counts that are collected for a label, the last one stays. -/
theorem get?_collect (counts : LabelCounts) (es : List (String × UInt64)) (label : String) :
    (collect counts es).get? label = (lookupEntry label es.reverse).or (counts.get? label) := by
  induction es generalizing counts with
  | nil => rfl
  | cons e es ih =>
    have step : (collect counts (e :: es)).get? label = _ := ih (counts.insert e.1 e.2)
    rw [step, OrderedMap.get?_insert, List.reverse_cons, lookupEntry_append]
    cases lookupEntry label es.reverse with
    | some n => rfl
    | none =>
      by_cases same : label = e.1 <;> simp [lookupEntry, same]

theorem get?_collect_empty (es : List (String × UInt64)) (label : String) :
    (collect .empty es).get? label = lookupEntry label es.reverse := by
  rw [get?_collect]
  exact Option.or_none

/-- Each label is kept once. -/
theorem keys_collect (es : List (String × UInt64)) :
    ((collect .empty es).entries.map (·.1)).Perm (es.map (·.1)).dedup := by
  apply (List.perm_ext_iff_of_nodup (OrderedMap.nodup_keys _) (List.nodup_dedup _)).2
  intro label
  rw [List.mem_dedup, ← lookupEntry_isSome_iff]
  have found : lookupEntry label (collect .empty es).entries = lookupEntry label es.reverse :=
    get?_collect_empty es label
  rw [found, lookupEntry_isSome_iff, List.map_reverse, List.mem_reverse]

/-- As many labels are kept as there are entries if no label is repeated, and only then. -/
theorem length_collect_iff (es : List (String × UInt64)) :
    (collect .empty es).entries.length = es.length ↔ (es.map (·.1)).Nodup := by
  have kept := (keys_collect es).length_eq
  rw [List.length_map] at kept
  rw [kept, ← List.dedup_eq_self]
  constructor
  · intro all
    apply (List.dedup_sublist _).eq_of_length
    rw [all, List.length_map]
  · intro same
    rw [same, List.length_map]

theorem perm_collect_iff (es : List (String × UInt64)) :
    (collect .empty es).entries.Perm es ↔ (es.map (·.1)).Nodup := by
  constructor
  · intro same
    exact (length_collect_iff es).1 same.length_eq
  · intro distinct
    exact @perm_collect .empty es distinct

theorem nodup_labels_iff {es : List (List Piece × Json)} {entries : List (String × UInt64)}
    (said : entries? es = some entries) : (es.map fun e => text? e.1).Nodup ↔ (entries.map (·.1)).Nodup := by
  rw [labels_entries? said]
  simp [List.Nodup, List.pairwise_map]

end Json

namespace Draft

/-- If members are all taken, the counts of the draft are those of the one value that is given for them. -/
theorem counts_of_taken {ms : List (List Piece × Json)} {d last : Draft} (h : ms.foldlM take d = some last) :
    given ms .counts = [] ∧ last.counts = d.counts ∨
      ∃ v counts, given ms .counts = [v] ∧ d.counts = none ∧ v.orNull counts? = some counts ∧
        last.counts = some counts := by
  induction ms generalizing d with
  | nil =>
    cases h
    exact .inl ⟨rfl, rfl⟩
  | cons e ms ih =>
    obtain ⟨k, v⟩ := e
    rw [List.foldlM_cons] at h
    obtain ⟨next, taken, h⟩ := Option.bind_eq_some_iff.1 h
    have rest := ih h
    obtain ⟨name, text, taken⟩ := Option.bind_eq_some_iff.1 taken
    cases known : Member.named? name with
    | none =>
      rw [known] at taken
      cases taken
      rw [given_cons_unknown text known]
      exact rest
    | some m =>
      simp only [known] at taken
      rw [given_cons_known text known]
      split at taken
      · cases taken
      · rename_i new
        cases m with
        | total t =>
          obtain ⟨n, -, rfl⟩ := Option.map_eq_some_iff.1 taken
          rw [if_neg nofun]
          exact rest
        | counts =>
          obtain ⟨counts, said, rfl⟩ := Option.map_eq_some_iff.1 taken
          rw [if_pos rfl]
          -- the counts are there from here on, so they are not given again
          rcases rest with ⟨none, kept⟩ | ⟨-, -, -, absent, -⟩
          · exact .inr ⟨v, counts, by rw [none], by simpa [has] using new, said, kept⟩
          · cases absent

theorem counts_of_finish {d : Draft} {r : Report} (h : d.finish = .ok r) : d.counts.join = some r.counts := by
  unfold finish at h
  split at h
  · cases h
  · cases h
  · cases h
  · cases h
  · cases h
    assumption

end Draft

namespace Report

theorem taken_of_parse {ms : List (List Piece × Json)} {text : String} {r : Report}
    (object : IsTextOf text (.object ms)) (parsed : parse text = .ok r) :
    ∃ d, ms.foldlM Draft.take .empty = some d ∧ d.finish = .ok r := by
  have read := readDraft_object object
  cases taken : ms.foldlM Draft.take .empty with
  | none =>
    obtain ⟨_, _, refused⟩ := parsing_iff.2 (read.trans taken)
    rw [refused] at parsed
    cases parsed
  | some d =>
    rw [parse_of_read (read.trans taken)] at parsed
    cases finished : d.finish with
    | error m =>
      rw [finished] at parsed
      cases parsed
    | ok r' =>
      rw [finished] at parsed
      cases parsed
      exact ⟨d, rfl, finished⟩

/-- The counts of a report are those that the text gives for its labels, in one object. -/
theorem counts_of_parse {ms : List (List Piece × Json)} {text : String} {r : Report}
    (object : IsTextOf text (.object ms)) (parsed : parse text = .ok r) :
    ∃ es entries, given ms .counts = [.object es] ∧ entries? es = some entries ∧ r.counts = collect .empty entries := by
  obtain ⟨d, taken, finished⟩ := taken_of_parse object parsed
  have counts := Draft.counts_of_finish finished
  rcases Draft.counts_of_taken taken with ⟨-, none⟩ | ⟨v, said, once, -, spoken, kept⟩
  · rw [none] at counts
    cases counts
  · rw [kept] at counts
    obtain rfl : said = some r.counts := counts
    have value : v.counts? = some r.counts := (Draft.said_of_orNull rfl spoken).symm
    cases v with
    | object es =>
      obtain ⟨entries, said, same⟩ := Option.map_eq_some_iff.1 value
      exact ⟨es, entries, once, said, same.symm⟩
    | _ => cases value

theorem labels_bars (identifier : String) (r : Report) :
    ((Chart.ofReport identifier r).breakdown.bars.map (·.label)).Perm (r.counts.entries.map (·.1)) := by
  have sorted : (Breakdown.ofCounts r.counts).bars.Perm _ := List.mergeSort_perm _ _
  have labels := sorted.map (·.label)
  rwa [List.map_map] at labels

/-- A report that is read from an object keeps the last count of each label, and its chart has one bar for each
different label. All counts are kept if no label is repeated, and only then. -/
theorem parse_labels {ms : List (List Piece × Json)} {text : String} {r : Report}
    (object : IsTextOf text (.object ms)) (parsed : parse text = .ok r) (identifier : String) :
    ∃ es entries, given ms .counts = [.object es] ∧ entries? es = some entries ∧
      (∀ label, r.counts.get? label = lookupEntry label entries.reverse) ∧
      ((Chart.ofReport identifier r).breakdown.bars.map (·.label)).Perm (entries.map (·.1)).dedup ∧
      ((Chart.ofReport identifier r).breakdown.bars.length = es.length ↔ (es.map fun e => text? e.1).Nodup) ∧
      (r.counts.entries.Perm entries ↔ (es.map fun e => text? e.1).Nodup) := by
  obtain ⟨es, entries, once, said, collected⟩ := counts_of_parse object parsed
  have bars : (Chart.ofReport identifier r).breakdown.bars.length = r.counts.entries.length :=
    Breakdown.length_ofCounts r.counts
  have lengths : es.length = entries.length := by simpa using congrArg List.length (labels_entries? said)
  refine ⟨es, entries, once, said, ?_, ?_, ?_, ?_⟩
  · intro label
    rw [collected]
    exact get?_collect_empty entries label
  · apply (labels_bars identifier r).trans
    rw [collected]
    exact keys_collect entries
  · rw [bars, lengths, nodup_labels_iff said, collected]
    exact length_collect_iff entries
  · rw [nodup_labels_iff said, collected]
    exact perm_collect_iff entries

end Report

namespace Json

/-- Members that give one label two counts, once with an escape. -/
def twice : List (List Piece × Json) :=
  [(plain "total_gas", .number (digit 7)),
   (plain "total_syscall_count", .number (digit 0)),
   (plain "total_instruction_count", .number (digit 1)),
   (plain "cycle_tracker_results",
     .object [([.char 'a'], .number (digit 5)), ([.unit 0x61], .number (digit 3))])]

def twiceText : String :=
  "\x7b\"total_gas\":7,\"total_syscall_count\":0,\"total_instruction_count\":1," ++
    "\"cycle_tracker_results\":\x7b\"a\":5,\"\\u0061\":3\x7d\x7d"

theorem twiceText_object : IsTextOf twiceText (.object twice) := by
  have escaped : Spells [.unit 0x61] ['\\', 'u', '0', '0', '6', '1'] :=
    .numbered (i := 0) (j := 0) (k := 6) (l := 1) (by decide) .nil
  have second := Forms.lastMember (forms_member escaped (.number (digit 3)))
  have first := forms_member (spells_name "a") (.number (digit 5))
  have counts := Forms.object (.nextMember first second)
  have counted := Forms.lastMember (forms_member (spells_name "cycle_tracker_results") counts)
  have executed := forms_member (spells_name "total_instruction_count") (.number (digit 1))
  have called := forms_member (spells_name "total_syscall_count") (.number (digit 0))
  have used := forms_member (spells_name "total_gas") (.number (digit 7))
  have object := Forms.object (.nextMember used (.nextMember called (.nextMember executed counted)))
  exact (congrArg (Forms (.spaced (.object twice))) (by decide +kernel)).mp (forms_spaced object)

theorem parse_twiceText : ∃ r, Report.parse twiceText = .ok r ∧ r.counts.entries = [("a", 3)] := by
  have counts : (Report.parse twiceText).toOption.map (·.counts.entries) = some [("a", 3)] := by decide +kernel
  obtain ⟨r, parsed, same⟩ := Option.map_eq_some_iff.1 counts
  exact ⟨r, eq_ok_of_toOption parsed, same⟩

/-- The first of the two counts is dropped. -/
theorem parse_labels_twiceText :
    ∃ r, Report.parse twiceText = .ok r ∧ r.counts.get? "a" = some 3 ∧
      ((Chart.ofReport "twice.json" r).breakdown.bars.map (·.label)).Perm ["a"] ∧
      (Chart.ofReport "twice.json" r).breakdown.bars.length ≠ 2 := by
  obtain ⟨r, parsed, -⟩ := parse_twiceText
  obtain ⟨es, entries, object, said, last, labels, all, -⟩ := Report.parse_labels twiceText_object parsed "twice.json"
  cases object
  cases said
  refine ⟨r, parsed, last "a", labels, ?_⟩
  intro two
  exact absurd (all.1 two) (by decide)

/-- Not every member that counts something has a bar of its own. -/
theorem not_all_counted :
    ¬∀ (text : String) (ms es : List (List Piece × Json)) (r : Report) (identifier : String),
      IsTextOf text (.object ms) → Report.parse text = .ok r → given ms .counts = [.object es] →
        (Chart.ofReport identifier r).breakdown.bars.length = es.length := by
  intro all
  obtain ⟨r, parsed, counts⟩ := parse_twiceText
  have bars := all twiceText twice _ r "twice.json" twiceText_object parsed rfl
  have count : (Chart.ofReport "twice.json" r).breakdown.bars.length = r.counts.entries.length :=
    Breakdown.length_ofCounts r.counts
  rw [count, counts] at bars
  exact absurd bars (by decide)

end Json
end CycleChart
