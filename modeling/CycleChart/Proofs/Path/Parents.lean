import CycleChart.Proofs.Path.Segments

namespace CycleChart.Path

/-- The segments of a path that say something. -/
def steps (p : Path) : List (List UInt8) := (segments p.bytes).filter fun segment => (component? segment).isSome

theorem component?_eq_none_iff {segment : List UInt8} :
    component? segment = none ↔ segment = [] ∨ segment = [dot] := by
  rw [component?]
  split
  · simp_all
  · split <;> simp_all

theorem component?_eq_normal_iff {name : List UInt8} :
    component? name = some (.normal name) ↔ name ≠ [] ∧ name ≠ [dot] ∧ name ≠ [dot, dot] := by
  rw [component?]
  split
  · rename_i silent
    constructor
    · intro named
      cases named
    · rintro ⟨filled, alone, -⟩
      exact (silent.elim filled alone).elim
  · rename_i loud
    rw [not_or] at loud
    split
    · rename_i back
      constructor
      · intro named
        cases named
      · rintro ⟨-, -, forward⟩
        exact absurd back forward
    · rename_i forward
      exact iff_of_true rfl ⟨loud.1, loud.2, forward⟩

theorem spelling_of_component? {segment : List UInt8} {c : Component} (h : component? segment = some c) :
    spelling c = segment ∧ segment ≠ [] := by
  rw [component?] at h
  split at h
  · cases h
  · rename_i loud
    have filled : segment ≠ [] := fun empty => loud (.inl empty)
    split at h
    · rename_i back
      cases h
      exact ⟨back.symm, filled⟩
    · cases h
      exact ⟨rfl, filled⟩

theorem ne_root_of_component? {segment : List UInt8} {c : Component} (h : component? segment = some c) :
    c ≠ .root := by
  rw [component?] at h
  split at h
  · cases h
  · split at h
    · cases h
      intro same
      cases same
    · cases h
      intro same
      cases same

theorem component?_ne_current (segment : List UInt8) : component? segment ≠ some .current := by
  intro current
  rw [component?] at current
  split at current
  · cases current
  · split at current <;> cases current

theorem map_spelling (parts : List (List UInt8)) :
    (parts.filterMap component?).map spelling = parts.filter fun segment => (component? segment).isSome := by
  induction parts with
  | nil => rfl
  | cons segment parts ih =>
    cases known : component? segment with
    | none => rw [List.filterMap_cons_none known, List.filter_cons_of_neg (by simp [known]), ih]
    | some c =>
      rw [List.filterMap_cons_some known, List.filter_cons_of_pos (by simp [known]), List.map_cons, ih,
        (spelling_of_component? known).1]

theorem not_mem_of_mem_segments {s segment : List UInt8} (h : segment ∈ segments s) : slash ∉ segment := by
  induction s generalizing segment with
  | nil =>
    cases List.mem_singleton.1 h
    nofun
  | cons b s ih =>
    rw [segments] at h
    split at h
    · rcases List.mem_cons.1 h with rfl | later
      · nofun
      · exact ih later
    · rename_i other
      split at h
      · rename_i none
        exact absurd none (segments_ne_nil s)
      · rename_i x xs eq
        rcases List.mem_cons.1 h with rfl | later
        · rw [List.mem_cons, not_or]
          exact ⟨Ne.symm other, ih (by rw [eq]; exact List.mem_cons_self)⟩
        · exact ih (by rw [eq]; exact List.mem_cons_of_mem _ later)

theorem segments_intercalate {parts : List (List UInt8)} (some : parts ≠ [])
    (clear : ∀ segment ∈ parts, slash ∉ segment) : segments ([slash].intercalate parts) = parts := by
  induction parts with
  | nil => exact absurd rfl some
  | cons segment parts ih =>
    obtain ⟨first, rest⟩ := List.forall_mem_cons.1 clear
    cases parts with
    | nil => rw [List.intercalate_singleton, segments_of_not_mem first]
    | cons next parts =>
      rw [List.intercalate_cons_cons, List.append_assoc, List.singleton_append, segments_append,
        segments_of_not_mem first, ih (List.cons_ne_nil _ _) rest]
      rfl

theorem head?_of_isRooted {p : Path} (h : p.isRooted = true) : (segments p.bytes).head? = some [] := by
  obtain ⟨bytes⟩ := p
  cases bytes with
  | nil => cases h
  | cons b s =>
    have start : b = slash := by simpa [isRooted] using h
    rw [segments, if_pos start]
    rfl

theorem parent_mem_components {p : Path} (h : [dot, dot] ∈ p.steps) : .parent ∈ p.components := by
  apply List.mem_append_right
  exact List.mem_filterMap.2 ⟨_, (List.mem_filter.1 h).1, rfl⟩

/-- What stands in front of the segments of a path when its parts are spelled again. -/
def leading (p : Path) : List Component := if (segments p.bytes).head? = some [dot] then [.current] else []

theorem components_eq {p : Path} (plain : p.isRooted = false) :
    p.components = p.leading ++ (segments p.bytes).filterMap component? := by
  simp [components, plain, leading]

theorem steps_concat {p : Path} {front : List (List UInt8)} {name : List UInt8}
    (eq : segments p.bytes = front ++ [name]) (loud : (component? name).isSome) :
    p.steps = (front.filter fun segment => (component? segment).isSome) ++ [name] := by
  simp [steps, eq, loud]

theorem mem_leading {p : Path} {c : Component} (h : c ∈ p.leading) : c = .current := by
  rw [leading] at h
  split at h
  · exact List.mem_singleton.1 h
  · cases h

theorem ofComponents_of_plain {parts : List Component} (plain : ∀ c ∈ parts, c ≠ .root) :
    ofComponents parts = ⟨[slash].intercalate (parts.map spelling)⟩ := by
  cases parts with
  | nil => rfl
  | cons c parts =>
    cases c with
    | root => exact absurd rfl (plain .root List.mem_cons_self)
    | _ => rfl

theorem parent?_eq_some {p q : Path} (up : p.parent? = some q) :
    p.components ≠ [] ∧ q = ofComponents p.components.dropLast := by
  rw [parent?] at up
  split at up
  · cases up
  · cases up
  · rename_i c _ last
    cases up
    refine ⟨?_, rfl⟩
    intro none
    rw [none] at last
    cases last

theorem filled_of_parent? {p q : Path} (up : p.parent? = some q) : p.bytes ≠ [] := by
  intro empty
  obtain ⟨bytes⟩ := p
  cases empty
  cases up

/-- Parts spelled one after another are the segments of their path. -/
theorem segments_ofComponents {parts : List Component} (filled : parts ≠ [])
    (each : ∀ c ∈ parts, c = .current ∨ ∃ segment, slash ∉ segment ∧ component? segment = some c) :
    segments (ofComponents parts).bytes = parts.map spelling ∧ (ofComponents parts).isRooted = false := by
  have spelled : ∀ c ∈ parts, c ≠ .root ∧ slash ∉ spelling c ∧ spelling c ≠ [] := by
    intro c mem
    rcases each c mem with rfl | ⟨segment, clear, known⟩
    · exact ⟨nofun, by decide, by decide⟩
    · obtain ⟨same, longer⟩ := spelling_of_component? known
      rw [same]
      exact ⟨ne_root_of_component? known, clear, longer⟩
  have bytes := ofComponents_of_plain fun c mem => (spelled c mem).1
  have segs : segments (ofComponents parts).bytes = parts.map spelling := by
    rw [bytes]
    apply segments_intercalate (by simpa using filled)
    intro segment mem
    obtain ⟨c, listed, rfl⟩ := List.mem_map.1 mem
    exact (spelled c listed).2.1
  refine ⟨segs, ?_⟩
  rw [Bool.eq_false_iff]
  intro rooted
  have start := head?_of_isRooted rooted
  cases parts with
  | nil => exact filled rfl
  | cons c parts =>
    rw [segs, List.map_cons, List.head?_cons, Option.some.injEq] at start
    exact (spelled c List.mem_cons_self).2.2 start

/-- What a path of some parts says is all of them but the dot in front. -/
theorem steps_ofComponents {parts : List Component}
    (each : ∀ c ∈ parts, c = .current ∨ ∃ segment, slash ∉ segment ∧ component? segment = some c) :
    (ofComponents parts).steps = (parts.filter (· ≠ .current)).map spelling := by
  by_cases empty : parts = []
  · rw [empty]
    rfl
  · rw [steps, (segments_ofComponents empty each).1, List.filter_map]
    congr 1
    apply List.filter_congr
    intro c mem
    rcases each c mem with rfl | ⟨segment, -, known⟩
    · rfl
    · have other : c ≠ .current := fun same => component?_ne_current segment (same ▸ known)
      simp [(spelling_of_component? known).1, known, other]

/-- The segments of a path from the root that is spelled part by part. -/
theorem segments_ofComponents_root {parts : List Component}
    (each : ∀ c ∈ parts, ∃ segment, slash ∉ segment ∧ component? segment = some c) :
    segments (ofComponents (.root :: parts)).bytes = [] :: (if parts = [] then [[]] else parts.map spelling) := by
  rw [ofComponents, segments, if_pos rfl]
  split
  · rename_i empty
    rw [empty]
    rfl
  · rename_i filled
    rw [segments_intercalate (by simpa using filled)]
    intro segment mem
    obtain ⟨c, listed, rfl⟩ := List.mem_map.1 mem
    obtain ⟨segment, clear, known⟩ := each c listed
    rwa [(spelling_of_component? known).1]

/-- A path and the one without its last part, told by their segments. -/
inductive Above (p q : Path) : Prop where
  /-- Only a leading dot is left out. -/
  | nowhere (empty : q.bytes = []) (silent : p.steps = []) : Above p q
  | step {last : List UInt8} (steps : p.steps = q.steps ++ [last]) (loud : (component? last).isSome)
      (normal : q.steps = [] ∨ ∃ front name, segments q.bytes = front ++ [name] ∧ (component? name).isSome) : Above p q

/-- The parts of a path after its leading one, if one of them is the last. -/
theorem exists_last_part {p : Path} {front : List Component} {last : Component}
    (eq : (segments p.bytes).filterMap component? = front ++ [last]) :
    (∀ c ∈ front, ∃ segment, slash ∉ segment ∧ component? segment = some c) ∧
      p.steps = front.map spelling ++ [spelling last] ∧ (component? (spelling last)).isSome := by
  have said : ∀ c ∈ front ++ [last], ∃ segment, slash ∉ segment ∧ component? segment = some c := by
    intro c mem
    rw [← eq] at mem
    obtain ⟨segment, listed, known⟩ := List.mem_filterMap.1 mem
    exact ⟨segment, not_mem_of_mem_segments listed, known⟩
  refine ⟨fun c mem => said c (List.mem_append_left _ mem), ?_, ?_⟩
  · rw [steps, ← map_spelling, eq, List.map_append, List.map_singleton]
  · obtain ⟨segment, -, known⟩ := said last (by simp)
    rw [(spelling_of_component? known).1, known]
    rfl

theorem above_of_relative {p q : Path} (relative : p.isRooted = false) (up : p.parent? = some q) :
    q.isRooted = false ∧ p.Above q := by
  obtain ⟨-, rfl⟩ := parent?_eq_some up
  rw [components_eq relative]
  rcases List.eq_nil_or_concat ((segments p.bytes).filterMap component?) with none | ⟨front, last, eq⟩
  · have empty : p.leading.dropLast = [] := by
      rw [leading]
      split <;> rfl
    have silent : p.steps = [] := by rw [steps, ← map_spelling, none, List.map_nil]
    rw [none, List.append_nil, empty]
    exact ⟨rfl, .nowhere rfl silent⟩
  · rw [List.concat_eq_append] at eq
    obtain ⟨before, steps, loud⟩ := exists_last_part eq
    rw [eq, ← List.append_assoc, List.dropLast_concat]
    have each : ∀ c ∈ p.leading ++ front, c = .current ∨ ∃ segment, slash ∉ segment ∧ component? segment = some c := by
      intro c mem
      exact (List.mem_append.1 mem).imp mem_leading (before c)
    have silent : p.leading.filter (· ≠ .current) = [] := by
      rw [List.filter_eq_nil_iff]
      intro c mem
      simp [mem_leading mem]
    have kept : front.filter (· ≠ .current) = front := by
      rw [List.filter_eq_self]
      intro c mem
      obtain ⟨segment, -, known⟩ := before c mem
      simpa using fun same : c = .current => component?_ne_current segment (same ▸ known)
    have steps' : (ofComponents (p.leading ++ front)).steps = front.map spelling := by
      rw [steps_ofComponents each, List.filter_append, silent, kept, List.nil_append]
    rcases List.eq_nil_or_concat front with rfl | ⟨others, c, rfl⟩
    · refine ⟨?_, .step (by rw [steps, steps']) loud (.inl steps')⟩
      rw [List.append_nil, leading]
      split <;> rfl
    · rw [List.concat_eq_append] at steps' each before steps ⊢
      obtain ⟨segs, plain'⟩ := segments_ofComponents (by simp) each
      obtain ⟨segment, -, known⟩ := before c (by simp)
      refine ⟨plain', .step (by rw [steps, steps']) loud (.inr ⟨(p.leading ++ others).map spelling, spelling c, ?_, ?_⟩)⟩
      · simp [segs]
      · rw [(spelling_of_component? known).1, known]
        rfl

theorem above_of_isRooted {p q : Path} (rooted : p.isRooted = true) (up : p.parent? = some q) :
    q.isRooted = true ∧ p.Above q := by
  have whole : p.components = .root :: (segments p.bytes).filterMap component? := by simp [components, rooted]
  obtain ⟨-, rfl⟩ := parent?_eq_some up
  rcases List.eq_nil_or_concat ((segments p.bytes).filterMap component?) with none | ⟨front, last, eq⟩
  · rw [parent?, whole, none] at up
    cases up
  · rw [List.concat_eq_append] at eq
    obtain ⟨before, steps, loud⟩ := exists_last_part eq
    have parent : p.components.dropLast = .root :: front := by
      rw [whole, eq, ← List.cons_append, List.dropLast_concat]
    rw [parent]
    have segs := segments_ofComponents_root before
    have steps' : (ofComponents (.root :: front)).steps = front.map spelling := by
      rw [Path.steps, segs]
      split
      · rename_i empty
        rw [empty]
        rfl
      · rw [List.filter_cons_of_neg (by decide), List.filter_eq_self]
        intro segment mem
        obtain ⟨c, listed, rfl⟩ := List.mem_map.1 mem
        obtain ⟨segment, -, known⟩ := before c listed
        rw [(spelling_of_component? known).1, known]
        rfl
    refine ⟨rfl, .step (by rw [steps, steps']) loud ?_⟩
    rcases List.eq_nil_or_concat front with rfl | ⟨others, c, rfl⟩
    · exact .inl steps'
    · rw [List.concat_eq_append] at before segs ⊢
      obtain ⟨segment, -, known⟩ := before c (by simp)
      refine .inr ⟨[] :: others.map spelling, spelling c, by simpa using segs, ?_⟩
      rw [(spelling_of_component? known).1, known]
      rfl

/-- The path without its last part starts where the path starts, and is spelled by its segments alone. -/
theorem parent?_spec {p q : Path} (up : p.parent? = some q) : q.isRooted = p.isRooted ∧ p.Above q := by
  cases rooted : p.isRooted with
  | true => exact above_of_isRooted rooted up
  | false => exact above_of_relative rooted up

end CycleChart.Path
