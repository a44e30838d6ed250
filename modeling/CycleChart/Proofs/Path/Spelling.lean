import CycleChart.Path.Spelled
import CycleChart.Proofs.Path.Parents

namespace CycleChart.Path

theorem steps_of_isCurrent {p : Path} (h : p.isCurrent) : p.steps = [] ∧ p.isRooted = false := by
  have whole : p.components = [.current] := of_decide_eq_true h
  cases rooted : p.isRooted with
  | true =>
    rw [components, rooted] at whole
    cases whole
  | false =>
    refine ⟨?_, rfl⟩
    rw [components_eq rooted] at whole
    cases known : (segments p.bytes).filterMap component? with
    | nil => rw [steps, ← map_spelling, known, List.map_nil]
    | cons c parts =>
      exfalso
      have listed : .current ∈ (segments p.bytes).filterMap component? := by
        rcases List.append_eq_singleton_iff.1 whole with ⟨-, single⟩ | ⟨-, none⟩
        · rw [single]
          exact List.mem_singleton.2 rfl
        · rw [known] at none
          cases none
      obtain ⟨segment, -, eq⟩ := List.mem_filterMap.1 listed
      exact component?_ne_current segment eq

theorem filled_of_segments {s first : List UInt8} {rest : List (List UInt8)} (eq : segments s = first :: rest)
    (filled : s ≠ []) (plain : isRooted ⟨s⟩ = false) : first ≠ [] := by
  rintro rfl
  cases s with
  | nil => exact filled rfl
  | cons b s =>
    have other : b ≠ slash := by simpa [isRooted] using plain
    rw [segments, if_neg other] at eq
    split at eq <;> cases eq

/-- The bytes of a path are its segments with a slash in front of each but the first. -/
theorem eq_append_flatMap {s first : List UInt8} {rest : List (List UInt8)} (eq : segments s = first :: rest) :
    s = first ++ rest.flatMap (slash :: ·) := by
  induction s generalizing first rest with
  | nil =>
    cases eq
    rfl
  | cons b s ih =>
    rw [segments] at eq
    split at eq
    · rename_i start
      cases eq
      cases later : segments s with
      | nil => exact absurd later (segments_ne_nil s)
      | cons x xs => rw [List.flatMap_cons, List.nil_append, List.cons_append, ← ih later, start]
    · split at eq
      · rename_i none
        exact absurd none (segments_ne_nil s)
      · rename_i x xs later
        cases eq
        rw [List.cons_append, ← ih later]

/-- A path from the current directory that is not empty. -/
structure Plain (p : Path) : Prop where
  filled : p.bytes ≠ []
  relative : p.isRooted = false

/-- A path stays in the current directory if no segment of it says anything. -/
theorem Plain.isCurrent_iff {p : Path} (plain : p.Plain) : p.isCurrent ↔ p.steps = [] := by
  constructor
  · intro current
    exact (steps_of_isCurrent current).1
  · intro none
    rw [steps, ← map_spelling, List.map_eq_nil_iff] at none
    have whole : p.components = p.leading := by rw [components_eq plain.relative, none, List.append_nil]
    cases eq : segments p.bytes with
    | nil => exact absurd eq (segments_ne_nil _)
    | cons first rest =>
      have filled := filled_of_segments eq plain.filled plain.relative
      have silent : component? first = .none := by
        rw [eq, List.filterMap_eq_nil_iff] at none
        exact none first List.mem_cons_self
      have lone : first = [dot] := (component?_eq_none_iff.1 silent).resolve_left filled
      rw [isCurrent, whole, leading, eq, lone]
      rfl

theorem step_sublist (here : Path) (segment : List UInt8) :
    List.Sublist (here.step segment).bytes (here.bytes ++ slash :: segment) := by
  have alone : List.Sublist segment (here.bytes ++ slash :: segment) :=
    (List.sublist_cons_self _ _).trans (List.sublist_append_right _ _)
  rw [step]
  split
  · exact alone
  · rw [join]
    split
    · exact alone
    · split
      · exact (List.sublist_cons_self _ _).append_left _
      · exact List.Sublist.refl _

/-- Segments of which some that say nothing are left out. -/
inductive Drops : List (List UInt8) → List (List UInt8) → Prop where
  | nil : Drops [] []
  | keep (segment : List UInt8) {kept parts : List (List UInt8)} (h : Drops kept parts) :
    Drops (segment :: kept) (segment :: parts)
  | drop {segment : List UInt8} (silent : component? segment = none) {kept parts : List (List UInt8)}
    (h : Drops kept parts) : Drops kept (segment :: parts)

namespace Drops

variable {kept parts more : List (List UInt8)}

theorem refl (parts : List (List UInt8)) : Drops parts parts := by
  induction parts with
  | nil => exact nil
  | cons segment parts ih => exact keep segment ih

theorem append_left (h : Drops kept parts) (front : List (List UInt8)) : Drops (front ++ kept) (front ++ parts) := by
  induction front with
  | nil => exact h
  | cons segment front ih => exact keep segment ih

theorem append_right (h : Drops kept parts) (more : List (List UInt8)) : Drops (kept ++ more) (parts ++ more) := by
  induction h with
  | nil => exact refl more
  | keep segment _ ih => exact keep segment ih
  | drop silent _ ih => exact drop silent ih

theorem trans (h : Drops kept parts) (k : Drops parts more) : Drops kept more := by
  induction k generalizing kept with
  | nil => exact h
  | keep segment k ih =>
    cases h with
    | keep _ h => exact keep segment (ih h)
    | drop silent h => exact drop silent (ih h)
  | drop silent k ih => exact drop silent (ih h)

/-- Segments that say nothing may all be left out. -/
theorem of_silent (silent : ∀ segment ∈ parts, component? segment = none) (more : List (List UInt8)) :
    Drops more (parts ++ more) := by
  induction parts with
  | nil => exact refl more
  | cons segment parts ih =>
    obtain ⟨first, rest⟩ := List.forall_mem_cons.1 silent
    exact drop first (ih rest)

end Drops

theorem silent_of_steps {p : Path} (h : p.steps = []) : ∀ segment ∈ segments p.bytes, component? segment = none := by
  intro segment mem
  have kept := List.filter_eq_nil_iff.1 h segment mem
  simpa using kept

/-- One segment further, a path has the segments it had and one more, but for some that say nothing. -/
theorem segments_step {here : Path} (filled : here.bytes ≠ []) {segment : List UInt8} (clear : slash ∉ segment) :
    ∃ kept, segments (here.step segment).bytes = kept ++ [segment] ∧ Drops kept (segments here.bytes) := by
  rw [step]
  split
  · rename_i current
    refine ⟨[], segments_of_not_mem clear, ?_⟩
    simpa using Drops.of_silent (silent_of_steps (steps_of_isCurrent current).1) []
  · obtain ⟨parts, eq, ⟨none, -⟩ | ⟨-, before⟩⟩ := segments_join (p := here) clear
    · exact absurd none filled
    · refine ⟨parts, eq, ?_⟩
      rcases before with same | closed
      · rw [same]
        exact .refl parts
      · rw [closed]
        have silent : ∀ segment ∈ ([[]] : List (List UInt8)), component? segment = none := by decide
        simpa using (Drops.of_silent silent []).append_left parts

theorem drops_step {here : Path} (filled : here.bytes ≠ []) {segment : List UInt8} (clear : slash ∉ segment) :
    Drops (segments (here.step segment).bytes) (segments here.bytes ++ [segment]) := by
  obtain ⟨kept, eq, drops⟩ := segments_step filled clear
  rw [eq]
  exact drops.append_right [segment]

theorem filled_step {here : Path} (filled : here.bytes ≠ []) {segment : List UInt8}
    (moves : ¬(here.isCurrent ∧ segment = [])) : (here.step segment).bytes ≠ [] := by
  rw [step]
  split
  · rename_i current
    exact fun none => moves ⟨current, none⟩
  · rw [join]
    split
    · rename_i rooted
      intro none
      rw [isRooted, none] at rooted
      cases rooted
    · split
      · exact List.append_ne_nil_of_left_ne_nil filled _
      · exact List.append_ne_nil_of_left_ne_nil filled _

theorem isRooted_step {here : Path} (filled : here.bytes ≠ []) {segment : List UInt8} (clear : slash ∉ segment) :
    (here.step segment).isRooted = here.isRooted := by
  rw [step]
  split
  · rename_i current
    rw [(steps_of_isCurrent current).2]
    exact not_isRooted_of_not_mem clear
  · exact isRooted_join filled clear

/-- One segment further, unless that leads nowhere. -/
def step? (here : Path) (segment : List UInt8) : Option Path :=
  if here.isCurrent ∧ segment = [] then none else some (here.step segment)

theorem foldlM_step?_cons {here : Path} {segment : List UInt8} (moves : ¬(here.isCurrent ∧ segment = []))
    (segments : List (List UInt8)) :
    (segment :: segments).foldlM step? here = segments.foldlM step? (here.step segment) := by
  rw [List.foldlM_cons, step?, if_neg moves]
  rfl

/-- A path that is gone along segment by segment, as it is spelled in the end. -/
theorem foldlM_step?_spec {here d : Path} (filled : here.bytes ≠ []) {parts : List (List UInt8)}
    (clear : ∀ segment ∈ parts, slash ∉ segment) (h : parts.foldlM step? here = some d) :
    d.bytes ≠ [] ∧ d.isRooted = here.isRooted ∧ Drops (segments d.bytes) (segments here.bytes ++ parts) ∧
      List.Sublist d.bytes (here.bytes ++ parts.flatMap (slash :: ·)) := by
  induction parts generalizing here with
  | nil =>
    cases h
    exact ⟨filled, rfl, by simpa using Drops.refl _, by simp⟩
  | cons segment parts ih =>
    obtain ⟨first, rest⟩ := List.forall_mem_cons.1 clear
    by_cases moves : here.isCurrent ∧ segment = []
    · rw [List.foldlM_cons, step?, if_pos moves] at h
      cases h
    · rw [foldlM_step?_cons moves] at h
      obtain ⟨final, rooted, drops, short⟩ := ih (filled_step filled moves) rest h
      refine ⟨final, rooted.trans (isRooted_step filled first), ?_, ?_⟩
      · rw [List.append_cons]
        exact drops.trans ((drops_step filled first).append_right parts)
      · rw [List.flatMap_cons, ← List.append_assoc]
        exact short.trans ((step_sublist here segment).append_right _)

theorem Drops.filter {kept parts : List (List UInt8)} (h : Drops kept parts) :
    (kept.filter fun segment => (component? segment).isSome) = parts.filter fun segment => (component? segment).isSome := by
  induction h with
  | nil => rfl
  | keep segment _ ih => simp only [List.filter_cons, ih]
  | drop silent _ ih => rw [ih, List.filter_cons_of_neg (by simp [silent])]

/-- One segment further is still nowhere if the path is nowhere yet and the segment says nothing. -/
theorem isCurrent_step {here : Path} (filled : here.bytes ≠ []) {segment : List UInt8} (clear : slash ∉ segment)
    (moves : ¬(here.isCurrent ∧ segment = [])) :
    (here.step segment).isCurrent ↔ here.isCurrent ∧ component? segment = none := by
  cases rooted : here.isRooted with
  | true =>
    constructor
    · intro current
      have relative := (steps_of_isCurrent current).2
      rw [isRooted_step filled clear, rooted] at relative
      cases relative
    · rintro ⟨current, -⟩
      rw [(steps_of_isCurrent current).2] at rooted
      cases rooted
  | false =>
    have plain : here.Plain := ⟨filled, rooted⟩
    have next : (here.step segment).Plain := ⟨filled_step filled moves, (isRooted_step filled clear).trans rooted⟩
    rw [next.isCurrent_iff, plain.isCurrent_iff, steps, (drops_step filled clear).filter, List.filter_append,
      List.append_eq_nil_iff]
    apply and_congr_right
    intro _
    simp

/-- Going along segments leads nowhere if an empty one comes while only dots were said. -/
theorem foldlM_step?_eq_none_iff {here : Path} (filled : here.bytes ≠ []) {parts : List (List UInt8)}
    (clear : ∀ segment ∈ parts, slash ∉ segment) :
    parts.foldlM step? here = none ↔
      here.isCurrent ∧ ∃ count rest, parts = List.replicate count [dot] ++ [] :: rest := by
  induction parts generalizing here with
  | nil => simp
  | cons segment parts ih =>
    obtain ⟨first, rest⟩ := List.forall_mem_cons.1 clear
    by_cases moves : here.isCurrent ∧ segment = []
    · obtain ⟨current, rfl⟩ := moves
      rw [List.foldlM_cons, step?, if_pos ⟨current, rfl⟩]
      exact iff_of_true rfl ⟨current, 0, parts, rfl⟩
    · rw [foldlM_step?_cons moves, ih (filled_step filled moves) rest, isCurrent_step filled first moves]
      constructor
      · rintro ⟨⟨current, silent⟩, count, tail, rfl⟩
        rcases component?_eq_none_iff.1 silent with rfl | rfl
        · exact absurd ⟨current, rfl⟩ moves
        · exact ⟨current, count + 1, tail, rfl⟩
      · rintro ⟨current, count, tail, eq⟩
        cases count with
        | zero =>
          cases eq
          exact absurd ⟨current, rfl⟩ moves
        | succ count =>
          cases eq
          exact ⟨⟨current, rfl⟩, count, tail, rfl⟩

/-- Where a path is after its first segment when it is gone along segment by segment. -/
theorem exists_begun {p : Path} (filled : p.bytes ≠ []) :
    ∃ begun rest, begun.bytes ≠ [] ∧ begun.isRooted = p.isRooted ∧
      (p.isRooted = false → segments begun.bytes = [begun.bytes]) ∧ segments begun.bytes ++ rest = segments p.bytes ∧
      begun.bytes ++ rest.flatMap (slash :: ·) = p.bytes ∧ p.spelled? = rest.foldlM step? begun := by
  cases eq : segments p.bytes with
  | nil => exact absurd eq (segments_ne_nil _)
  | cons first rest =>
    have whole := eq_append_flatMap eq
    have clear : slash ∉ first := not_mem_of_mem_segments (eq ▸ List.mem_cons_self)
    cases rooted : p.isRooted with
    | false =>
      have named := filled_of_segments eq filled rooted
      have alone := segments_of_not_mem clear
      -- the dot from which the way starts is not kept
      have lone : step ⟨[dot]⟩ first = ⟨first⟩ := if_pos (by decide)
      refine ⟨⟨first⟩, rest, named, not_isRooted_of_not_mem clear, fun _ => alone, by rw [alone]; rfl, whole.symm, ?_⟩
      have spelled : p.spelled? = (first :: rest).foldlM step? ⟨[dot]⟩ := by
        rw [spelled?, front, further, rooted, eq]
        rfl
      rw [spelled, foldlM_step?_cons (fun moves => named moves.2), lone]
    | true =>
      have blank : first = [] := by
        have head := head?_of_isRooted rooted
        rw [eq] at head
        exact Option.some.inj head
      subst blank
      cases rest with
      | nil =>
        rw [List.nil_append, List.flatMap_nil] at whole
        exact absurd whole filled
      | cons second rest =>
        have mem : second ∈ segments p.bytes := by
          rw [eq]
          exact .tail _ (.head _)
        have clear' : slash ∉ second := not_mem_of_mem_segments mem
        have next : step ⟨[slash]⟩ second = ⟨slash :: second⟩ := by
          have moves : ¬(⟨[slash]⟩ : Path).isCurrent = true := by decide
          rw [step, if_neg moves, join, if_neg (by simp [not_isRooted_of_not_mem clear']), if_pos (.inr rfl)]
          rfl
        have segs : segments (slash :: second) = [[], second] := by
          rw [segments, if_pos rfl, segments_of_not_mem clear']
        refine ⟨⟨slash :: second⟩, rest, List.cons_ne_nil _ _, rfl, fun plain => absurd plain (by decide),
          by rw [segs]; rfl, ?_, ?_⟩
        · rw [whole, List.flatMap_cons]
          simp
        · have spelled : p.spelled? = (second :: rest).foldlM step? ⟨[slash]⟩ := by
            rw [spelled?, front, further, rooted, eq]
            rfl
          have moves : ¬((⟨[slash]⟩ : Path).isCurrent = true ∧ second = []) := fun lone => absurd lone.1 (by decide)
          rw [spelled, foldlM_step?_cons moves, next]

/-- A path is not spelled if it starts with nothing but dots and an empty segment after them. -/
theorem spelled?_eq_none_iff {p : Path} (filled : p.bytes ≠ []) :
    p.spelled? = none ↔
      p.isRooted = false ∧ ∃ count rest, segments p.bytes = List.replicate count [dot] ++ [] :: rest := by
  obtain ⟨begun, rest, named, start, alone, eq, -, spelled⟩ := exists_begun filled
  have clear : ∀ segment ∈ rest, slash ∉ segment := by
    intro segment mem
    exact not_mem_of_mem_segments (eq ▸ List.mem_append_right _ mem)
  rw [spelled, foldlM_step?_eq_none_iff named clear]
  cases rooted : p.isRooted with
  | true =>
    refine iff_of_false ?_ (by simp)
    rintro ⟨current, -⟩
    rw [(steps_of_isCurrent current).2, rooted] at start
    cases start
  | false =>
    have alone := alone rooted
    have plain : begun.Plain := ⟨named, start.trans rooted⟩
    have lone : begun.isCurrent ↔ begun.bytes = [dot] := by
      rw [plain.isCurrent_iff, steps, alone]
      simp [component?_eq_none_iff, named]
    rw [← eq, alone, lone]
    constructor
    · rintro ⟨dots, count, tail, rfl⟩
      exact ⟨rfl, count + 1, tail, by rw [dots]; rfl⟩
    · rintro ⟨-, count, tail, same⟩
      cases count with
      | zero => exact absurd (List.cons.inj same).1 named
      | succ count =>
        obtain ⟨dots, rfl⟩ := List.cons.inj same
        exact ⟨dots, count, tail, rfl⟩

/-- A path that is spelled starts where the path starts, says the same and gets no longer. -/
theorem spelled?_spec {p d : Path} (filled : p.bytes ≠ []) (h : p.spelled? = some d) :
    d.bytes ≠ [] ∧ d.isRooted = p.isRooted ∧ Drops (segments d.bytes) (segments p.bytes) ∧
      List.Sublist d.bytes p.bytes := by
  obtain ⟨begun, rest, named, start, -, eq, whole, spelled⟩ := exists_begun filled
  have clear : ∀ segment ∈ rest, slash ∉ segment := by
    intro segment mem
    exact not_mem_of_mem_segments (eq ▸ List.mem_append_right _ mem)
  rw [spelled] at h
  obtain ⟨final, rooted, drops, short⟩ := foldlM_step?_spec named clear h
  rw [eq] at drops
  rw [whole] at short
  exact ⟨final, rooted.trans start, drops, short⟩

example : (ofString "a//b/./c").spelled? = some (ofString "a/b/./c") := by decide

end CycleChart.Path
