import CycleChart.Proofs.Files.Places
import CycleChart.Proofs.Path.Segments

namespace CycleChart.Tree

variable {t u v : Tree Empty}

/-- A place whose name ends as the names of charts do. -/
def IsPicture (l : Location) : Prop := (Path.ofString ".png").bytes <:+ l.getLast?.getD []

/-- What is in a tree is in the other, except for pictures. -/
structure Keeps (t u : Tree Empty) : Prop where
  setting : u.toSetting = t.toSetting
  solid : ∀ l e, t.get? l = some e → e = .directory ∨ ¬IsPicture l → u.get? l = some e

/-- What is in a tree is in the other. -/
structure Extended (t u : Tree Empty) : Prop where
  setting : u.toSetting = t.toSetting
  all : ∀ l e, t.get? l = some e → u.get? l = some e

/-- Two trees differ at most by pictures that were written into directories that take them. -/
structure Repainted (t u : Tree Empty) : Prop where
  setting : u.toSetting = t.toSetting
  directories : ∀ l, u.get? l = some .directory ↔ t.get? l = some .directory
  others : ∀ l, ¬IsPicture l → u.get? l = t.get? l
  kept : ∀ l, t.get? l ≠ none → u.get? l ≠ none
  taken : ∀ l name, t.get? (l ++ [name]) = none → u.get? (l ++ [name]) ≠ none → (t.rights l).write = true

theorem Keeps.rights (h : Keeps t u) : u.rights = t.rights := congrArg Setting.rights h.setting

theorem Repainted.rights (h : Repainted t u) : u.rights = t.rights := congrArg Setting.rights h.setting

theorem start_of_setting (h : u.toSetting = t.toSetting) (p : Path) : u.start p = t.start p := by
  rw [start, start, congrArg Setting.here h]

theorem Keeps.trans (h : Keeps t u) (k : Keeps u v) : Keeps t v where
  setting := k.setting.trans h.setting
  solid l e there solid := k.solid l e (h.solid l e there solid) solid

theorem Extended.refl (t : Tree Empty) : Extended t t := ⟨rfl, fun _ _ => id⟩

theorem Extended.trans (h : Extended t u) (k : Extended u v) : Extended t v :=
  ⟨k.setting.trans h.setting, fun l e there => k.all l e (h.all l e there)⟩

theorem Extended.keeps (h : Extended t u) : Keeps t u := ⟨h.setting, fun l e there _ => h.all l e there⟩

theorem Repainted.refl (t : Tree Empty) : Repainted t t :=
  ⟨rfl, fun _ => .rfl, fun _ _ => rfl, fun _ => id, fun _ _ none there => absurd none there⟩

theorem Repainted.keeps (h : Repainted t u) : Keeps t u where
  setting := h.setting
  solid := by
    intro l e there solid
    rcases solid with rfl | other
    · exact (h.directories l).2 there
    · rw [h.others l other, there]

theorem Repainted.trans (h : Repainted t u) (k : Repainted u v) : Repainted t v where
  setting := k.setting.trans h.setting
  directories l := (k.directories l).trans (h.directories l)
  others l other := (k.others l other).trans (h.others l other)
  kept l there := k.kept l (h.kept l there)
  taken := by
    intro l name none there
    by_cases before : u.get? (l ++ [name]) = .none
    · rw [← h.rights]
      exact k.taken l name before there
    · exact h.taken l name none before

/-! Paths lead to the same places. -/

theorem directory_of_foldlM {segments : List Name} {l m : Location} (h : segments.foldlM t.enterAt l = .ok m) :
    segments = [] ∧ m = l ∨ t.get? l = some .directory := by
  cases segments with
  | nil =>
    cases h
    exact .inl ⟨rfl, rfl⟩
  | cons segment segments =>
    obtain ⟨next, step, -⟩ := bind_eq_ok h
    refine .inr (Classical.byContradiction fun other => ?_)
    rw [enterAt, if_neg other] at step
    cases step

theorem Keeps.enterAt (h : Keeps t u) {l m : Location} {segment : Name} {e : Entry Empty}
    (step : t.enterAt l segment = .ok m) (there : t.get? m = some e) (solid : e = .directory ∨ ¬IsPicture m) :
    u.enterAt l segment = .ok m := by
  have here : t.get? l = some .directory := by
    apply Classical.byContradiction
    intro other
    rw [Tree.enterAt, if_neg other] at step
    cases step
  rw [Tree.enterAt, if_pos here] at step
  rw [Tree.enterAt, if_pos (h.solid l _ here (.inl rfl)), h.rights]
  -- only where something has to lie further on does it matter which tree it is
  have further : m = l ++ [segment] → (u.get? (l ++ [segment])).isSome := by
    rintro rfl
    rw [h.solid _ e there solid]
    rfl
  grind

theorem Keeps.foldlM (h : Keeps t u) {segments : List Name} {l m : Location} {e : Entry Empty}
    (walked : segments.foldlM t.enterAt l = .ok m) (there : t.get? m = some e) (solid : e = .directory ∨ ¬IsPicture m) :
    segments.foldlM u.enterAt l = .ok m := by
  induction segments generalizing l with
  | nil => exact walked
  | cons segment segments ih =>
    obtain ⟨next, step, walked⟩ := bind_eq_ok walked
    have same : u.enterAt l segment = .ok next := by
      rcases directory_of_foldlM walked with ⟨-, rfl⟩ | passed
      · exact h.enterAt step there solid
      · exact h.enterAt step passed (.inl rfl)
    rw [List.foldlM_cons, same]
    exact ih walked

theorem Keeps.placeOf (h : Keeps t u) {p : Path} {l : Location} {e : Entry Empty} (place : t.placeOf p = .ok l)
    (there : t.get? l = some e) (solid : e = .directory ∨ ¬IsPicture l) : u.placeOf p = .ok l := by
  rw [placeOf_eq] at place
  obtain ⟨segments, parts, walked⟩ := bind_eq_ok place
  rw [placeOf_eq, parts, start_of_setting h.setting]
  exact h.foldlM walked there solid

theorem Keeps.isDirectory (h : Keeps t u) {p : Path} (there : t.isDirectory p) : u.isDirectory p := by
  obtain ⟨l, place, here⟩ := isDirectory_iff.1 there
  exact isDirectory_iff.2 ⟨l, h.placeOf place here (.inl rfl), h.solid l _ here (.inl rfl)⟩

theorem Keeps.read (h : Keeps t u) {p : Path} {l : Location} {c : Content} (place : t.placeOf p = .ok l)
    (there : t.get? l = some (.file c)) (other : ¬IsPicture l) : u.read p = t.read p := by
  have there' := h.solid l _ there (.inr other)
  rw [read_of_placeOf place there, read_of_placeOf (h.placeOf place there (.inr other)) there', h.rights]

/-! Making directories. -/

theorem placeOf_eq_ok {p : Path} {l : Location} (h : t.placeOf p = .ok l) :
    p.bytes ≠ [] ∧ (Path.segments p.bytes).foldlM t.enterAt (t.start p) = .ok l := by
  rw [placeOf_eq] at h
  obtain ⟨parts, found, walked⟩ := bind_eq_ok h
  obtain ⟨rfl, filled⟩ := segmentsOf_eq_ok found
  exact ⟨filled, walked⟩

/-- What is kept of some segments is all up to the last one that is not empty. -/
theorem exists_last_filled {parts : List Name} {name : Name} (mem : name ∈ parts) (filled : name ≠ []) :
    ∃ front last count, last ≠ [] ∧ parts = front ++ last :: List.replicate count [] ∧
      (parts.reverse.dropWhile (· = [])).reverse = front ++ [last] := by
  have cut := List.takeWhile_append_dropWhile (p := fun s : Name => decide (s = [])) (l := parts.reverse)
  have blank : parts.reverse.takeWhile (· = []) = List.replicate (parts.reverse.takeWhile (· = [])).length [] := by
    refine List.eq_replicate_iff.2 ⟨rfl, fun s mem => ?_⟩
    simpa using List.all_eq_true.1 List.all_takeWhile s mem
  cases rest : parts.reverse.dropWhile (· = []) with
  | nil =>
    rw [rest, List.append_nil, blank] at cut
    have empty : name = [] := List.eq_of_mem_replicate (cut ▸ List.mem_reverse.2 mem)
    exact absurd empty filled
  | cons last back =>
    have head : last ≠ [] := by
      have := List.head_dropWhile_not (fun s : Name => decide (s = [])) (l := parts.reverse) (by simp [rest])
      simpa [rest] using this
    refine ⟨back.reverse, last, (parts.reverse.takeWhile (· = [])).length, head, ?_, by simp⟩
    rw [rest, blank] at cut
    have turned := congrArg List.reverse cut
    simpa using turned.symm

/-- Nothing is kept of segments that are all empty. -/
theorem exists_filled_of_kept {parts : List Name} {name : Name}
    (last : (parts.reverse.dropWhile (· = [])).reverse.getLast?.getD [] = name) (filled : name ≠ []) :
    ∃ segment ∈ parts, segment ≠ [] := by
  apply Classical.byContradiction
  intro blank
  have same : parts.reverse = List.replicate parts.reverse.length [] := by
    refine List.eq_replicate_iff.2 ⟨rfl, fun segment mem => ?_⟩
    apply Classical.byContradiction
    intro other
    exact blank ⟨segment, List.mem_reverse.1 mem, other⟩
  rw [same, List.dropWhile_replicate] at last
  exact filled last.symm

theorem foldlM_enterAt_replicate {l : Location} (here : t.get? l = some .directory) (count : Nat) :
    (List.replicate count []).foldlM t.enterAt l = .ok l := by
  induction count with
  | zero => rfl
  | succ count ih =>
    rw [List.replicate_succ, List.foldlM_cons, enterAt, if_pos here]
    exact ih

/-- A path with a name leads into a directory that may be searched. -/
theorem goalOf_eq_ok {p : Path} {g : Goal} (h : t.goalOf p = .ok g) (named : g.name ≠ []) :
    ∃ front count, segmentsOf p = .ok (front ++ g.name :: List.replicate count []) ∧
      front.foldlM t.enterAt (t.start p) = .ok g.directory ∧ t.get? g.directory = some .directory ∧
        (t.rights g.directory).search = true ∧ g.present = t.get? (g.directory ++ [g.name]) := by
  rw [goalOf] at h
  obtain ⟨parts, found, h⟩ := bind_eq_ok h
  obtain ⟨rfl, -⟩ := segmentsOf_eq_ok found
  obtain ⟨l, walked, h⟩ := bind_eq_ok h
  dsimp only at h
  split at h
  · rename_i here
    split at h
    · cases h
    · rename_i open'
      cases h
      obtain ⟨segment, mem, filled⟩ := exists_filled_of_kept rfl named
      obtain ⟨front, last, count, -, eq, kept⟩ := exists_last_filled mem filled
      simp only [kept, List.dropLast_concat, List.getLast?_concat, Option.getD_some, and_true] at named open' walked ⊢
      exact ⟨front, count, found.trans (congrArg _ eq), walked, here, by simpa [named] using open'⟩
  · cases h

theorem makeDirectory_eq_ok {p : Path} (h : t.makeDirectory p = .ok u) :
    ∃ g, t.goalOf p = .ok g ∧ g.isDots = false ∧ g.name.length ≤ longestName ∧ g.present = none ∧
      (t.rights g.directory).write = true ∧ u = t.insert g.directory g.name .directory := by
  rw [makeDirectory_eq] at h
  obtain ⟨g, found, h⟩ := bind_eq_ok h
  split at h
  · cases h
  · split at h
    · cases h
    · split at h
      · cases h
      · split at h
        · cases h
        · rename_i dots long taken barred
          cases h
          exact ⟨g, found, by simpa using dots, Nat.not_lt.1 long, by simpa using taken, by simpa using barred, rfl⟩

/-- A directory that is made is new, is where its path leads to, and changes nothing else. -/
theorem makeDirectory_places {p : Path} (h : t.makeDirectory p = .ok u) :
    u.toSetting = t.toSetting ∧ ∃ l, u.placeOf p = .ok l ∧ t.get? l = none ∧
      ∀ m, u.get? m = if m = l then some .directory else t.get? m := by
  obtain ⟨g, found, dots, long, free, -, rfl⟩ := makeDirectory_eq_ok h
  simp only [Goal.isDots, Bool.or_eq_false_iff, decide_eq_false_iff_not] at dots
  obtain ⟨front, count, parts, walked, here, search, present⟩ := goalOf_eq_ok found dots.1.1
  rw [free] at present
  have set := t.toSetting_insert g.directory g.name .directory
  have other : t.get? (g.directory ++ [g.name]) ≠ some .directory := by simp [← present]
  have inserted := get?_insert here other .directory
  have extended : Extended t (t.insert g.directory g.name .directory) := by
    refine ⟨set, fun l e there => ?_⟩
    rw [inserted, if_neg, there]
    rintro rfl
    rw [← present] at there
    cases there
  have new : (t.insert g.directory g.name .directory).get? (g.directory ++ [g.name]) = some .directory := by
    rw [inserted, if_pos rfl]
  refine ⟨set, g.directory ++ [g.name], ?_, present.symm, inserted⟩
  have step : (t.insert g.directory g.name .directory).enterAt g.directory g.name = .ok (g.directory ++ [g.name]) := by
    rw [enterAt, if_pos (extended.all _ _ here), if_neg dots.1.1, extended.keeps.rights, search, if_neg Bool.noConfusion,
      if_neg dots.1.2, if_neg dots.2, if_neg (Nat.not_lt.2 long), new]
    rfl
  rw [placeOf_eq, parts, start_of_setting set]
  simp only [bind, Except.bind, List.foldlM_append, List.foldlM_cons, extended.keeps.foldlM walked here (.inl rfl), step]
  exact foldlM_enterAt_replicate new count

theorem makeDirectory_spec {p : Path} (h : t.makeDirectory p = .ok u) : Extended t u ∧ u.isDirectory p := by
  obtain ⟨set, l, place, free, places⟩ := makeDirectory_places h
  constructor
  · refine ⟨set, fun m e there => ?_⟩
    rw [places, if_neg, there]
    rintro rfl
    rw [free] at there
    cases there
  · exact isDirectory_iff.2 ⟨l, place, by rw [places, if_pos rfl]⟩

/-! Writing pictures into a directory. -/

/-- Where a directory lies into which charts go. The empty path leads to the working directory. -/
def LiesAt (t : Tree Empty) (p : Path) (l : Location) : Prop :=
  t.get? l = some .directory ∧ (p.bytes = [] ∧ l = t.here ∨ t.placeOf p = .ok l)

theorem Keeps.liesAt (h : Keeps t u) {p : Path} {l : Location} (lies : t.LiesAt p l) : u.LiesAt p l := by
  refine ⟨h.solid _ _ lies.1 (.inl rfl), lies.2.imp ?_ fun place => h.placeOf place lies.1 (.inl rfl)⟩
  rintro ⟨empty, rfl⟩
  exact ⟨empty, (congrArg Setting.here h.setting).symm⟩

/-- The name of a chart. -/
structure IsChartName (name : Name) : Prop where
  clear : Path.slash ∉ name
  ends : (Path.ofString ".png").bytes <:+ name

theorem IsChartName.filled {name : Name} (h : IsChartName name) : name ≠ [] := by
  rintro rfl
  exact absurd h.ends (by decide)

theorem IsChartName.not_isDots {name : Name} (h : IsChartName name) (l : Location) (e : Option (Entry Empty))
    (b : Bool) : (Goal.mk l name e b).isDots = false := by
  have normal := Path.component?_of_ending h.ends (by decide)
  simp only [Goal.isDots, Bool.or_eq_false_iff, decide_eq_false_iff_not]
  refine ⟨⟨h.filled, ?_⟩, ?_⟩
  · rintro rfl
    cases normal
  · rintro rfl
    cases normal

theorem foldlM_enterAt_concat {parts : List Name} {name : Name} {l m : Location}
    (h : (parts ++ [name]).foldlM t.enterAt l = .ok m) :
    ∃ k, parts.foldlM t.enterAt l = .ok k ∧ t.enterAt k name = .ok m := by
  rw [List.foldlM_append] at h
  obtain ⟨k, walked, h⟩ := bind_eq_ok h
  obtain ⟨n, step, rest⟩ := bind_eq_ok h
  cases rest
  exact ⟨k, walked, step⟩

/-- An empty segment at the end leads no further. -/
theorem foldlM_enterAt_of_blank {parts : List Name} {l m : Location}
    (h : (parts ++ [[]]).foldlM t.enterAt l = .ok m) : parts.foldlM t.enterAt l = .ok m := by
  obtain ⟨k, walked, step⟩ := foldlM_enterAt_concat h
  rw [enterAt] at step
  split at step
  · cases step
    exact walked
  · cases step

theorem enterAt_normal_eq (t : Tree Empty) (k : Location) {name : Name}
    (normal : Path.component? name = some (.normal name)) :
    t.enterAt k name =
      if t.get? k = some .directory then
        if (t.rights k).search = false then .error .accessDenied
        else if longestName < name.length then .error .nameTooLong
        else if (t.get? (k ++ [name])).isSome then .ok (k ++ [name])
        else .error .noEntry
      else .error .notDirectory := by
  have filled : name ≠ [] := by
    rintro rfl
    cases normal
  have alone : name ≠ [Path.dot] := by
    rintro rfl
    cases normal
  have forward : name ≠ [Path.dot, Path.dot] := by
    rintro rfl
    cases normal
  rw [enterAt, if_neg filled, if_neg alone, if_neg forward]

/-- A segment that names something leads to it, if it leads anywhere. -/
theorem enterAt_normal_eq_ok {k l : Location} {name : Name} (normal : Path.component? name = some (.normal name)) :
    t.enterAt k name = .ok l ↔ t.get? k = some .directory ∧ (t.rights k).search = true ∧ name.length ≤ longestName ∧
      (t.get? l).isSome ∧ l = k ++ [name] := by
  rw [enterAt_normal_eq t k normal]
  constructor
  · intro step
    split at step
    · split at step
      · cases step
      · split at step
        · cases step
        · split at step
          · cases step
            rename_i here open' short there
            exact ⟨here, by simpa using open', Nat.not_lt.1 short, there, rfl⟩
          · cases step
    · cases step
  · rintro ⟨here, open', short, there, rfl⟩
    rw [if_pos here, if_neg (by simp [open']), if_neg (Nat.not_lt.2 short), if_pos there]

/-- The segments of a path into a directory lead to the directory, all but the last one. -/
theorem LiesAt.segments_join {p : Path} {l : Location} {name : Name} (lies : t.LiesAt p l) (clear : Path.slash ∉ name) :
    ∃ parts, Path.segments (p.join ⟨name⟩).bytes = parts ++ [name] ∧
      parts.foldlM t.enterAt (t.start (p.join ⟨name⟩)) = .ok l := by
  obtain ⟨parts, eq, before⟩ := Path.segments_join (p := p) clear
  refine ⟨parts, eq, ?_⟩
  rcases before with ⟨empty, rfl⟩ | ⟨filled, before⟩
  · rcases lies.2 with ⟨-, rfl⟩ | place
    · rw [start, Path.isRooted_join_of_empty empty clear]
      rfl
    · exact absurd empty (placeOf_eq_ok place).1
  · have place := lies.2.resolve_left fun none => filled none.1
    have whole := (placeOf_eq_ok place).2
    rw [start, Path.isRooted_join filled clear]
    rcases before with same | closed
    · exact same ▸ whole
    · rw [closed] at whole
      exact foldlM_enterAt_of_blank whole

theorem goalOf_join {p : Path} {l : Location} {name : Name} (lies : t.LiesAt p l) (chart : IsChartName name) :
    t.goalOf (p.join ⟨name⟩) = (segmentsOf (p.join ⟨name⟩)).bind fun _ =>
      if (t.rights l).search = false then .error .accessDenied
      else .ok ⟨l, name, t.get? (l ++ [name]), false⟩ := by
  obtain ⟨parts, eq, walked⟩ := lies.segments_join chart.clear
  rw [goalOf]
  cases found : segmentsOf (p.join ⟨name⟩) with
  | error e => rfl
  | ok segments =>
    obtain ⟨rfl, -⟩ := segmentsOf_eq_ok found
    have kept : ((parts ++ [name]).reverse.dropWhile (· = [])).reverse = parts ++ [name] := by simp [chart.filled]
    simp only [bind, Except.bind, eq, kept, List.dropLast_concat, List.getLast?_concat, Option.getD_some, walked,
      lies.1, if_true, Nat.lt_irrefl, decide_false, ne_eq, chart.filled, not_false_eq_true, true_and]

/-- What may be written to put something under a name: what is there, or the directory if nothing is. -/
def changedAt (t : Tree Empty) (l : Location) (name : Name) : Location :=
  if (t.get? (l ++ [name])).isSome then l ++ [name] else l

theorem opened_join {p : Path} {l : Location} {name : Name} (lies : t.LiesAt p l) (chart : IsChartName name) :
    t.opened (p.join ⟨name⟩) = (segmentsOf (p.join ⟨name⟩)).bind fun _ =>
      if (t.rights l).search = false then .error .accessDenied
      else if longestName < name.length then .error .nameTooLong
      else if t.get? (l ++ [name]) = some .directory then .error .isDirectory
      else if (t.rights (t.changedAt l name)).write = false then .error .accessDenied
      else .ok (l, name) := by
  rw [opened_eq, goalOf_join lies chart]
  cases segmentsOf (p.join ⟨name⟩) with
  | error e => rfl
  | ok parts =>
    simp only [bind, Except.bind]
    by_cases barred : (t.rights l).search = false
    · rw [if_pos barred, if_pos barred]
    · rw [if_neg barred, if_neg barred]
      simp only [chart.not_isDots, Bool.or_false, Bool.false_eq_true, if_false]
      rfl

theorem opened_join_eq_ok {p : Path} {l : Location} {name : Name} (lies : t.LiesAt p l) (chart : IsChartName name)
    {r : Location × Name} (h : t.opened (p.join ⟨name⟩) = .ok r) :
    r = (l, name) ∧ segmentsOf (p.join ⟨name⟩) = .ok (Path.segments (p.join ⟨name⟩).bytes) ∧
      (t.rights l).search = true ∧ name.length ≤ longestName ∧ t.get? (l ++ [name]) ≠ some .directory ∧
      (t.rights (t.changedAt l name)).write = true := by
  rw [opened_join lies chart] at h
  obtain ⟨parts, legal, h⟩ := bind_eq_ok h
  split at h
  · cases h
  · split at h
    · cases h
    · split at h
      · cases h
      · split at h
        · cases h
        · rename_i open' short free barred
          cases h
          exact ⟨rfl, legal.trans (congrArg _ (segmentsOf_eq_ok legal).1), by simpa using open', Nat.not_lt.1 short, free,
            by simpa using barred⟩

/-- Once a chart is written, its path leads to it. -/
theorem placeOf_join {p : Path} {l : Location} {name : Name} (lies : t.LiesAt p l) (chart : IsChartName name)
    {r : Location × Name} (opened : t.opened (p.join ⟨name⟩) = .ok r) (set : v.toSetting = t.toSetting)
    (lies' : v.LiesAt p l) (there : v.get? (l ++ [name]) ≠ none) : v.placeOf (p.join ⟨name⟩) = .ok (l ++ [name]) := by
  obtain ⟨-, legal, open', short, -, -⟩ := opened_join_eq_ok lies chart opened
  obtain ⟨parts, eq, walked⟩ := lies'.segments_join chart.clear
  have normal := Path.component?_of_ending chart.ends (by decide)
  have step : v.enterAt l name = .ok (l ++ [name]) := by
    rw [enterAt_normal_eq_ok normal, congrArg Setting.rights set]
    exact ⟨lies'.1, open', short, Option.isSome_iff_ne_none.2 there, rfl⟩
  rw [placeOf_eq, legal, eq]
  simp only [bind, Except.bind, List.foldlM_append, walked, List.foldlM_cons, step]
  rfl

/-- A picture that is written changes pictures only. -/
theorem repainted_insert {l : Location} {name : Name} (here : t.get? l = some .directory)
    (free : t.get? (l ++ [name]) ≠ some .directory) (taken : (t.rights (t.changedAt l name)).write = true)
    (picture : IsPicture (l ++ [name])) (c : Content) : Repainted t (t.insert l name (.file c)) where
  setting := t.toSetting_insert l name (.file c)
  directories := by
    intro other
    rw [get?_insert here free]
    split
    · subst_vars
      simp [free]
    · exact .rfl
  others := by
    intro other apart
    rw [get?_insert here free, if_neg]
    rintro rfl
    exact apart picture
  kept := by
    intro other there
    rw [get?_insert here free]
    split
    · nofun
    · exact there
  taken := by
    intro k other none there
    rw [get?_insert here free] at there
    split at there
    · rename_i same
      obtain ⟨rfl, rfl⟩ : k = l ∧ other = name := by simpa using same
      rw [changedAt, none] at taken
      exact taken
    · exact absurd none there

theorem IsChartName.isPicture {name : Name} (h : IsChartName name) (l : Location) : IsPicture (l ++ [name]) := by
  simpa [IsPicture] using h.ends

/-- What a file holds after something was written to it, if it could be opened. -/
def stored? (t : Tree Empty) (p : Path) (c : Content) : Option Content :=
  match t.opened p with
  | .ok (directory, name) => some (t.fill (directory ++ [name]) c).2
  | .error _ => none

/-- What may be written for a picture is the same, whatever other pictures there are. -/
theorem Repainted.write_changedAt (h : Repainted t u) (l : Location) (name : Name) :
    (u.rights (u.changedAt l name)).write = (t.rights (t.changedAt l name)).write := by
  rw [h.rights, changedAt, changedAt]
  cases before : t.get? (l ++ [name]) with
  | some e =>
    have later := h.kept (l ++ [name]) (by rw [before]; nofun)
    rw [Option.isSome_iff_ne_none.2 later]
    rfl
  | none =>
    cases later : u.get? (l ++ [name]) with
    | none => rfl
    | some e =>
      -- what is new may be written, and so may the directory that took it
      have new := h.taken l name before (by rw [later]; nofun)
      rw [Option.isSome_some, if_pos rfl, rights_of_none before]
      exact new.symm

theorem Repainted.opened_join (h : Repainted t u) {p : Path} {l : Location} {name : Name} (lies : t.LiesAt p l)
    (chart : IsChartName name) : u.opened (p.join ⟨name⟩) = t.opened (p.join ⟨name⟩) := by
  rw [Tree.opened_join lies chart, Tree.opened_join (h.keeps.liesAt lies) chart, h.write_changedAt, h.rights]
  simp only [h.directories]

theorem fill_of_setting (h : u.toSetting = t.toSetting) (l : Location) (c : Content) : u.fill l c = t.fill l c := by
  rw [fill, fill, congrArg Setting.capacity h]

/-- A chart is written as far, whatever other pictures there are. -/
theorem Repainted.write_join (h : Repainted t u) {p : Path} {l : Location} {name : Name} (lies : t.LiesAt p l)
    (chart : IsChartName name) (c : Content) :
    (u.write (p.join ⟨name⟩) c).1 = (t.write (p.join ⟨name⟩) c).1 ∧ Repainted t (u.write (p.join ⟨name⟩) c).2 ∧
      ∀ m, (u.write (p.join ⟨name⟩) c).2.get? m =
        if m = l ++ [name] then ((t.stored? (p.join ⟨name⟩) c).map .file).or (u.get? m) else u.get? m := by
  rw [write, write, stored?, h.opened_join lies chart]
  cases opened : t.opened (p.join ⟨name⟩) with
  | error e => exact ⟨rfl, h, fun m => by simp⟩
  | ok r =>
    obtain ⟨rfl, -, -, -, free, taken⟩ := opened_join_eq_ok lies chart opened
    have lies' := h.keeps.liesAt lies
    have free' : u.get? (l ++ [name]) ≠ some .directory := by rwa [ne_eq, h.directories]
    rw [← h.write_changedAt] at taken
    simp only [fill_of_setting h.setting, true_and]
    refine ⟨h.trans (repainted_insert lies'.1 free' taken (chart.isPicture l) _), fun m => ?_⟩
    rw [get?_insert lies'.1 free']
    split <;> simp

end CycleChart.Tree
