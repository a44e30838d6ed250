import CycleChart.Files.Walk
import CycleChart.Proofs.Results

namespace CycleChart.Tree

open Node

variable {L : Type}

/-- One step along a path, told by what lies where. -/
def enterAt (t : Tree L) (l : Location) (segment : Name) : Except FileError Location :=
  if t.get? l = some .directory then
    if segment = [] then .ok l
    else if (t.rights l).search = false then .error .accessDenied
    else if segment = [Path.dot] then .ok l
    else if segment = [Path.dot, Path.dot] then .ok l.dropLast
    else if longestName < segment.length then .error .nameTooLong
    else if (t.get? (l ++ [segment])).isSome then .ok (l ++ [segment])
    else .error .noEntry
  else .error .notDirectory

theorem get?_of_leads {t : Tree L} {w : Way L} (h : w.Leads t.root) :
    t.get? w.location = some (w.stop t.root).entry := by
  rw [get?, Way.get?_location h]
  rfl

/-- What a directory at the end of a way holds is what lies one step further. -/
theorem get?_child {t : Tree L} {w : Way L} (h : w.Leads t.root) {inside : Children L}
    (here : w.stop t.root = .directory inside) (name : Name) :
    t.get? (w.location ++ [name]) = (lookupEntry name inside).map entry := by
  rw [get?, get?_append, Way.get?_location h, here, Option.bind_some, Node.get?, find?]
  cases lookupEntry name inside <;> rfl

theorem get?_of_below {t : Tree L} {l rest : Location} (h : t.get? (l ++ rest) ≠ none) (more : rest ≠ []) :
    t.get? l = some .directory := by
  rw [get?, Node.get?_append] at h
  rw [get?]
  cases here : t.root.get? l with
  | none =>
    rw [here] at h
    exact absurd rfl h
  | some n =>
    rw [here, Option.bind_some] at h
    have there : n.get? rest ≠ none := fun none => h (congrArg (Option.map Node.entry) none)
    exact congrArg some (Node.entry_of_get? more there)

/-- What holds something is a directory. -/
theorem get?_of_child {t : Tree L} {l : Location} {name : Name} {e : Entry L} (held : t.get? (l ++ [name]) = some e) :
    t.get? l = some .directory :=
  get?_of_below (Option.ne_none_iff_exists'.2 ⟨e, held⟩) (List.cons_ne_nil name [])

theorem location_tail (w : Way L) : Way.location w.tail = w.location.dropLast := by
  cases w with
  | nil => rfl
  | cons step w => simp [Way.location]

theorem location_enter {t : Tree L} {w : Way L} (h : w.Leads t.root) (segment : Name) :
    (t.enter w segment).map Way.location = t.enterAt w.location segment := by
  have end_of_way := get?_of_leads h
  cases here : w.stop t.root with
  | file c =>
    rw [here] at end_of_way
    simp [enter, enterAt, here, end_of_way, entry, Except.map]
  | link target =>
    rw [here] at end_of_way
    simp [enter, enterAt, here, end_of_way, entry, Except.map]
  | directory inside =>
    rw [here] at end_of_way
    simp only [enter, enterAt, here, end_of_way, entry, if_true, get?_child h here]
    split
    · rfl
    · split
      · rfl
      · split
        · rfl
        · split
          · exact congrArg Except.ok (location_tail w)
          · split
            · rfl
            · cases lookupEntry segment inside with
              | none => rfl
              | some n => simp [Except.map, Way.location]

theorem segmentsOf_eq_ok {p : Path} {parts : List Name} (h : segmentsOf p = .ok parts) :
    parts = Path.segments p.bytes ∧ p.bytes ≠ [] := by
  unfold segmentsOf at h
  split at h
  · cases h
  · split at h
    · cases h
    · rename_i filled
      split at h
      · cases h
      · cases h
        exact ⟨rfl, filled⟩

section

variable [Links L]

/-- Where a path leads to. -/
def placeOf (t : Tree L) (p : Path) : Except FileError Location := (t.locate p).map Way.location

variable {links : Nat} {beyond : Way L → List Name → Except FileError (Way L × Nat)}

/-- One step to what is no link. -/
theorem along_of_solid {t : Tree L} {w v : Way L} {segment : Name} (step : t.enter w segment = .ok v)
    (solid : ∀ target, v.stop t.root ≠ .link target) (rest : List Name) :
    t.along links beyond w (segment :: rest) = t.along links beyond v rest := by
  rw [along, step]
  simp only [bind, Except.bind]

/-- One step to a link. -/
theorem along_of_link {t : Tree L} {w v : Way L} {segment : Name} (step : t.enter w segment = .ok v) {target : L}
    (stop : v.stop t.root = .link target) {parts : List Name} (legal : segmentsOf (Links.path target) = .ok parts)
    (rest : List Name) :
    t.along links beyond w (segment :: rest) = beyond (origin (Links.path target) v.tail) (parts ++ rest) := by
  rw [along, step]
  simp only [bind, Except.bind, stop, legal]

/-- Segments that lead somewhere go on from their first step, or from its link. -/
theorem along_cons_eq_ok {t : Tree L} {w : Way L} {segment : Name} {rest : List Name} {r : Way L × Nat}
    (h : t.along links beyond w (segment :: rest) = .ok r) :
    ∃ v, t.enter w segment = .ok v ∧
      ((∃ target parts, v.stop t.root = .link target ∧ segmentsOf (Links.path target) = .ok parts ∧
          beyond (origin (Links.path target) v.tail) (parts ++ rest) = .ok r) ∨
        (∀ target, v.stop t.root ≠ .link target) ∧ t.along links beyond v rest = .ok r) := by
  obtain ⟨v, step, h⟩ := bind_eq_ok h
  refine ⟨v, step, ?_⟩
  split at h
  · rename_i target stop
    obtain ⟨parts, legal, h⟩ := bind_eq_ok h
    exact .inl ⟨target, parts, stop, legal, h⟩
  · rename_i solid
    exact .inr ⟨solid, h⟩

theorem leads_along {t : Tree L} {left : Nat}
    (further : ∀ {w v : Way L} {parts : List Name} {left : Nat}, w.Leads t.root → beyond w parts = .ok (v, left) →
      v.Leads t.root)
    {parts : List Name} {w v : Way L} (h : w.Leads t.root) (walked : t.along links beyond w parts = .ok (v, left)) :
    v.Leads t.root := by
  induction parts generalizing w with
  | nil =>
    cases walked
    exact h
  | cons segment parts ih =>
    obtain ⟨u, step, ⟨target, segments, -, -, walked⟩ | ⟨-, walked⟩⟩ := along_cons_eq_ok walked
    · exact further (leads_origin _ (Way.leads_tail (leads_enter h step))) walked
    · exact ih (leads_enter h step) walked

theorem leads_follow {t : Tree L} {links left : Nat} {parts : List Name} {w v : Way L} (h : w.Leads t.root)
    (walked : t.follow links w parts = .ok (v, left)) : v.Leads t.root := by
  induction links generalizing parts w v left with
  | zero => exact leads_along (fun _ none => by cases none) h walked
  | succ links ih => exact leads_along (fun lead => ih lead) h walked

omit [Links L] in
theorem leads_begin (t : Tree L) (p : Path) : (origin p t.wayHere).Leads t.root := leads_origin p t.leads_wayHere

theorem locate_eq_ok {t : Tree L} {p : Path} {w : Way L} (h : t.locate p = .ok w) :
    ∃ parts left, segmentsOf p = .ok parts ∧ t.follow mostLinks (origin p t.wayHere) parts = .ok (w, left) := by
  obtain ⟨parts, legal, h⟩ := bind_eq_ok h
  obtain ⟨⟨v, left⟩, walked, same⟩ := bind_eq_ok h
  cases same
  exact ⟨parts, left, legal, walked⟩

theorem leads_locate {t : Tree L} {p : Path} {w : Way L} (h : t.locate p = .ok w) : w.Leads t.root := by
  obtain ⟨parts, left, -, walked⟩ := locate_eq_ok h
  exact leads_follow (t.leads_begin p) walked

theorem segmentsOf_of_placeOf {t : Tree L} {p : Path} {l : Location} (h : t.placeOf p = .ok l) :
    segmentsOf p = .ok (Path.segments p.bytes) := by
  cases found : t.locate p with
  | error e => simp [placeOf, found, Except.map] at h
  | ok w =>
    obtain ⟨parts, left, legal, -⟩ := locate_eq_ok found
    rw [legal, (segmentsOf_eq_ok legal).1]

/-- Where a path leads to, there is something. -/
theorem get?_of_locate {t : Tree L} {p : Path} {w : Way L} (h : t.locate p = .ok w) :
    t.placeOf p = .ok w.location ∧ t.get? w.location = some (w.stop t.root).entry :=
  ⟨by rw [placeOf, h]; rfl, get?_of_leads (leads_locate h)⟩

theorem locate_error {t : Tree L} {p : Path} {e : FileError} (h : t.locate p = .error e) : t.placeOf p = .error e := by
  rw [placeOf, h]
  rfl

theorem isDirectory_iff {t : Tree L} {p : Path} :
    t.isDirectory p ↔ ∃ l, t.placeOf p = .ok l ∧ t.get? l = some .directory := by
  cases found : t.locate p with
  | error e => simp [isDirectory, nodeAt?, found, locate_error found, Except.toOption]
  | ok w =>
    obtain ⟨place, here⟩ := get?_of_locate found
    cases node : w.stop t.root <;>
      simp [isDirectory, nodeAt?, found, place, here, node, entry, Except.toOption]

theorem isFile_iff {t : Tree L} {p : Path} :
    t.isFile p ↔ ∃ l c, t.placeOf p = .ok l ∧ t.get? l = some (.file c) := by
  cases found : t.locate p with
  | error e => simp [isFile, nodeAt?, found, locate_error found, Except.toOption]
  | ok w =>
    obtain ⟨place, here⟩ := get?_of_locate found
    cases node : w.stop t.root <;>
      simp [isFile, nodeAt?, found, place, here, node, entry, Except.toOption]

/-- A file is read if it may be. -/
theorem read_of_placeOf {t : Tree L} {p : Path} {l : Location} {c : Content} (place : t.placeOf p = .ok l)
    (here : t.get? l = some (.file c)) :
    t.read p = if (t.rights l).read = false then .error .accessDenied else .ok c.toBytes := by
  cases found : t.locate p with
  | error e => simp [locate_error found] at place
  | ok w =>
    obtain ⟨same, node⟩ := get?_of_locate found
    rw [same] at place
    cases place
    rw [node] at here
    cases stop : w.stop t.root with
    | directory inside => simp [stop, entry] at here
    | link target => simp [stop, entry] at here
    | file d =>
      obtain rfl : d = c := by simpa [stop, entry] using here
      simp only [read, found, bind, Except.bind, stop]
      split <;> rfl

/-- The names in a directory, if it may be read. -/
theorem names_of_placeOf {t : Tree L} {p : Path} {l : Location} (place : t.placeOf p = .ok l)
    (here : t.get? l = some .directory) :
    ∃ inside, t.root.get? l = some (.directory inside) ∧
      t.names p = if (t.rights l).read then .ok (inside.map (·.1)) else .error .accessDenied := by
  cases found : t.locate p with
  | error e => simp [locate_error found] at place
  | ok w =>
    obtain ⟨same, node⟩ := get?_of_locate found
    rw [same] at place
    cases place
    rw [node] at here
    cases stop : w.stop t.root with
    | file c => simp [stop, entry] at here
    | link target => simp [stop, entry] at here
    | directory inside =>
      refine ⟨inside, by rw [Way.get?_location (leads_locate found), stop], ?_⟩
      simp only [names, found, bind, Except.bind, stop]
      rfl

/-- Only a directory that may be read has its names listed. -/
theorem names_eq_ok {t : Tree L} {p : Path} {listed : List Name} (h : t.names p = .ok listed) :
    ∃ l inside, t.placeOf p = .ok l ∧ t.root.get? l = some (.directory inside) ∧ (t.rights l).read ∧
      listed = inside.map (·.1) := by
  obtain ⟨w, found, h⟩ := bind_eq_ok h
  split at h
  · rename_i inside stop
    split at h
    · rename_i readable
      cases h
      refine ⟨w.location, inside, (get?_of_locate found).1, ?_, readable, rfl⟩
      rw [Way.get?_location (leads_locate found), stop]
    · cases h
  · cases h

end

/-! Without links, paths lead along their segments. -/

/-- Where a path starts. -/
def start (t : Tree L) (p : Path) : Location := if p.isRooted then [] else t.here

theorem location_begin (t : Tree L) (p : Path) : Way.location (origin p t.wayHere) = t.start p := by
  rw [origin, start]
  split
  · rfl
  · exact t.location_wayHere

theorem get?_start (t : Tree L) (p : Path) : t.get? (t.start p) = some .directory := by
  rw [start]
  split
  · exact t.get?_nil
  · exact t.get?_here

theorem follow_eq (t : Tree Empty) (links : Nat) (w : Way Empty) (parts : List Name) :
    t.follow links w parts = (parts.foldlM t.enter w).map (·, links) := by
  have plain (beyond : Way Empty → List Name → Except FileError (Way Empty × Nat)) :
      t.along links beyond w parts = (parts.foldlM t.enter w).map (·, links) := by
    induction parts generalizing w with
    | nil => rfl
    | cons segment parts ih =>
      rw [along, List.foldlM_cons]
      cases t.enter w segment with
      | error e => rfl
      | ok v =>
        simp only [bind, Except.bind]
        split
        · exact Empty.elim ‹_›
        · exact ih v
  cases links with
  | zero => exact plain _
  | succ links => exact plain _

theorem location_foldlM {t : Tree L} {w : Way L} (h : w.Leads t.root) (segments : List Name) :
    (segments.foldlM t.enter w).map Way.location = segments.foldlM t.enterAt w.location := by
  induction segments generalizing w with
  | nil => rfl
  | cons segment segments ih =>
    have step := location_enter h segment
    rw [List.foldlM_cons, List.foldlM_cons, ← step]
    cases entered : t.enter w segment with
    | error e => rfl
    | ok v => exact ih (leads_enter h entered)

theorem placeOf_eq (t : Tree Empty) (p : Path) :
    t.placeOf p = (do (← segmentsOf p).foldlM t.enterAt (t.start p)) := by
  rw [placeOf, locate]
  cases segmentsOf p with
  | error e => rfl
  | ok parts =>
    show Except.map Way.location (t.follow mostLinks (origin p t.wayHere) parts >>= fun r => .ok r.1) = _
    show _ = parts.foldlM t.enterAt (t.start p)
    rw [follow_eq, ← location_begin, ← location_foldlM (t.leads_begin p)]
    cases parts.foldlM t.enter (origin p t.wayHere) <;> rfl

/-- Where a path could lead to, told by what lies where: a directory, a name in it, what is there now, and whether slashes
follow the name. -/
structure Goal where
  directory : Location
  name : Name
  present : Option (Entry Empty)
  slashed : Bool

def Goal.isDots (g : Goal) : Bool := g.name = [] || g.name = [Path.dot] || g.name = [Path.dot, Path.dot]

/-- A path to something new, told by what lies where. -/
def goalOf (t : Tree Empty) (p : Path) : Except FileError Goal := do
  let parts ← segmentsOf p
  let kept := (parts.reverse.dropWhile (· = [])).reverse
  let l ← kept.dropLast.foldlM t.enterAt (t.start p)
  let name := kept.getLast?.getD []
  if t.get? l = some .directory then
    if name ≠ [] ∧ (t.rights l).search = false then .error .accessDenied
    else .ok ⟨l, name, t.get? (l ++ [name]), kept.length < parts.length⟩
  else .error .notDirectory

/-- What a target is, told by what lies where. -/
def Target.goal (g : Target Empty) : Goal := ⟨g.directory.location, g.name, g.present.map entry, g.slashed⟩

theorem goal_aim (t : Tree Empty) (links : Nat) {p : Path} {parts : List Name} (legal : segmentsOf p = .ok parts) :
    (t.aim links (origin p t.wayHere) parts).map (fun r => r.1.goal) = t.goalOf p := by
  rw [aim, goalOf, legal]
  simp only [bind, Except.bind, follow_eq]
  rw [← location_begin, ← location_foldlM (t.leads_begin p)]
  cases walked : ((parts.reverse.dropWhile (· = [])).reverse.dropLast).foldlM t.enter (origin p t.wayHere) with
  | error e => rfl
  | ok w =>
    have follows : t.follow 0 (origin p t.wayHere) (parts.reverse.dropWhile (· = [])).reverse.dropLast = .ok (w, 0) := by
      rw [follow_eq, walked]
      rfl
    have leads : w.Leads t.root := leads_follow (t.leads_begin p) follows
    have end_of_way := get?_of_leads leads
    simp only [Except.map]
    cases here : w.stop t.root with
    | file c =>
      rw [here] at end_of_way
      simp [end_of_way, entry, throw, throwThe, MonadExceptOf.throw]
    | link target => exact target.elim
    | directory inside =>
      rw [here] at end_of_way
      simp only [end_of_way, entry, if_true, get?_child leads here]
      by_cases barred : ((parts.reverse.dropWhile (· = [])).reverse.getLast?.getD []) ≠ [] ∧
          (t.rights w.location).search = false
      · rw [if_pos barred, if_pos barred]
        rfl
      · rw [if_neg barred, if_neg barred]
        rfl

theorem makeDirectory_eq (t : Tree Empty) (p : Path) : t.makeDirectory p = (do
    let g ← t.goalOf p
    if g.isDots then .error .alreadyExists
    else if longestName < g.name.length then .error .nameTooLong
    else if g.present.isSome then .error .alreadyExists
    else if (t.rights g.directory).write = false then .error .accessDenied
    else .ok (t.insert g.directory g.name .directory)) := by
  rw [makeDirectory]
  cases legal : segmentsOf p with
  | error e => simp [goalOf, legal, bind, Except.bind]
  | ok parts =>
    rw [← t.goal_aim mostLinks legal]
    simp only [bind, Except.bind]
    cases t.aim mostLinks (origin p t.wayHere) parts with
    | error e => rfl
    | ok r =>
      simp only [Except.map, Target.goal, Goal.isDots, Target.isDots, Option.isSome_map]
      rfl

theorem opened_eq (t : Tree Empty) (p : Path) : t.opened p = (do
    let g ← t.goalOf p
    let changed := if g.present.isSome then g.directory ++ [g.name] else g.directory
    if g.isDots || g.slashed then .error .isDirectory
    else if longestName < g.name.length then .error .nameTooLong
    else if g.present = some .directory then .error .isDirectory
    else if (t.rights changed).write = false then .error .accessDenied
    else .ok (g.directory, g.name)) := by
  rw [opened]
  cases legal : segmentsOf p with
  | error e => simp [goalOf, legal, bind, Except.bind]
  | ok parts =>
    rw [← t.goal_aim mostLinks legal]
    simp only [bind, Except.bind, aimThrough]
    cases t.aim mostLinks (origin p t.wayHere) parts with
    | error e => rfl
    | ok r =>
      have none : r.1.link? = none := by
        rw [Target.link?]
        split
        · exact Empty.elim ‹_›
        · rfl
      simp only [Except.map, none, Target.goal, Goal.isDots, Target.isDots, Option.isSome_map]
      rfl

end CycleChart.Tree
