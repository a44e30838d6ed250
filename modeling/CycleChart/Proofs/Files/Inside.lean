import CycleChart.Proofs.Files.Places
import CycleChart.Proofs.Path.Spelling

namespace CycleChart.Tree

variable {L : Type} [Links L] {t : Tree L}

/-! Going on where some segments lead to. -/

theorem along_append {links left : Nat} {beyond : Way L → List Name → Except FileError (Way L × Nat)}
    (same : t.follow links = t.along links beyond)
    (further : ∀ {w v : Way L} {parts : List Name} {left : Nat}, beyond w parts = .ok (v, left) →
      ∀ more, beyond w (parts ++ more) = t.follow left v more)
    {parts : List Name} {w v : Way L} (walked : t.along links beyond w parts = .ok (v, left)) (more : List Name) :
    t.along links beyond w (parts ++ more) = t.follow left v more := by
  induction parts generalizing w with
  | nil =>
    cases walked
    rw [same]
    rfl
  | cons segment parts ih =>
    obtain ⟨u, step, ⟨target, segments, stop, legal, walked⟩ | ⟨solid, walked⟩⟩ := along_cons_eq_ok walked
    · rw [List.cons_append, along_of_link step stop legal, ← List.append_assoc]
      exact further walked more
    · rw [List.cons_append, along_of_solid step solid]
      exact ih walked

theorem follow_append {links left : Nat} {parts : List Name} {w v : Way L}
    (walked : t.follow links w parts = .ok (v, left)) (more : List Name) :
    t.follow links w (parts ++ more) = t.follow left v more := by
  induction links generalizing parts w v left more with
  | zero => exact along_append rfl (fun none => by cases none) walked more
  | succ links ih =>
    refine along_append rfl ?_ walked more
    exact fun walked more => ih walked more

/-! Leaving out segments that say nothing. -/

omit [Links L] in
theorem enter_of_silent {w v : Way L} {segment : Name} (silent : Path.component? segment = none)
    (step : t.enter w segment = .ok v) : v = w ∧ ∃ inside, w.stop t.root = .directory inside := by
  rw [enter] at step
  split at step
  · rename_i inside stop
    refine ⟨?_, inside, stop⟩
    rcases Path.component?_eq_none_iff.1 silent with rfl | rfl
    · cases step
      rfl
    · rw [if_neg (by decide)] at step
      split at step
      · cases step
      · cases step
        rfl
  · cases step

theorem along_drops {links left : Nat} {beyond : Way L → List Name → Except FileError (Way L × Nat)}
    (further : ∀ {w v : Way L} {kept parts : List Name} {left : Nat}, Path.Drops kept parts →
      beyond w parts = .ok (v, left) → beyond w kept = .ok (v, left))
    {kept parts : List Name} (drops : Path.Drops kept parts) {w v : Way L}
    (walked : t.along links beyond w parts = .ok (v, left)) : t.along links beyond w kept = .ok (v, left) := by
  induction drops generalizing w with
  | nil => exact walked
  | keep segment drops ih =>
    obtain ⟨u, step, ⟨target, segments, stop, legal, walked⟩ | ⟨solid, walked⟩⟩ := along_cons_eq_ok walked
    · rw [along_of_link step stop legal]
      exact further (drops.append_left segments) walked
    · rw [along_of_solid step solid]
      exact ih walked
  | drop silent drops ih =>
    obtain ⟨u, step, ⟨target, segments, stop, -, -⟩ | ⟨-, rest⟩⟩ := along_cons_eq_ok walked
    · obtain ⟨rfl, inside, directory⟩ := enter_of_silent silent step
      rw [directory] at stop
      cases stop
    · obtain ⟨rfl, -⟩ := enter_of_silent silent step
      exact ih rest

theorem follow_drops {links left : Nat} {kept parts : List Name} (drops : Path.Drops kept parts) {w v : Way L}
    (walked : t.follow links w parts = .ok (v, left)) : t.follow links w kept = .ok (v, left) := by
  induction links generalizing kept parts w v left with
  | zero => exact along_drops (fun _ none => by cases none) drops walked
  | succ links ih =>
    refine along_drops ?_ drops walked
    exact fun drops walked => ih drops walked

/-! Directories by their spelling. -/

theorem exists_segmentsOf_iff {p : Path} :
    (∃ parts, segmentsOf p = .ok parts) ↔ 0 ∉ p.bytes ∧ p.bytes ≠ [] ∧ p.bytes.length ≤ longestPath := by
  unfold segmentsOf
  split
  · simp [*]
  · split
    · simp [*]
    · split
      · simp [*]
      · simp_all

/-- A path leads to the same place when it is spelled segment by segment. -/
theorem locate_spelled {p directory : Path} {w : Way L} (found : t.locate p = .ok w)
    (spelled : p.spelled? = some directory) : t.locate directory = .ok w := by
  obtain ⟨parts, left, legal, walked⟩ := locate_eq_ok found
  obtain ⟨clear, filled, short⟩ := exists_segmentsOf_iff.1 ⟨_, legal⟩
  obtain ⟨rfl, -⟩ := segmentsOf_eq_ok legal
  obtain ⟨filled', rooted, drops, sublist⟩ := Path.spelled?_spec filled spelled
  have clear' : 0 ∉ directory.bytes := fun mem => clear (sublist.subset mem)
  have short' : directory.bytes.length ≤ longestPath := Nat.le_trans sublist.length_le short
  obtain ⟨parts, legal'⟩ := exists_segmentsOf_iff.2 ⟨clear', filled', short'⟩
  obtain ⟨rfl, -⟩ := segmentsOf_eq_ok legal'
  have begin' : origin directory t.wayHere = origin p t.wayHere := by rw [origin, rooted, origin]
  rw [locate, legal', begin']
  show (t.follow _ _ _ >>= fun r => .ok r.1) = _
  rw [follow_drops drops walked]
  rfl

theorem placeOf_spelled {p directory : Path} (there : t.isDirectory p) (spelled : p.spelled? = some directory) :
    t.placeOf directory = t.placeOf p := by
  obtain ⟨l, place, -⟩ := isDirectory_iff.1 there
  cases found : t.locate p with
  | error e => simp [locate_error found] at place
  | ok w => rw [placeOf, placeOf, found, locate_spelled found spelled]

/-! One step further from a directory. -/

/-- A path one step further goes on from where the directory is. -/
theorem locate_step {directory : Path} {name : Name} {w : Way L} (clear : Path.slash ∉ name)
    (found : t.locate directory = .ok w) :
    ∃ left, t.locate (directory.step name) =
      (segmentsOf (directory.step name)).bind fun _ => (t.follow left w [name]).map (·.1) := by
  obtain ⟨parts, left, legal, walked⟩ := locate_eq_ok found
  obtain ⟨rfl, filled⟩ := segmentsOf_eq_ok legal
  have start : origin (directory.step name) t.wayHere = origin directory t.wayHere := by
    rw [origin, Path.isRooted_step filled clear, origin]
  obtain ⟨kept, segs, drops⟩ := Path.segments_step filled clear
  refine ⟨left, ?_⟩
  rw [locate, start]
  cases legal' : segmentsOf (directory.step name) with
  | error e => rfl
  | ok parts =>
    rw [(segmentsOf_eq_ok legal').1, segs]
    show (t.follow _ _ (kept ++ [name]) >>= fun r => .ok r.1) = (t.follow left w [name]).map (·.1)
    rw [follow_append (follow_drops drops walked)]
    cases t.follow left w [name] <;> rfl

omit [Links L] in
theorem enter_normal {w : Way L} {inside : Children L} (stop : w.stop t.root = .directory inside) {name : Name}
    (normal : Path.component? name = some (.normal name)) {n : Node L} (held : lookupEntry name inside = some n) :
    t.enter w name =
      if (t.rights w.location).search = false then .error .accessDenied
      else if longestName < name.length then .error .nameTooLong
      else .ok ((name, n) :: w) := by
  have loud : ¬(name = [] ∨ name = [Path.dot]) := by
    intro silent
    rw [Path.component?_eq_none_iff.2 silent] at normal
    cases normal
  have forward : name ≠ [Path.dot, Path.dot] := by
    rintro rfl
    cases normal
  obtain ⟨filled, silent⟩ := not_or.1 loud
  rw [enter, stop]
  simp only [filled, silent, forward, if_false, held]

/-- One step, if it does not come to a link. -/
theorem follow_one (links : Nat) {w : Way L} {segment : Name}
    (solid : ∀ v target, t.enter w segment = .ok v → v.stop t.root ≠ .link target) :
    t.follow links w [segment] = (t.enter w segment).map (·, links) := by
  have one (beyond : Way L → List Name → Except FileError (Way L × Nat)) :
      t.along links beyond w [segment] = (t.enter w segment).map (·, links) := by
    cases step : t.enter w segment with
    | error e =>
      rw [along, step]
      rfl
    | ok v => exact along_of_solid step (fun target => solid v target step) []
  cases links with
  | zero => exact one _
  | succ links => exact one _

/-- What is no link is led to by the path one step further from its directory, if the directory may be searched and
neither the name nor the path is too long. -/
theorem placeOf_step_eq_ok_iff {directory : Path} {l m : Location} {name : Name} {e : Entry L} (clear : Path.slash ∉ name)
    (normal : Path.component? name = some (.normal name)) (place : t.placeOf directory = .ok l)
    (held : t.get? (l ++ [name]) = some e) (solid : ∀ target, e ≠ .link target) :
    t.placeOf (directory.step name) = .ok m ↔
      (∃ parts, segmentsOf (directory.step name) = .ok parts) ∧ (t.rights l).search ∧ name.length ≤ longestName ∧
        m = l ++ [name] := by
  cases found : t.locate directory with
  | error e => simp [locate_error found] at place
  | ok w =>
    obtain ⟨same, here⟩ := get?_of_locate found
    obtain rfl : w.location = l := Except.ok.inj (same.symm.trans place)
    rw [get?_of_child held, Option.some.injEq] at here
    obtain ⟨left, further⟩ := locate_step clear found
    cases stop : w.stop t.root with
    | file c => simp [stop, Node.entry] at here
    | link target => simp [stop, Node.entry] at here
    | directory inside =>
      rw [get?_child (leads_locate found) stop, Option.map_eq_some_iff] at held
      obtain ⟨n, held, rfl⟩ := held
      have step := enter_normal stop normal held
      have one : t.follow left w [name] = (t.enter w name).map (·, left) := by
        refine follow_one left fun v target entered link => ?_
        rw [step] at entered
        split at entered
        · cases entered
        · split at entered
          · cases entered
          · cases entered
            exact solid target (congrArg Node.entry link)
      rw [placeOf, further, one, step]
      cases segmentsOf (directory.step name) with
      | error e => simp [Except.bind, Except.map]
      | ok parts =>
        cases (t.rights w.location).search with
        | false => simp [Except.bind, Except.map]
        | true =>
          by_cases long : longestName < name.length
          · simp [Except.bind, Except.map, long, Nat.not_le.2 long]
          · simp [Except.bind, Except.map, long, Nat.not_lt.1 long, Way.location_cons, eq_comm]

/-- A file is led to by the path one step further from its directory. -/
theorem isFile_step_iff {directory : Path} {l : Location} {name : Name} {c : Content} (clear : Path.slash ∉ name)
    (normal : Path.component? name = some (.normal name)) (place : t.placeOf directory = .ok l)
    (held : t.get? (l ++ [name]) = some (.file c)) :
    t.isFile (directory.step name) ↔
      (∃ parts, segmentsOf (directory.step name) = .ok parts) ∧ (t.rights l).search ∧ name.length ≤ longestName := by
  rw [isFile_iff]
  constructor
  · rintro ⟨m, -, found, -⟩
    obtain ⟨legal, searched, short, -⟩ := (placeOf_step_eq_ok_iff clear normal place held nofun).1 found
    exact ⟨legal, searched, short⟩
  · rintro ⟨legal, searched, short⟩
    exact ⟨l ++ [name], c, (placeOf_step_eq_ok_iff clear normal place held nofun).2 ⟨legal, searched, short, rfl⟩, held⟩

/-- A directory is not led to as a file. -/
theorem not_isFile_step {directory : Path} {l : Location} {name : Name} (clear : Path.slash ∉ name)
    (normal : Path.component? name = some (.normal name)) (place : t.placeOf directory = .ok l)
    (held : t.get? (l ++ [name]) = some .directory) : ¬t.isFile (directory.step name) := by
  rw [isFile_iff]
  rintro ⟨m, c, found, file⟩
  obtain ⟨-, -, -, rfl⟩ := (placeOf_step_eq_ok_iff clear normal place held nofun).1 found
  rw [held] at file
  cases file

/-- The names in a directory are those under which something lies there. -/
theorem mem_names_iff {p : Path} {l : Location} {listed : List Name} (h : t.names p = .ok listed)
    (place : t.placeOf p = .ok l) {name : Name} : name ∈ listed ↔ t.get? (l ++ [name]) ≠ none := by
  obtain ⟨m, inside, place', there, -, rfl⟩ := names_eq_ok h
  obtain rfl : m = l := Except.ok.inj (place'.symm.trans place)
  rw [get?, Node.get?_append, there, Option.bind_some, Node.get?, Node.find?, ← lookupEntry_isSome_iff]
  cases lookupEntry name inside <;> simp [Node.get?]

/-- One step further from a directory, a path can be looked up unless it is too long. -/
theorem segmentsOf_step_iff {directory : Path} {l : Location} {name : Name} (place : t.placeOf directory = .ok l)
    (whole : 0 ∉ name) (filled : name ≠ []) :
    (∃ parts, segmentsOf (directory.step name) = .ok parts) ↔ (directory.step name).bytes.length ≤ longestPath := by
  obtain ⟨clear', named, -⟩ := exists_segmentsOf_iff.1 ⟨_, segmentsOf_of_placeOf place⟩
  have further : (directory.step name).bytes ≠ [] := Path.filled_step named fun moves => filled moves.2
  have whole' : 0 ∉ (directory.step name).bytes := by
    intro mem
    rcases List.mem_append.1 ((Path.step_sublist directory name).subset mem) with before | after
    · exact clear' before
    · rcases List.mem_cons.1 after with zero | later
      · cases zero
      · exact whole later
  rw [exists_segmentsOf_iff]
  exact ⟨fun h => h.2.2, fun short => ⟨whole', further, short⟩⟩

/-! Names as they may be. -/

section

omit [Links L]

/-- No name in a tree holds a slash. -/
def Named (t : Tree L) : Prop := ∀ l name, t.get? (l ++ [name]) ≠ none → Path.slash ∉ name

/-- The names in a tree hold no slash and no zero, and are not too long. -/
def Legal (t : Tree L) : Prop :=
  ∀ l name, t.get? (l ++ [name]) ≠ none → Path.slash ∉ name ∧ 0 ∉ name ∧ name.length ≤ longestName

theorem Legal.named (h : t.Legal) : t.Named := fun l name there => (h l name there).1

theorem legal_empty : (empty : Tree L).Legal := by
  intro l name there
  cases l <;> exact absurd rfl there

theorem Legal.insert (h : t.Legal) {directory : Location} {name : Name} (here : t.get? directory = some .directory)
    (free : t.get? (directory ++ [name]) ≠ some .directory)
    (legal : Path.slash ∉ name ∧ 0 ∉ name ∧ name.length ≤ longestName) (e : Entry L) :
    (t.insert directory name e).Legal := by
  intro l other there
  rw [get?_insert here free] at there
  split at there
  · rename_i same
    obtain ⟨-, rfl⟩ : l = directory ∧ other = name := by simpa using same
    exact legal
  · exact h l other there

end

end CycleChart.Tree
