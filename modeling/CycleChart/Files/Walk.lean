import CycleChart.Files.Tree

namespace CycleChart

variable {L : Type}

/-- A way from the root: the names passed and what lies under them, the last one first. -/
abbrev Way (L : Type) := List (Name × Node L)

namespace Way

def location (w : Way L) : Location := (w.map (·.1)).reverse

def stop (root : Node L) : Way L → Node L
  | [] => root
  | (_, n) :: _ => n

/-- Each node of a way lies in the one before it. -/
def Leads (root : Node L) : Way L → Prop
  | [] => True
  | (name, n) :: w => (stop root w).find? name = some n ∧ Leads root w

theorem leads_tail {root : Node L} {w : Way L} (h : w.Leads root) : Leads root w.tail := by
  cases w with
  | nil => trivial
  | cons step w => exact h.2

theorem location_cons (name : Name) (n : Node L) (w : Way L) :
    location ((name, n) :: w) = w.location ++ [name] := by simp [location]

theorem get?_location {root : Node L} {w : Way L} (h : w.Leads root) : root.get? w.location = some (w.stop root) := by
  induction w with
  | nil => rfl
  | cons step w ih =>
    obtain ⟨name, n⟩ := step
    rw [location_cons, Node.get?_append, ih h.2, Option.bind_some, Node.get?, h.1]
    rfl

/-- A way that goes on, as far as something lies at a location inside its end. -/
def trace : Node L → Location → Way L → Way L
  | _, [], w => w
  | n, name :: l, w =>
    match n.find? name with
    | some child => trace child l ((name, child) :: w)
    | none => w

theorem leads_trace {root : Node L} (l : Location) {w : Way L} (h : w.Leads root) :
    (trace (w.stop root) l w).Leads root := by
  induction l generalizing w with
  | nil => exact h
  | cons name l ih =>
    rw [trace]
    split
    · rename_i child found
      exact @ih ((name, child) :: w) ⟨found, h⟩
    · exact h

theorem location_trace {n m : Node L} {l : Location} (h : n.get? l = some m) (w : Way L) :
    (trace n l w).location = w.location ++ l := by
  induction l generalizing n w with
  | nil => simp [trace]
  | cons name l ih =>
    rw [Node.get?] at h
    cases found : n.find? name with
    | none =>
      rw [found] at h
      cases h
    | some child =>
      rw [found] at h
      simp only [trace, found, ih h, location_cons, List.append_assoc, List.singleton_append]

end Way

namespace Tree

def longestName : Nat := 255
def longestPath : Nat := 4095

def mostLinks : Nat := 40

def segmentsOf (p : Path) : Except FileError (List Name) :=
  if 0 ∈ p.bytes then .error .zeroByte
  else if p.bytes = [] then .error .noEntry
  else if longestPath < p.bytes.length then .error .nameTooLong
  else .ok (Path.segments p.bytes)

def wayHere (t : Tree L) : Way L := Way.trace t.root t.here []

/-- Where a path starts that is met at the end of a way. -/
def origin (p : Path) (w : Way L) : Way L := if p.isRooted then [] else w

/-- One step along a path. Two dots go back, but not beyond the root. -/
def enter (t : Tree L) (w : Way L) (segment : Name) : Except FileError (Way L) :=
  match w.stop t.root with
  | .directory inside =>
    if segment = [] then .ok w
    else if (t.rights w.location).search = false then .error .accessDenied
    else if segment = [Path.dot] then .ok w
    else if segment = [Path.dot, Path.dot] then .ok w.tail
    else if longestName < segment.length then .error .nameTooLong
    else
      match lookupEntry segment inside with
      | some n => .ok ((segment, n) :: w)
      | none => .error .noEntry
  | _ => .error .notDirectory

section

variable [Links L]

/-- The way along some segments, and how many links are left to follow. -/
def along (t : Tree L) (links : Nat) (beyond : Way L → List Name → Except FileError (Way L × Nat)) :
    Way L → List Name → Except FileError (Way L × Nat)
  | w, [] => .ok (w, links)
  | w, segment :: rest => do
    let v ← t.enter w segment
    match v.stop t.root with
    | .link target =>
      let p := Links.path target
      beyond (origin p v.tail) ((← segmentsOf p) ++ rest)
    | _ => t.along links beyond v rest

def follow (t : Tree L) : (links : Nat) → Way L → List Name → Except FileError (Way L × Nat)
  | 0 => t.along 0 fun _ _ => .error .tooManyLinks
  | links + 1 => t.along (links + 1) (t.follow links)

def locate (t : Tree L) (p : Path) : Except FileError (Way L) := do
  let (w, _) ← t.follow mostLinks (origin p t.wayHere) (← segmentsOf p)
  return w

def nodeAt? (t : Tree L) (p : Path) : Option (Node L) := (t.locate p).toOption.map (·.stop t.root)

def isDirectory (t : Tree L) (p : Path) : Bool :=
  match t.nodeAt? p with
  | some (.directory _) => true
  | _ => false

def isFile (t : Tree L) (p : Path) : Bool :=
  match t.nodeAt? p with
  | some (.file _) => true
  | _ => false

def names (t : Tree L) (p : Path) : Except FileError (List Name) := do
  let w ← t.locate p
  match w.stop t.root with
  | .directory inside =>
    if (t.rights w.location).read then return inside.map (·.1)
    else throw .accessDenied
  | _ => throw .notDirectory

def read (t : Tree L) (p : Path) : Except FileError (List UInt8) := do
  let w ← t.locate p
  if (t.rights w.location).read = false then throw .accessDenied
  match w.stop t.root with
  | .file c => return c.toBytes
  | _ => throw .isDirectory

/-- Where a path could lead to. The path of the root has no name. -/
structure Target (L : Type) where
  directory : Way L
  name : Name
  present : Option (Node L)
  slashed : Bool

def Target.isDots (g : Target L) : Bool := g.name = [] || g.name = [Path.dot] || g.name = [Path.dot, Path.dot]

/-- The link under the name, unless the name is too long or slashes follow. -/
def Target.link? (g : Target L) : Option Path :=
  match g.present with
  | some (.link target) =>
    if g.isDots || g.slashed || longestName < g.name.length then none else some (Links.path target)
  | _ => none

/-- All segments but the last one have to be there. -/
def aim (t : Tree L) (links : Nat) (w : Way L) (parts : List Name) : Except FileError (Target L × Nat) := do
  let kept := (parts.reverse.dropWhile (· = [])).reverse
  let (v, left) ← t.follow links w kept.dropLast
  let name := kept.getLast?.getD []
  match v.stop t.root with
  | .directory inside =>
    if name ≠ [] ∧ (t.rights v.location).search = false then throw .accessDenied
    return (⟨v, name, lookupEntry name inside, kept.length < parts.length⟩, left)
  | _ => throw .notDirectory

/-- A link at the end is followed, also to where nothing is. -/
def aimThrough (t : Tree L) : (count : Nat) → (links : Nat) → Way L → List Name → Except FileError (Target L)
  | 0, _, _, _ => throw .tooManyLinks
  | count + 1, links, w, parts => do
    let (g, left) ← t.aim links w parts
    match g.link?, left with
    | none, _ => return g
    | some _, 0 => throw .tooManyLinks
    | some p, left + 1 => t.aimThrough count left (origin p g.directory) (← segmentsOf p)

def makeDirectory (t : Tree L) (p : Path) : Except FileError (Tree L) := do
  let (g, _) ← t.aim mostLinks (origin p t.wayHere) (← segmentsOf p)
  let directory := g.directory.location
  if g.isDots then throw .alreadyExists
  else if longestName < g.name.length then throw .nameTooLong
  else if g.present.isSome then throw .alreadyExists
  else if (t.rights directory).write = false then throw .accessDenied
  else return t.insert directory g.name .directory

/-- The directory of a file that is opened to be written, and its name there. -/
def opened (t : Tree L) (p : Path) : Except FileError (Location × Name) := do
  let g ← t.aimThrough (mostLinks + 1) mostLinks (origin p t.wayHere) (← segmentsOf p)
  let directory := g.directory.location
  let changed := if g.present.isSome then directory ++ [g.name] else directory
  if g.isDots || g.slashed then throw .isDirectory
  else if longestName < g.name.length then throw .nameTooLong
  else if g.present.map Node.entry = some .directory then throw .isDirectory
  else if (t.rights changed).write = false then throw .accessDenied
  else return (directory, g.name)

/-- What becomes of something put into a file, and what the file holds then. -/
def fill (t : Tree L) (l : Location) (c : Content) : Except FileError Unit × Content :=
  match t.capacity l with
  | none => (.ok (), c)
  | some size =>
    if c.toBytes.length ≤ size then (.ok (), c) else (.error .fileTooLarge, .bytes (c.toBytes.take size))

/-- Makes a file or empties it, and then fills it as far as that goes. -/
def write (t : Tree L) (p : Path) (c : Content) : Except FileError Unit × Tree L :=
  match t.opened p with
  | .error e => (.error e, t)
  | .ok (directory, name) =>
    let (result, held) := t.fill (directory ++ [name]) c
    (result, t.insert directory name (.file held))

end

theorem leads_enter {t : Tree L} {w v : Way L} {segment : Name} (h : w.Leads t.root)
    (step : t.enter w segment = .ok v) : v.Leads t.root := by
  have back := Way.leads_tail h
  unfold enter at step
  split at step
  · rename_i inside here
    grind [Way.Leads, Node.find?]
  · cases step

theorem leads_wayHere (t : Tree L) : t.wayHere.Leads t.root := @Way.leads_trace L t.root t.here [] trivial

theorem location_wayHere (t : Tree L) : t.wayHere.location = t.here := by
  obtain ⟨n, found, -⟩ := Option.map_eq_some_iff.1 t.placed
  exact Way.location_trace found []

theorem leads_origin {t : Tree L} (p : Path) {w : Way L} (h : w.Leads t.root) : (origin p w).Leads t.root := by
  rw [origin]
  split
  · trivial
  · exact h

end Tree
end CycleChart
