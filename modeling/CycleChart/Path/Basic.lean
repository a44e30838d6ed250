namespace CycleChart

structure Path where
  bytes : List UInt8
deriving DecidableEq, Inhabited

inductive Component where
  | root
  | current
  | parent
  | normal (name : List UInt8)
deriving DecidableEq

namespace Path

def slash : UInt8 := 0x2F
def dot : UInt8 := 0x2E

def ofString (s : String) : Path := ⟨s.toUTF8.data.toList⟩

/-- The stretches between slashes, empty ones included. -/
def segments : List UInt8 → List (List UInt8)
  | [] => [[]]
  | b :: s =>
    if b = slash then [] :: segments s
    else
      match segments s with
      | [] => [[b]]
      | x :: xs => (b :: x) :: xs

def isRooted (p : Path) : Bool := p.bytes.head? = some slash

/-- Empty segments and single dots say nothing. -/
def component? (segment : List UInt8) : Option Component :=
  if segment = [] ∨ segment = [dot] then none
  else if segment = [dot, dot] then some .parent
  else some (.normal segment)

/-- The parts of a path. Only a dot at the very front counts as a part. -/
def components (p : Path) : List Component :=
  let parts := segments p.bytes
  let front :=
    if p.isRooted then [.root] else if parts.head? = some [dot] then [.current] else []
  front ++ parts.filterMap component?

def fileName (p : Path) : Option (List UInt8) :=
  match p.components.getLast? with
  | some (.normal name) => some name
  | _ => none

/-- A name up to its last dot. A dot at the front starts no extension. -/
def stemOf (name : List UInt8) : List UInt8 :=
  let before := ((name.reverse.dropWhile (· ≠ dot)).drop 1).reverse
  if before = [] then name else before

def fileStem (p : Path) : Option (List UInt8) := p.fileName.map stemOf

/-- One path inside another, with one slash between them. A rooted path stands alone. -/
def join (p q : Path) : Path :=
  if q.isRooted then q
  else if p.bytes = [] ∨ p.bytes.getLast? = some slash then ⟨p.bytes ++ q.bytes⟩
  else ⟨p.bytes ++ slash :: q.bytes⟩

def spelling : Component → List UInt8
  | .root => [slash]
  | .current => [dot]
  | .parent => [dot, dot]
  | .normal name => name

/-- A path with one slash between its parts. The root ends with a slash itself. -/
def ofComponents : List Component → Path
  | .root :: parts => ⟨slash :: [slash].intercalate (parts.map spelling)⟩
  | parts => ⟨[slash].intercalate (parts.map spelling)⟩

/-- The path without its last part. Neither the empty path nor the root has one. -/
def parent? (p : Path) : Option Path :=
  match p.components.getLast? with
  | none => none
  | some .root => none
  | some _ => some (ofComponents p.components.dropLast)

end Path
end CycleChart
