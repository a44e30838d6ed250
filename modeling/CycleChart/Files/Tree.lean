import CycleChart.Files.Node

namespace CycleChart

/-- What may be done. A directory is read to be listed, written to take something new, and searched to be gone
through. -/
structure Rights where
  read : Bool
  write : Bool
  search : Bool
deriving DecidableEq

def Rights.all : Rights := ⟨true, true, true⟩

/-- What is set before a program starts, and stays. -/
structure Setting where
  here : Location
  rights : Location → Rights
  /-- How many bytes a file takes, if not any number. -/
  capacity : Location → Option Nat

/-- A file system as a program finds it. The working directory is there, and what is made has all rights. -/
structure Tree (L : Type) extends Setting where
  inside : Children L
  ordered : (Node.directory inside).Ordered
  placed : ((Node.directory inside).get? here).map Node.entry = some .directory
  fresh : ∀ l, ((Node.directory inside).get? l).map Node.entry = none → rights l = .all

namespace Tree

open Node

variable {L : Type}

def empty : Tree L where
  here := []
  rights _ := .all
  capacity _ := none
  inside := []
  ordered := .directory .nil nofun
  placed := rfl
  fresh _ _ := rfl

def root (t : Tree L) : Node L := .directory t.inside

def get? (t : Tree L) (l : Location) : Option (Entry L) := (t.root.get? l).map entry

theorem get?_nil (t : Tree L) : t.get? [] = some .directory := rfl

theorem get?_here (t : Tree L) : t.get? t.here = some .directory := t.placed

theorem rights_of_none {t : Tree L} {l : Location} (h : t.get? l = none) : t.rights l = .all := t.fresh l h

/-- A new entry in a directory takes the place of a file. -/
def insert (t : Tree L) (directory : Location) (name : Name) (e : Entry L) : Tree L :=
  if h : t.get? directory = some .directory ∧ t.get? (directory ++ [name]) ≠ some .directory then
    { t with
      inside := put name e.node directory t.inside
      ordered := ordered_put (ordered_node e) directory t.ordered
      placed := by
        rw [get?_put_node h.1 h.2, if_neg]
        · exact t.placed
        · intro same
          exact h.2 (same ▸ t.placed)
      fresh := by
        intro l free
        rw [get?_put_node h.1 h.2] at free
        split at free
        · cases free
        · exact t.fresh l free }
  else t

/-- A new entry changes no other, unless it takes the place of a directory. -/
theorem get?_insert {t : Tree L} {directory : Location} {name : Name} (h : t.get? directory = some .directory)
    (free : t.get? (directory ++ [name]) ≠ some .directory) (e : Entry L) (other : Location) :
    (t.insert directory name e).get? other =
      if other = directory ++ [name] then some e else t.get? other := by
  rw [insert, dif_pos ⟨h, free⟩]
  exact get?_put_node h free e other

theorem toSetting_insert (t : Tree L) (directory : Location) (name : Name) (e : Entry L) :
    (t.insert directory name e).toSetting = t.toSetting := by
  rw [insert]
  split <;> rfl

end Tree
end CycleChart
