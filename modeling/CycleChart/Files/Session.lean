import CycleChart.Files.Walk

namespace CycleChart

variable {L : Type}

/-- A file system, and what has been said since the start. -/
structure Session (L : Type) where
  tree : Tree L
  said : List Message

namespace Session

def start (t : Tree L) : Session L := ⟨t, []⟩

def change (f : Tree L → Except FileError (Tree L)) : ExceptT FileError (StateM (Session L)) Unit :=
  ExceptT.mk fun s =>
    match f s.tree with
    | .ok t => (.ok (), { s with tree := t })
    | .error e => (.error e, s)

instance [Links L] : Host (StateM (Session L)) where
  isDirectory p := fun s => (s.tree.isDirectory p, s)
  isFile p := fun s => (s.tree.isFile p, s)
  names p := ExceptT.mk fun s => (s.tree.names p, s)
  read p := ExceptT.mk fun s => (s.tree.read p, s)
  makeDirectory p := change (·.makeDirectory p)
  write p c := ExceptT.mk fun s => ((s.tree.write p c).1, { s with tree := (s.tree.write p c).2 })
  say message := fun s => ((), { s with said := s.said ++ [message] })

end Session
end CycleChart
