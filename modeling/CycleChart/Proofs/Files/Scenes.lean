import CycleChart.Files.Session

namespace CycleChart

/-- Any file system whose answers come from its state alone. What it does may change the state. -/
class Disk (σ : Type) where
  isDirectory : Path → StateM σ Bool
  isFile : Path → StateM σ Bool
  names : Path → StateM σ (Except FileError (List Name))
  read : Path → StateM σ (Except FileError (List UInt8))
  makeDirectory : Path → StateM σ (Except FileError Unit)
  write : Path → Content → StateM σ (Except FileError Unit)

instance {L : Type} [Links L] : Disk (Tree L) where
  isDirectory p := fun t => (t.isDirectory p, t)
  isFile p := fun t => (t.isFile p, t)
  names p := fun t => (t.names p, t)
  read p := fun t => (t.read p, t)
  makeDirectory p := fun t =>
    match t.makeDirectory p with
    | .ok u => (.ok (), u)
    | .error e => (.error e, t)
  write p c := fun t => t.write p c

/-- A file system, and what has been said since the start. -/
structure Scene (σ : Type) where
  disk : σ
  said : List Message

/-- A line that names a failed report. -/
def Message.namesFailure : Message → Bool
  | .output _ => false
  | .error line => "Failed: ".toList.isPrefixOf line.toList

def Message.isOutput : Message → Bool
  | .output _ => true
  | .error _ => false

namespace Scene

variable {σ ε δ α β : Type}

/-- Something that is done with the file system alone. -/
def onDisk (x : StateM σ α) : StateM (Scene σ) α :=
  fun s => ((x.run s.disk).1, { s with disk := (x.run s.disk).2 })

instance [Disk σ] : Host (StateM (Scene σ)) where
  isDirectory p := onDisk (Disk.isDirectory p)
  isFile p := onDisk (Disk.isFile p)
  names p := ExceptT.mk (onDisk (Disk.names p))
  read p := ExceptT.mk (onDisk (Disk.read p))
  makeDirectory p := ExceptT.mk (onDisk (Disk.makeDirectory p))
  write p c := ExceptT.mk (onDisk (Disk.write p c))
  say message := fun s => ((), { s with said := s.said ++ [message] })

/-- An action that may fail. -/
abbrev Attempt (σ ε α : Type) := ExceptT ε (StateM (Scene σ)) α

/-- Two actions that give the same and do the same with the file system, whatever was said before. The first one may say
something, but names no failure in it. The second one says nothing. -/
def Alike (x y : StateM (Scene σ) α) : Prop :=
  ∀ d, ∃ a d' told, (∀ message ∈ told, message.namesFailure = false) ∧
    ∀ said, x.run ⟨d, said⟩ = (a, ⟨d', said ++ told⟩) ∧ y.run ⟨d, said⟩ = (a, ⟨d', said⟩)

/-- An action that says nothing. -/
abbrev Silent (x : StateM (Scene σ) α) : Prop := Alike x x

theorem silent_of_run {x : StateM (Scene σ) α} (h : ∀ d, ∃ a d', ∀ said, x.run ⟨d, said⟩ = (a, ⟨d', said⟩)) :
    Silent x := by
  intro d
  obtain ⟨a, d', run⟩ := h d
  exact ⟨a, d', [], nofun, fun said => ⟨by rw [run, List.append_nil], run said⟩⟩

theorem silent_pure (a : α) : Silent (pure a : StateM (Scene σ) α) := silent_of_run fun d => ⟨a, d, fun _ => rfl⟩

theorem silent_onDisk (x : StateM σ α) : Silent (onDisk x) :=
  silent_of_run fun d => ⟨(x.run d).1, (x.run d).2, fun _ => rfl⟩

theorem alike_bind {x y : StateM (Scene σ) α} {f g : α → StateM (Scene σ) β} (h : Alike x y)
    (k : ∀ a, Alike (f a) (g a)) : Alike (x >>= f) (y >>= g) := by
  intro d
  obtain ⟨a, d', first, plain, left⟩ := h d
  obtain ⟨b, d'', second, plain', right⟩ := k a d'
  refine ⟨b, d'', first ++ second, ?_, fun said => ⟨?_, ?_⟩⟩
  · intro message mem
    exact (List.mem_append.1 mem).elim (plain message) (plain' message)
  · rw [StateT.run_bind, (left said).1, ← List.append_assoc]
    exact (right (said ++ first)).1
  · rw [StateT.run_bind, (left said).2]
    exact (right said).2

theorem alike_say [Disk σ] {message : Message} (plain : message.namesFailure = false) :
    Alike (Host.say message : StateM (Scene σ) Unit) (pure ()) :=
  fun d => ⟨(), d, [message], by simpa using plain, fun _ => ⟨rfl, rfl⟩⟩

/-! The same for actions that may fail. -/

section

variable {x y : Attempt σ ε α}

theorem silent_ok (a : α) : Silent (pure a : Attempt σ ε α).run := silent_pure (Except.ok a)

theorem silent_throw (e : ε) : Silent (throw e : Attempt σ ε α).run := silent_pure (Except.error e)

theorem alike_lift {x y : StateM (Scene σ) α} (h : Alike x y) :
    Alike (x : Attempt σ ε α).run (y : Attempt σ ε α).run := by
  show Alike (x >>= fun a => pure (Except.ok a)) (y >>= fun a => pure (Except.ok a))
  exact alike_bind h fun a => silent_pure (Except.ok a)

theorem alike_then {f g : α → Attempt σ ε β} (h : Alike x.run y.run) (k : ∀ a, Alike (f a).run (g a).run) :
    Alike (x >>= f).run (y >>= g).run := by
  show Alike (x.run >>= ExceptT.bindCont f) (y.run >>= ExceptT.bindCont g)
  apply alike_bind h
  intro r
  cases r with
  | ok a => exact k a
  | error e => exact silent_pure (Except.error e)

theorem alike_catch {f g : ε → Attempt σ ε α} (h : Alike x.run y.run) (k : ∀ e, Alike (f e).run (g e).run) :
    Alike (tryCatch x f).run (tryCatch y g).run := by
  rw [ExceptT.run_tryCatch, ExceptT.run_tryCatch]
  apply alike_bind h
  intro r
  cases r with
  | ok a => exact silent_pure (Except.ok a)
  | error e => exact k e

theorem alike_adapt (h : Alike x.run y.run) (f : ε → δ) : Alike (x.adapt f).run (y.adapt f).run := by
  show Alike (x.run >>= fun r => pure (r.mapError f)) (y.run >>= fun r => pure (r.mapError f))
  exact alike_bind h fun r => silent_pure (r.mapError f)

end

/-! Making directories says nothing. -/

section

variable [Disk σ]

open Host

theorem silent_unless_isDirectory (p : Path) (e : FileError) :
    Silent (do unless ← (isDirectory p : StateM (Scene σ) Bool) do throw e : Attempt σ FileError Unit).run := by
  apply alike_then (alike_lift (silent_onDisk _))
  intro there
  cases there with
  | true => exact silent_ok ()
  | false => exact silent_throw e

theorem silent_ensureDirectory (p : Path) : Silent (ensureDirectory p : Attempt σ FileError Unit).run :=
  alike_catch (silent_onDisk _) (silent_unless_isDirectory p)

theorem silent_makeDirectoriesUpTo (count : Nat) (p : Path) :
    Silent (makeDirectoriesUpTo count p : Attempt σ FileError Unit).run := by
  induction count generalizing p with
  | zero => exact silent_ensureDirectory p
  | succ count ih =>
    rw [makeDirectoriesUpTo]
    split
    · exact silent_ok ()
    · apply alike_catch (silent_onDisk _)
      intro e
      cases e with
      | noEntry =>
        cases p.parent? with
        | none => exact silent_throw _
        | some parent => exact alike_then (ih parent) fun _ => silent_ensureDirectory p
      | _ => exact silent_unless_isDirectory p _

end

end Scene
end CycleChart
