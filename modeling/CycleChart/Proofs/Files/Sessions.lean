import CycleChart.Files.Session
import CycleChart.Proofs.Files.Growth

namespace CycleChart.Session

variable {L ε δ α β : Type}

/-- What an action gives, and what it leaves behind. -/
def perform (s : Session L) (x : ExceptT ε (StateM (Session L)) α) : Except ε α × Session L := StateT.run (ExceptT.run x) s

theorem perform_bind (s : Session L) (x : ExceptT ε (StateM (Session L)) α) (f : α → ExceptT ε (StateM (Session L)) β) :
    s.perform (x >>= f) =
      match s.perform x with
      | (.ok a, t) => t.perform (f a)
      | (.error e, t) => (.error e, t) := by
  rw [perform, run_then, perform]
  rcases StateT.run x.run s with ⟨e | a, t⟩ <;> rfl

theorem perform_adapt (s : Session L) (x : ExceptT ε (StateM (Session L)) α) (f : ε → δ) :
    s.perform (x.adapt f) = ((s.perform x).1.mapError f, (s.perform x).2) := rfl

theorem perform_lift (s : Session L) (x : StateM (Session L) α) :
    s.perform (x : ExceptT ε (StateM (Session L)) α) = (.ok (x.run s).1, (x.run s).2) := rfl

theorem perform_catch (s : Session L) (x : ExceptT ε (StateM (Session L)) α) (f : ε → ExceptT ε (StateM (Session L)) α) :
    s.perform (tryCatch x f) =
      match s.perform x with
      | (.ok a, t) => (.ok a, t)
      | (.error e, t) => t.perform (f e) := by
  simp only [perform, tryCatch, tryCatchThe, MonadExceptOf.tryCatch, ExceptT.tryCatch, ExceptT.run, StateT.run, bind,
    ExceptT.mk, StateT.bind]
  rcases x s with ⟨a | e, t⟩ <;> rfl

section

variable [Links L]

theorem perform_read (s : Session L) (p : Path) : s.perform (Host.read p) = (s.tree.read p, s) := rfl

theorem perform_write (s : Session L) (p : Path) (content : Content) :
    s.perform (Host.write p content) =
      ((s.tree.write p content).1, { s with tree := (s.tree.write p content).2 }) := rfl

theorem perform_makeDirectory (s : Session L) (p : Path) :
    s.perform (Host.makeDirectory p) =
      match s.tree.makeDirectory p with
      | .ok t => (.ok (), { s with tree := t })
      | .error e => (.error e, s) := rfl

theorem perform_unless_isDirectory (s : Session L) (p : Path) (e : FileError) :
    s.perform (do unless ← (Host.isDirectory p : StateM (Session L) Bool) do throw e) =
      if s.tree.isDirectory p then (.ok (), s) else (.error e, s) := by
  rw [perform_bind, perform_lift]
  show s.perform (if s.tree.isDirectory p then pure () else throw e) = _
  split <;> rfl

theorem perform_ensureDirectory (s : Session L) (p : Path) :
    s.perform (Host.ensureDirectory p) =
      match s.tree.makeDirectory p with
      | .ok t => (.ok (), { s with tree := t })
      | .error e => if s.tree.isDirectory p then (.ok (), s) else (.error e, s) := by
  rw [Host.ensureDirectory, perform_catch, perform_makeDirectory]
  cases s.tree.makeDirectory p with
  | ok t => rfl
  | error e =>
    exact perform_unless_isDirectory s p e

theorem perform_makeDirectoriesUpTo (s : Session L) (count : Nat) (p : Path) :
    s.perform (Host.makeDirectoriesUpTo (count + 1) p) =
      if p.bytes = [] then (.ok (), s)
      else
        match s.tree.makeDirectory p with
        | .ok t => (.ok (), { s with tree := t })
        | .error .noEntry =>
          match p.parent? with
          | some parent =>
            match s.perform (Host.makeDirectoriesUpTo count parent) with
            | (.ok (), t) => t.perform (Host.ensureDirectory p)
            | (.error e, t) => (.error e, t)
          | none => (.error (.other "failed to create whole tree"), s)
        | .error e => if s.tree.isDirectory p then (.ok (), s) else (.error e, s) := by
  rw [Host.makeDirectoriesUpTo]
  split
  · rfl
  · rw [perform_catch, perform_makeDirectory]
    cases s.tree.makeDirectory p with
    | ok t => rfl
    | error e =>
      cases e with
      | noEntry =>
        cases p.parent? with
        | none => rfl
        | some parent =>
          apply (perform_bind s _ _).trans
          dsimp only
          rcases s.perform (Host.makeDirectoriesUpTo count parent) with ⟨a | e, t⟩ <;> rfl
      | _ => exact perform_unless_isDirectory s p _

end

/-- What may have become of a session in which a directory was to be made. -/
structure Made (p : Path) (s : Session Empty) (r : Except FileError Unit × Session Empty) : Prop where
  extended : Tree.Extended s.tree r.2.tree
  said : r.2.said = s.said
  there : r.1 = .ok () → p.bytes = [] ∨ r.2.tree.isDirectory p

theorem made_ensureDirectory (s : Session Empty) (p : Path) : Made p s (s.perform (Host.ensureDirectory p)) := by
  rw [perform_ensureDirectory]
  cases made : s.tree.makeDirectory p with
  | ok t =>
    obtain ⟨extended, there⟩ := Tree.makeDirectory_spec made
    exact ⟨extended, rfl, fun _ => .inr there⟩
  | error e =>
    dsimp only
    split
    · exact ⟨.refl _, rfl, fun _ => .inr ‹_›⟩
    · exact ⟨.refl _, rfl, nofun⟩

theorem made_makeDirectoriesUpTo (s : Session Empty) (count : Nat) (p : Path) :
    Made p s (s.perform (Host.makeDirectoriesUpTo count p)) := by
  induction count generalizing s p with
  | zero => exact made_ensureDirectory s p
  | succ count ih =>
    rw [perform_makeDirectoriesUpTo]
    split
    · exact ⟨.refl _, rfl, fun _ => .inl ‹_›⟩
    · split
      · rename_i t made
        obtain ⟨extended, there⟩ := Tree.makeDirectory_spec made
        exact ⟨extended, rfl, fun _ => .inr there⟩
      · split
        · rename_i parent _
          have above := ih s parent
          split
          · rename_i t eq
            rw [eq] at above
            have last := made_ensureDirectory t p
            exact ⟨above.extended.trans last.extended, last.said.trans above.said, last.there⟩
          · rename_i e t eq
            rw [eq] at above
            exact ⟨above.extended, above.said, nofun⟩
        · exact ⟨.refl _, rfl, nofun⟩
      · split
        · exact ⟨.refl _, rfl, fun _ => .inr ‹_›⟩
        · exact ⟨.refl _, rfl, nofun⟩

theorem made_makeDirectories (s : Session Empty) (p : Path) : Made p s (s.perform (Host.makeDirectories p)) :=
  made_makeDirectoriesUpTo s _ p

end CycleChart.Session
