import CycleChart.Proofs.Files.Sessions

namespace CycleChart

/-- A path, or one that it lies in. -/
inductive Path.Around : Path → Path → Prop where
  | self (p : Path) : Around p p
  | above {p parent q : Path} (up : p.parent? = some parent) (around : Around q parent) : Around q p

namespace Tree

/-- A directory that was made on the way to a path. -/
def IsNew (t u : Tree Empty) (p : Path) (l : Location) : Prop :=
  t.get? l = none ∧ u.get? l = some .directory ∧ ∃ q : Path, q.Around p ∧ u.placeOf q = .ok l

/-- Two trees differ at most by directories that were made on the way to a path. -/
structure Opened (p : Path) (t u : Tree Empty) : Prop where
  extended : Extended t u
  new : ∀ l, u.get? l ≠ t.get? l → IsNew t u p l

theorem Opened.refl (p : Path) (t : Tree Empty) : Opened p t t := ⟨.refl t, fun _ other => absurd rfl other⟩

/-- Only directories are new. -/
theorem Opened.file_back {t u : Tree Empty} {p : Path} (h : Opened p t u) {l : Location} {c : Content}
    (there : u.get? l = some (.file c)) : t.get? l = some (.file c) := by
  rw [← there]
  apply Classical.byContradiction
  intro other
  have new := (h.new l (Ne.symm other)).2.1
  rw [there] at new
  cases new

theorem IsNew.extended {t u v : Tree Empty} {p : Path} {l : Location} (h : IsNew t u p l) (later : Extended u v) :
    IsNew t v p l := by
  obtain ⟨free, here, q, around, place⟩ := h
  exact ⟨free, later.all l _ here, q, around, later.keeps.placeOf place here (.inl rfl)⟩

theorem Opened.above {t u : Tree Empty} {p parent : Path} (up : p.parent? = some parent) (h : Opened parent t u) :
    Opened p t u where
  extended := h.extended
  new := by
    intro l other
    obtain ⟨free, here, q, around, place⟩ := h.new l other
    exact ⟨free, here, q, .above up around, place⟩

theorem Opened.trans {t u v : Tree Empty} {p : Path} (h : Opened p t u) (k : Opened p u v) : Opened p t v where
  extended := h.extended.trans k.extended
  new := by
    intro l other
    by_cases same : u.get? l = t.get? l
    · rw [← same] at other
      obtain ⟨free, here, q, around, place⟩ := k.new l other
      exact ⟨same ▸ free, here, q, around, place⟩
    · exact (h.new l same).extended k.extended

theorem opened_makeDirectory {t u : Tree Empty} {p : Path} (h : t.makeDirectory p = .ok u) : Opened p t u where
  extended := (makeDirectory_spec h).1
  new := by
    intro l other
    obtain ⟨-, m, place, free, places⟩ := makeDirectory_places h
    rw [places] at other
    by_cases same : l = m
    · subst same
      exact ⟨free, by rw [places, if_pos rfl], p, .self p, place⟩
    · rw [if_neg same] at other
      exact absurd rfl other

end Tree

namespace Session

theorem opened_ensureDirectory (s : Session Empty) (p : Path) :
    Tree.Opened p s.tree (s.perform (Host.ensureDirectory p)).2.tree := by
  rw [perform_ensureDirectory]
  cases made : s.tree.makeDirectory p with
  | ok t => exact Tree.opened_makeDirectory made
  | error e =>
    dsimp only
    split <;> exact .refl p _

theorem opened_makeDirectoriesUpTo (s : Session Empty) (count : Nat) (p : Path) :
    Tree.Opened p s.tree (s.perform (Host.makeDirectoriesUpTo count p)).2.tree := by
  induction count generalizing s p with
  | zero => exact opened_ensureDirectory s p
  | succ count ih =>
    rw [perform_makeDirectoriesUpTo]
    split
    · exact .refl p _
    · split
      · rename_i t made
        exact Tree.opened_makeDirectory made
      · split
        · rename_i parent up
          have above := (ih s parent).above up
          split
          · rename_i t eq
            rw [eq] at above
            exact above.trans (opened_ensureDirectory t p)
          · rename_i e t eq
            rw [eq] at above
            exact above
        · exact .refl p _
      · split <;> exact .refl p _

theorem opened_makeDirectories (s : Session Empty) (p : Path) :
    Tree.Opened p s.tree (s.perform (Host.makeDirectories p)).2.tree :=
  opened_makeDirectoriesUpTo s _ p

end Session
end CycleChart
