import CycleChart.Proofs.Files.Arriving

namespace CycleChart

namespace Tree

variable {t u : Tree Empty}

theorem goalOf_of_kept {p : Path} {front : List Name} {last : Name}
    (legal : segmentsOf p = .ok (Path.segments p.bytes))
    (kept : ((Path.segments p.bytes).reverse.dropWhile (· = [])).reverse = front ++ [last]) (filled : last ≠ [])
    (t : Tree Empty) :
    t.goalOf p = (t.arrive (t.start p) front).map fun l =>
      ⟨l, last, t.get? (l ++ [last]), (front ++ [last]).length < (Path.segments p.bytes).length⟩ := by
  rw [goalOf, legal]
  simp only [bind, Except.bind, kept, List.dropLast_concat, List.getLast?_concat, Option.getD_some, ne_eq, filled,
    not_false_eq_true, true_and]
  rw [arrive]
  cases walked : front.foldlM t.enterAt (t.start p) with
  | error e =>
    rw [foldlM_append_of_error walked]
    rfl
  | ok l =>
    rw [foldlM_append_of_ok walked, List.foldlM_cons, enterAt_dot]
    dsimp only
    split
    · split <;> rfl
    · rfl

/-- A path to something new leads into a directory, and names something there, unless it is that of the root. -/
theorem exists_goal {p : Path} (legal : segmentsOf p = .ok (Path.segments p.bytes)) :
    p.steps = [] ∧ (∀ t : Tree Empty, ∃ e b, t.goalOf p = .ok ⟨t.start p, [], e, b⟩) ∨
      ∃ front last count, last ≠ [] ∧ Path.segments p.bytes = front ++ last :: List.replicate count [] ∧
        ∀ t : Tree Empty,
          t.goalOf p = (t.arrive (t.start p) front).map fun l => ⟨l, last, t.get? (l ++ [last]), 0 < count⟩ := by
  by_cases blank : ∃ name ∈ Path.segments p.bytes, name ≠ []
  · obtain ⟨name, mem, named⟩ := blank
    obtain ⟨front, last, count, filled, eq, kept⟩ := exists_last_filled mem named
    refine .inr ⟨front, last, count, filled, eq, fun t => ?_⟩
    have slashes : (front ++ [last]).length < (Path.segments p.bytes).length ↔ 0 < count := by
      simp [eq]
    rw [goalOf_of_kept legal kept filled, decide_eq_decide.2 slashes]
  · have same : Path.segments p.bytes = List.replicate (Path.segments p.bytes).length [] := by
      refine List.eq_replicate_iff.2 ⟨rfl, fun segment mem => ?_⟩
      apply Classical.byContradiction
      intro other
      exact blank ⟨segment, mem, other⟩
    refine .inl ⟨?_, fun t => ?_⟩
    · rw [Path.steps, same, List.filter_eq_nil_iff]
      intro segment mem
      rw [List.eq_of_mem_replicate mem]
      decide
    · have kept : ((Path.segments p.bytes).reverse.dropWhile (· = [])).reverse = [] := by
        rw [same]
        simp
      rw [goalOf, legal]
      simp only [bind, Except.bind, kept]
      refine ⟨_, _, if_pos (t.get?_start p)⟩

/-- What becomes of a directory that is made under a name, told by what lies where. -/
theorem makeDirectory_of_goal {p : Path} {front : List Name} {name : Name} {slashed : Bool} {l : Location}
    (goal : t.goalOf p = (t.arrive (t.start p) front).map fun l => ⟨l, name, t.get? (l ++ [name]), slashed⟩)
    (filled : name ≠ []) (arrived : t.arrive (t.start p) front = .ok l) :
    t.makeDirectory p =
      if name = [Path.dot] ∨ name = [Path.dot, Path.dot] then .error .alreadyExists
      else if longestName < name.length then .error .nameTooLong
      else if (t.get? (l ++ [name])).isSome then .error .alreadyExists
      else if (t.rights l).write = false then .error .accessDenied
      else .ok (t.insert l name .directory) := by
  rw [makeDirectory_eq, goal, arrived]
  simp only [Except.map, bind, Except.bind, Goal.isDots, filled, decide_false, Bool.false_or, Bool.or_eq_true,
    decide_eq_true_eq]

/-- What is there as a directory is not made. -/
theorem makeDirectory_of_isDirectory {p : Path} (h : t.isDirectory p) : t.makeDirectory p = .error .alreadyExists := by
  obtain ⟨l, place, here⟩ := isDirectory_iff.1 h
  have legal := segmentsOf_of_placeOf place
  rcases exists_goal legal with ⟨-, goal⟩ | ⟨front, last, count, filled, eq, goal⟩
  · obtain ⟨e, b, goal⟩ := goal t
    rw [makeDirectory_eq, goal]
    rfl
  · have walked := (placeOf_eq_ok place).2
    rw [eq] at walked
    cases arrived : t.arrive (t.start p) front with
    | error e =>
      rw [foldlM_enterAt_of_error arrived filled] at walked
      cases walked
    | ok k =>
      obtain ⟨before, inside, open'⟩ := arrive_eq_ok_iff.1 arrived
      rw [foldlM_append_of_ok before] at walked
      obtain ⟨next, step, -⟩ := bind_eq_ok walked
      rw [makeDirectory_of_goal (goal t) filled arrived]
      split
      · rfl
      · rename_i named
        rw [not_or] at named
        rw [enterAt, if_pos inside, if_neg filled, if_neg (by simp [open']), if_neg named.1, if_neg named.2] at step
        split at step
        · cases step
        · rename_i short
          rw [if_neg short]
          split at step
          · rename_i present
            rw [if_pos present]
          · cases step

theorem segmentsOf_of_missed {p : Path} (filled : p.bytes ≠ []) (missed : t.makeDirectory p = .error .noEntry) :
    segmentsOf p = .ok (Path.segments p.bytes) := by
  cases legal : segmentsOf p with
  | ok parts => rw [(segmentsOf_eq_ok legal).1]
  | error e =>
    exfalso
    have cause : e = .noEntry := by
      rw [makeDirectory_eq, goalOf, legal] at missed
      exact Except.error.inj missed
    rw [cause, segmentsOf, if_neg filled] at legal
    split at legal
    · cases legal
    · split at legal <;> cases legal

/-- Nothing is where the empty path leads to, and nothing is made there. -/
theorem missed_of_empty {p : Path} (empty : p.bytes = []) :
    t.makeDirectory p = .error .noEntry ∧ t.isDirectory p = false := by
  have illegal : segmentsOf p = .error .noEntry := by simp [segmentsOf, empty]
  refine ⟨by rw [makeDirectory_eq, goalOf, illegal]; rfl, ?_⟩
  rw [Bool.eq_false_iff]
  intro there
  obtain ⟨l, place, -⟩ := isDirectory_iff.1 there
  exact (placeOf_eq_ok place).1 empty

/-- A path that says nothing is not missed. -/
theorem not_missed_of_silent {p : Path} (filled : p.bytes ≠ []) (silent : p.steps = []) :
    t.makeDirectory p ≠ .error .noEntry := by
  intro missed
  rcases exists_goal (segmentsOf_of_missed filled missed) with ⟨-, goal⟩ | ⟨front, last, count, named, eq, goal⟩
  · obtain ⟨e, b, goal⟩ := goal t
    rw [makeDirectory_eq, goal] at missed
    cases missed
  · have none : ∀ segment ∈ Path.segments p.bytes, Path.component? segment = .none := by
      intro segment mem
      have kept := List.filter_eq_nil_iff.1 silent segment mem
      simpa using kept
    rw [eq] at none
    have before : front.filter (fun segment => (Path.component? segment).isSome) = [] := by
      rw [List.filter_eq_nil_iff]
      intro segment mem
      simp [none segment (List.mem_append_left _ mem)]
    have dots : last = [Path.dot] :=
      (Path.component?_eq_none_iff.1 (none last (by simp))).resolve_left named
    have start : t.arrive (t.start p) front = t.enterAt (t.start p) [Path.dot] := by
      rw [arrive_filter, before, arrive_nil]
    rw [enterAt_dot, if_pos (t.get?_start p)] at start
    split at start
    · rw [makeDirectory_eq, goal, start] at missed
      cases missed
    · rw [makeDirectory_of_goal (goal t) named start, if_pos (.inl dots)] at missed
      cases missed

/-- Without a step back, a directory that is there is found on the same way as in another tree. -/
theorem foldlM_back (set : u.toSetting = t.toSetting) {parts : List Name} (forward : [Path.dot, Path.dot] ∉ parts)
    {l m : Location} (walked : parts.foldlM u.enterAt l = .ok m) (there : t.get? m = some .directory) :
    parts.foldlM t.enterAt l = .ok m ∧ l <+: m := by
  induction parts generalizing l with
  | nil =>
    cases walked
    exact ⟨rfl, List.prefix_refl m⟩
  | cons segment parts ih =>
    rw [List.mem_cons, not_or] at forward
    obtain ⟨k, step, walked⟩ := bind_eq_ok walked
    obtain ⟨rest, onward⟩ := ih forward.2 walked
    -- the way goes on below, so what is passed is a directory in the other tree as well
    have passed : t.get? k = some .directory := by
      obtain ⟨more, rfl⟩ := onward
      cases more with
      | nil => rwa [List.append_nil] at there
      | cons name more =>
        have stood : t.get? (k ++ name :: more) ≠ none := Option.ne_none_iff_exists'.2 ⟨_, there⟩
        exact get?_of_below stood (List.cons_ne_nil name more)
    have same : t.enterAt l segment = .ok k ∧ l <+: k := by
      rw [enterAt, congrArg Setting.rights set] at step
      rw [enterAt]
      have inside : k = l ++ [segment] → t.get? l = some .directory := by
        rintro rfl
        exact get?_of_child passed
      have further : k = l ++ [segment] → (t.get? (l ++ [segment])).isSome := by
        rintro rfl
        rw [passed]
        rfl
      have onto := List.prefix_append l [segment]
      have back : segment ≠ [Path.dot, Path.dot] := Ne.symm forward.1
      grind
    rw [List.foldlM_cons, same.1]
    exact ⟨rest, same.2.trans onward⟩

/-- What a failure may be recast as, when the path goes on beyond where it lies. -/
def Recasts (parts : List Name) (e e' : FileError) : Prop :=
  e' = e ∨ e = .alreadyExists ∧ e' = .notDirectory ∧ [Path.dot, Path.dot] ∈ parts

theorem Recasts.append {parts : List Name} {e e' : FileError} (h : Recasts parts e e') (more : List Name) :
    Recasts (parts ++ more) e e' :=
  h.imp_right fun ⟨first, second, back⟩ => ⟨first, second, List.mem_append_left more back⟩

/-- What failed as a directory is in the way of what lies further on: something is missing there, or the way fails for
the same cause or for what it is recast as. -/
def Blocks (u : Tree Empty) (p : Path) (e : FileError) : Prop :=
  ∃ e', u.arrive (u.start p) p.steps = .error e' ∧ (e' = .noEntry ∨ Recasts p.steps e e')

/-- A file that stands where a directory is missed was not there before, unless the way to it takes a step back. -/
theorem step_back_of_missed {p : Path} {parts : List Name} {name : Name} {slashed : Bool} {l : Location} {c : Content}
    (set : u.toSetting = t.toSetting)
    (goal : t.goalOf p = (t.arrive (t.start p) parts).map fun l => ⟨l, name, t.get? (l ++ [name]), slashed⟩)
    (filled : name ≠ []) (missed : t.makeDirectory p = .error .noEntry)
    (forward : ¬(name = [Path.dot] ∨ name = [Path.dot, Path.dot])) (short : ¬longestName < name.length)
    (arrived : u.arrive (u.start p) parts = .ok l) (before : t.get? (l ++ [name]) = some (.file c)) :
    [Path.dot, Path.dot] ∈ parts := by
  apply Classical.byContradiction
  intro back
  obtain ⟨walked, -, open'⟩ := arrive_eq_ok_iff.1 arrived
  have stood := get?_of_child before
  rw [start_of_setting set] at walked
  rw [congrArg Setting.rights set] at open'
  have arrived : t.arrive (t.start p) parts = .ok l :=
    arrive_eq_ok_iff.2 ⟨(foldlM_back set back walked stood).1, stood, open'⟩
  rw [makeDirectory_of_goal goal filled arrived, if_neg forward, if_neg short, before] at missed
  cases missed

theorem start_eq {p q : Path} (same : q.isRooted = p.isRooted) (t : Tree Empty) : t.start q = t.start p := by
  rw [start, start, same]

/-- What blocks the way to a path fails it. -/
theorem makeDirectory_of_blocked {p q : Path} {e : FileError} {name : Name} (same : q.isRooted = p.isRooted)
    (steps : p.steps = q.steps ++ [name]) (loud : (Path.component? name).isSome)
    (legal : segmentsOf p = .ok (Path.segments p.bytes)) (blocked : t.arrive (t.start q) q.steps = .error e) :
    t.makeDirectory p = .error e ∧ t.isDirectory p = false := by
  rw [start_eq same] at blocked
  rcases exists_goal legal with ⟨silent, -⟩ | ⟨front, last, count, filled, eq, goal⟩
  · rw [steps] at silent
    simp at silent
  · have before : t.arrive (t.start p) front = .error e := by
      rw [arrive_filter]
      have split : p.steps = (front.filter fun segment => (Path.component? segment).isSome) ++
          [last].filter fun segment => (Path.component? segment).isSome := by
        have blanks : ((List.replicate count []).filter fun segment => (Path.component? segment).isSome) = [] := by
          rw [List.filter_eq_nil_iff]
          intro segment mem
          rw [List.eq_of_mem_replicate mem]
          decide
        rw [Path.steps, eq, List.filter_append, ← List.singleton_append, List.filter_append, blanks, List.append_nil]
      by_cases last_loud : (Path.component? last).isSome
      · rw [List.filter_cons_of_pos (by simpa using last_loud), List.filter_nil, steps] at split
        rwa [(List.append_inj' split rfl).1] at blocked
      · rw [List.filter_cons_of_neg (by simpa using last_loud), List.filter_nil, List.append_nil, steps] at split
        rw [← split]
        exact arrive_append_of_error blocked (filled_of_loud loud) []
    constructor
    · rw [makeDirectory_eq, goal, before]
      rfl
    · rw [Bool.eq_false_iff]
      intro there
      obtain ⟨l, walked, -⟩ := (isDirectory_iff_foldlM legal).1 there
      rw [eq, foldlM_enterAt_of_error before filled] at walked
      cases walked

/-- A directory that cannot be made where it was missed is in the way of what lies further on: the way to it fails, its
name is too long, the directory there takes nothing, or the name is that of a file. The file was there before, so the
way to it took a step back. -/
theorem blocks_of_failed {p q : Path} {e : FileError} (up : p.parent? = some q)
    (normal : p.steps = [] ∨ ∃ front name, Path.segments p.bytes = front ++ [name] ∧ (Path.component? name).isSome)
    (opened : Opened p t u) (missed : t.makeDirectory p = .error .noEntry) (failed : u.makeDirectory p = .error e)
    (none : u.isDirectory p = false) : u.Blocks p e := by
  have filled := Path.filled_of_parent? up
  have legal := segmentsOf_of_missed filled missed
  obtain ⟨same, above⟩ := Path.parent?_spec up
  cases above with
  | nowhere _ silent => exact absurd missed (not_missed_of_silent filled silent)
  | @step name steps loud _ =>
    have named := filled_of_loud loud
    rcases normal with silent | ⟨front, other, eq, loud'⟩
    · exact absurd missed (not_missed_of_silent filled silent)
    have whole := Path.steps_concat eq loud'
    rw [steps] at whole
    obtain ⟨above, rfl⟩ : q.steps = front.filter (fun segment => (Path.component? segment).isSome) ∧ name = other := by
      simpa using List.append_inj' whole rfl
    cases arrived : u.arrive (u.start p) front with
    | error e' =>
      have blocked : u.arrive (u.start q) q.steps = .error e' := by rw [start_eq same, above, ← arrive_filter, arrived]
      obtain ⟨failed', -⟩ := makeDirectory_of_blocked same steps loud legal blocked
      rw [failed] at failed'
      cases failed'
      refine ⟨e, ?_, .inr (.inl rfl)⟩
      rw [steps, ← start_eq same]
      exact arrive_append_of_error blocked named []
    | ok l =>
      have kept : ((Path.segments p.bytes).reverse.dropWhile (· = [])).reverse = front ++ [name] := by
        simp [eq, named]
      have goal (v : Tree Empty) := goalOf_of_kept legal kept named v
      have arrived' : u.arrive (u.start p) q.steps = .ok l := by rw [above, ← arrive_filter, arrived]
      rw [makeDirectory_of_goal (goal u) named arrived] at failed
      split at failed
      · -- two dots lead back to a directory that is there
        rename_i dots
        obtain ⟨walked, here, open'⟩ := arrive_eq_ok_iff.1 arrived
        have lone : name ≠ [Path.dot] := by
          rintro rfl
          cases loud
        have back : u.enterAt l name = .ok l.dropLast := by
          rw [enterAt, if_pos here, if_neg named, if_neg (by simp [open']), if_neg lone, if_pos (dots.resolve_left lone)]
        have there : u.isDirectory p := by
          refine (isDirectory_iff_foldlM legal).2 ⟨l.dropLast, ?_, get?_dropLast here⟩
          rw [eq, foldlM_append_of_ok walked, List.foldlM_cons, back]
          rfl
        rw [none] at there
        cases there
      · rename_i forward
        have onward := arrive_concat_of_forward arrived' loud (not_or.1 forward).2
        rw [← steps] at onward
        split at failed
        · rename_i long
          cases failed
          rw [if_pos long] at onward
          exact ⟨.nameTooLong, onward, .inr (.inl rfl)⟩
        · rename_i short
          rw [if_neg short] at onward
          split at failed
          · rename_i present
            cases failed
            rw [if_pos present, enterAt_dot] at onward
            obtain ⟨entry, held⟩ := Option.isSome_iff_exists.1 present
            cases entry with
            | link target => exact target.elim
            | directory =>
              obtain ⟨walked, here, open'⟩ := arrive_eq_ok_iff.1 arrived
              have there : u.isDirectory p := by
                refine (isDirectory_iff_foldlM legal).2 ⟨l ++ [name], ?_, held⟩
                rw [eq, foldlM_append_of_ok walked, List.foldlM_cons, enterAt, if_pos here, if_neg named,
                  if_neg (by simp [open']), if_neg (not_or.1 forward).1, if_neg (not_or.1 forward).2, if_neg short,
                  if_pos present]
                rfl
              rw [none] at there
              cases there
            | file c =>
              have other : u.get? (l ++ [name]) ≠ some .directory := by
                simp [held]
              rw [if_neg other] at onward
              -- only directories are new, so the file blocked the way before, and yet nothing was noticed
              have before : t.get? (l ++ [name]) = some (.file c) := opened.file_back held
              have back := step_back_of_missed opened.extended.setting (goal t) named missed forward short arrived before
              refine ⟨.notDirectory, onward, .inr (.inr ⟨rfl, rfl, ?_⟩)⟩
              rw [steps, above]
              exact List.mem_append_left _ (List.mem_filter.2 ⟨back, by decide⟩)
          · rename_i missing
            rw [if_neg missing] at onward
            exact ⟨.noEntry, onward, .inl rfl⟩

end Tree

namespace Session

open Host

theorem perform_ensureDirectory_of_error {s : Session Empty} {p : Path} {e : FileError}
    (failed : s.tree.makeDirectory p = .error e) (none : s.tree.isDirectory p = false) :
    s.perform (ensureDirectory p) = (.error e, s) := by
  rw [perform_ensureDirectory, failed]
  dsimp only
  rw [none]
  rfl

/-- What is there is not made, nor is the directory that the empty path stands for. -/
theorem perform_makeDirectoriesUpTo_of_there {s : Session Empty} {p : Path} (count : Nat)
    (h : s.tree.isDirectory p ∨ p.bytes = [] ∧ 0 < count) :
    s.perform (makeDirectoriesUpTo count p) = (.ok (), s) := by
  cases count with
  | zero =>
    have there : s.tree.isDirectory p := h.resolve_right fun other => Nat.lt_irrefl 0 other.2
    have known := perform_ensureDirectory s p
    rw [Tree.makeDirectory_of_isDirectory there] at known
    dsimp only at known
    rwa [if_pos there] at known
  | succ count =>
    rw [perform_makeDirectoriesUpTo]
    split
    · rfl
    · rename_i filled
      have there : s.tree.isDirectory p := h.resolve_right fun other => filled other.1
      rw [Tree.makeDirectory_of_isDirectory there]
      dsimp only
      rw [if_pos there]

/-- A directory that cannot be made in one step cannot be made in more. -/
theorem perform_makeDirectoriesUpTo_of_error {s : Session Empty} {p : Path} {e : FileError} (filled : p.bytes ≠ [])
    (failed : s.tree.makeDirectory p = .error e) (other : e ≠ .noEntry) (none : s.tree.isDirectory p = false)
    (count : Nat) : s.perform (makeDirectoriesUpTo (count + 1) p) = (.error e, s) := by
  rw [perform_makeDirectoriesUpTo, if_neg filled, failed]
  split
  · cases ‹_›
  · rename_i same
    cases same
    exact absurd rfl other
  · rename_i same
    cases same
    rw [none]
    rfl

/-- Where a directory cannot be made, nothing has changed, or it cannot be made again, and is in the way of what lies
further on. -/
theorem again_of_failed {s s' : Session Empty} {count : Nat} {p : Path} {e : FileError}
    (h : s.perform (makeDirectoriesUpTo count p) = (.error e, s')) :
    s' = s ∨
      (∃ e', s'.perform (makeDirectoriesUpTo count p) = (.error e', s') ∧ Tree.Recasts p.steps e e') ∧
        ((p.steps = [] ∨ ∃ front name, Path.segments p.bytes = front ++ [name] ∧ (Path.component? name).isSome) →
          s'.tree.Blocks p e) := by
  induction count generalizing p e s' with
  | zero =>
    have known := perform_ensureDirectory s p
    rw [show s.perform (ensureDirectory p) = _ from h] at known
    split at known
    · cases known
    · split at known <;> cases known
      exact .inl rfl
  | succ count ih =>
    rw [perform_makeDirectoriesUpTo] at h
    split at h
    · cases h
    rename_i filled
    split at h
    · cases h
    · rename_i missed
      split at h
      · rename_i q up
        obtain ⟨same, above⟩ := Path.parent?_spec up
        have legal := Tree.segmentsOf_of_missed filled missed
        have opened := (opened_makeDirectoriesUpTo s count q).above up
        split at h
        · rename_i t eq
          rw [perform_ensureDirectory] at h
          rw [eq] at opened
          split at h
          · cases h
          · rename_i failed
            split at h
            · cases h
            · rename_i none
              cases h
              rw [Bool.not_eq_true] at none
              refine .inr ⟨⟨e, ?_, .inl rfl⟩, fun normal =>
                Tree.blocks_of_failed up normal opened missed failed none⟩
              by_cases missing : e = .noEntry
              · subst missing
                have there := (made_makeDirectoriesUpTo s count q).there
                rw [eq] at there
                have passed : s'.perform (makeDirectoriesUpTo count q) = (.ok (), s') := by
                  refine perform_makeDirectoriesUpTo_of_there count ((there rfl).symm.imp_right fun empty => ⟨empty, ?_⟩)
                  cases count with
                  | zero =>
                    obtain ⟨missed, none⟩ := @Tree.missed_of_empty s.tree q empty
                    cases (perform_ensureDirectory_of_error missed none).symm.trans eq
                  | succ count => exact Nat.succ_pos count
                rw [perform_makeDirectoriesUpTo, if_neg filled, failed]
                simp only [up, passed]
                exact perform_ensureDirectory_of_error failed none
              · exact perform_makeDirectoriesUpTo_of_error filled failed missing none count
        · rename_i e' t eq
          cases h
          rw [eq] at opened
          cases above with
          | nowhere _ silent => exact absurd missed (Tree.not_missed_of_silent filled silent)
          | @step name steps loud normal =>
            rcases ih eq with unchanged | ⟨⟨e', again, cause⟩, blocks⟩
            · exact .inl unchanged
            · obtain ⟨e₂, blocked, kind⟩ := blocks normal
              obtain ⟨failed, none⟩ := Tree.makeDirectory_of_blocked same steps loud legal blocked
              refine .inr ⟨?_, fun _ => ⟨e₂, ?_, ?_⟩⟩
              · by_cases missing : e₂ = .noEntry
                · subst missing
                  refine ⟨e', ?_, steps ▸ cause.append [name]⟩
                  rw [perform_makeDirectoriesUpTo, if_neg filled, failed]
                  simp only [up, again]
                · refine ⟨e₂, perform_makeDirectoriesUpTo_of_error filled failed missing none count, ?_⟩
                  rw [steps]
                  exact (kind.resolve_left missing).append [name]
              · rw [steps, ← Tree.start_eq same]
                exact Tree.arrive_append_of_error blocked (Tree.filled_of_loud loud) []
              · rw [steps]
                exact kind.imp_right fun recast => recast.append [name]
      · cases h
        exact .inl rfl
    · split at h <;> cases h
      exact .inl rfl

/-- Directories that are made again change nothing, and fail if they failed. Only a file that stood where a directory
was to be made, and that a step back led to, is noticed earlier. -/
theorem perform_makeDirectories_again {s s' : Session Empty} {p : Path} {r : Except FileError Unit}
    (h : s.perform (makeDirectories p) = (r, s')) :
    ∃ r', s'.perform (makeDirectories p) = (r', s') ∧
      (r' = r ∨ r = .error .alreadyExists ∧ r' = .error .notDirectory ∧ .parent ∈ p.components) := by
  cases r with
  | ok a =>
    have there := (made_makeDirectories s p).there
    rw [h] at there
    refine ⟨.ok (), perform_makeDirectoriesUpTo_of_there _ ?_, .inl rfl⟩
    exact (there rfl).symm.imp_right fun empty => ⟨empty, Nat.succ_pos _⟩
  | error e =>
    rcases again_of_failed h with rfl | ⟨⟨e', again, cause⟩, -⟩
    · exact ⟨_, h, .inl rfl⟩
    · refine ⟨.error e', again, ?_⟩
      rcases cause with rfl | ⟨rfl, rfl, back⟩
      · exact .inl rfl
      · exact .inr ⟨rfl, rfl, Path.parent_mem_components back⟩

end Session
end CycleChart
