import CycleChart.Proofs.Files.Remaking

namespace CycleChart

namespace Tree

section

variable {L : Type} {t : Tree L} {l : Location} {c : Content}

/-- Something that a file takes whole. -/
def Takes (t : Tree L) (l : Location) (c : Content) : Prop := ∀ size, t.capacity l = some size → c.toBytes.length ≤ size

theorem fill_eq_ok_iff : (t.fill l c).1 = .ok () ↔ t.Takes l c := by
  rw [fill, Takes]
  cases t.capacity l with
  | none => simp
  | some size =>
    dsimp only
    split
    · rename_i fits
      simpa using fits
    · rename_i large
      simpa using large

theorem fill_of_takes (h : t.Takes l c) : t.fill l c = (.ok (), c) := by
  rw [fill]
  cases known : t.capacity l with
  | none => rfl
  | some size => exact if_pos (h size known)

/-- What does not fit leaves its beginning. -/
theorem fill_error {e : FileError} (h : (t.fill l c).1 = .error e) :
    e = .fileTooLarge ∧ ∃ bytes, (t.fill l c).2 = .bytes bytes := by
  rw [fill] at h ⊢
  split at h
  · cases h
  · split at h
    · cases h
    · rename_i large
      cases h
      exact ⟨rfl, _, by rw [if_neg large]⟩

end

variable {t : Tree Empty}

/-- Where a file that is opened to be written lies, told by what lies where. -/
theorem opened_of_goal {p : Path} {front : List Name} {name : Name} {slashed : Bool} {l : Location}
    (goal : t.goalOf p = (t.arrive (t.start p) front).map fun l => ⟨l, name, t.get? (l ++ [name]), slashed⟩)
    (filled : name ≠ []) (arrived : t.arrive (t.start p) front = .ok l) :
    t.opened p =
      if (name = [Path.dot] ∨ name = [Path.dot, Path.dot]) ∨ slashed then .error .isDirectory
      else if longestName < name.length then .error .nameTooLong
      else if t.get? (l ++ [name]) = some .directory then .error .isDirectory
      else if (t.rights (t.changedAt l name)).write = false then .error .accessDenied
      else .ok (l, name) := by
  rw [opened_eq, goal, arrived]
  simp only [Except.map, bind, Except.bind, Goal.isDots, filled, decide_false, Bool.false_or, Bool.or_eq_true,
    decide_eq_true_eq]
  rfl

/-- A path at which a file can be opened to be written: it names something in a directory that may be searched, the name
is not too long, no directory has it, and what is there may be written, or the directory if nothing is. -/
structure Opens (t : Tree Empty) (p : Path) (l : Location) (name : Name) : Prop where
  legal : segmentsOf p = .ok (Path.segments p.bytes)
  named : ∃ front, Path.segments p.bytes = front ++ [name] ∧ t.arrive (t.start p) front = .ok l
  normal : Path.component? name = some (.normal name)
  short : name.length ≤ longestName
  free : t.get? (l ++ [name]) ≠ some .directory
  allowed : (t.rights (t.changedAt l name)).write = true

theorem segmentsOf_of_opened {p : Path} {r : Location × Name} (h : t.opened p = .ok r) :
    segmentsOf p = .ok (Path.segments p.bytes) := by
  rw [opened_eq] at h
  obtain ⟨g, found, -⟩ := bind_eq_ok h
  obtain ⟨parts, legal, -⟩ := bind_eq_ok found
  rw [legal, (segmentsOf_eq_ok legal).1]

theorem opened_eq_ok_iff {p : Path} {l : Location} {name : Name} : t.opened p = .ok (l, name) ↔ t.Opens p l name := by
  constructor
  · intro opened
    have legal := segmentsOf_of_opened opened
    rcases exists_goal legal with ⟨-, goal⟩ | ⟨front, last, count, filled, eq, goal⟩
    · obtain ⟨e, b, goal⟩ := goal t
      rw [opened_eq, goal] at opened
      cases opened
    · cases arrived : t.arrive (t.start p) front with
      | error e =>
        rw [opened_eq, goal, arrived] at opened
        cases opened
      | ok k =>
        rw [opened_of_goal (goal t) filled arrived] at opened
        split at opened
        · cases opened
        · rename_i named
          simp only [decide_eq_true_eq, not_or, Nat.not_lt, Nat.le_zero] at named
          obtain ⟨⟨alone, forward⟩, rfl⟩ := named
          split at opened
          · cases opened
          · rename_i short
            split at opened
            · cases opened
            · rename_i free
              split at opened
              · cases opened
              · rename_i allowed
                cases opened
                exact ⟨legal, ⟨front, eq, arrived⟩, Path.component?_eq_normal_iff.2 ⟨filled, alone, forward⟩,
                  Nat.not_lt.1 short, free, by simpa using allowed⟩
  · rintro ⟨legal, ⟨front, eq, arrived⟩, normal, short, free, allowed⟩
    obtain ⟨filled, alone, forward⟩ := Path.component?_eq_normal_iff.1 normal
    have kept : ((Path.segments p.bytes).reverse.dropWhile (· = [])).reverse = front ++ [name] := by
      simp [eq, filled]
    rw [opened_of_goal (goalOf_of_kept legal kept filled t) filled arrived, if_neg, if_neg (Nat.not_lt.2 short),
      if_neg free, if_neg (by simp [allowed])]
    simp [eq, alone, forward]

theorem enterAt_ne_tooLarge {l : Location} {segment : Name} : t.enterAt l segment ≠ .error .fileTooLarge := by
  rw [enterAt]
  grind

theorem foldlM_enterAt_ne_tooLarge {parts : List Name} {l : Location} :
    parts.foldlM t.enterAt l ≠ .error .fileTooLarge := by
  induction parts generalizing l with
  | nil => nofun
  | cons segment parts ih =>
    rw [List.foldlM_cons]
    cases step : t.enterAt l segment with
    | error e =>
      intro same
      cases same
      exact enterAt_ne_tooLarge step
    | ok m => exact ih

/-- A file that cannot be opened is not too large. -/
theorem opened_ne_tooLarge {p : Path} : t.opened p ≠ .error .fileTooLarge := by
  intro failed
  cases legal : segmentsOf p with
  | error e =>
    rw [opened_eq, goalOf, legal] at failed
    cases failed
    rw [segmentsOf] at legal
    grind
  | ok parts =>
    obtain ⟨rfl, -⟩ := segmentsOf_eq_ok legal
    rcases exists_goal legal with ⟨-, goal⟩ | ⟨front, last, count, filled, -, goal⟩
    · obtain ⟨e, b, goal⟩ := goal t
      rw [opened_eq, goal] at failed
      cases failed
    · cases arrived : t.arrive (t.start p) front with
      | error e =>
        rw [opened_eq, goal, arrived] at failed
        cases failed
        exact foldlM_enterAt_ne_tooLarge arrived
      | ok l =>
        rw [opened_of_goal (goal t) filled arrived] at failed
        grind

/-- Something is written just where its file can be opened and takes it. -/
theorem write_eq_ok_iff {p : Path} {c : Content} :
    (t.write p c).1 = .ok () ↔ ∃ l name, t.Opens p l name ∧ t.Takes (l ++ [name]) c := by
  rw [write]
  cases opened : t.opened p with
  | error e =>
    constructor
    · intro written
      cases written
    · rintro ⟨l, name, opens, -⟩
      rw [opened_eq_ok_iff.2 opens] at opened
      cases opened
  | ok r =>
    obtain ⟨l, name⟩ := r
    show (t.fill (l ++ [name]) c).1 = .ok () ↔ _
    rw [fill_eq_ok_iff]
    constructor
    · exact fun takes => ⟨l, name, opened_eq_ok_iff.1 opened, takes⟩
    · rintro ⟨k, other, opens, takes⟩
      have same := opened.symm.trans (opened_eq_ok_iff.2 opens)
      cases same
      exact takes

end Tree
end CycleChart
