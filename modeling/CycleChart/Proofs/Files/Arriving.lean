import CycleChart.Proofs.Files.Making
import CycleChart.Proofs.Path.Parents

namespace CycleChart.Tree

variable {t : Tree Empty}

/-- Where some segments lead to, if that is a directory that may be searched. -/
def arrive (t : Tree Empty) (l : Location) (parts : List Name) : Except FileError Location :=
  (parts ++ [[Path.dot]]).foldlM t.enterAt l

theorem get?_dropLast {l : Location} (here : t.get? l = some .directory) : t.get? l.dropLast = some .directory := by
  rcases List.eq_nil_or_concat l with rfl | ⟨front, name, rfl⟩
  · exact here
  · rw [List.concat_eq_append, List.dropLast_concat]
    rw [List.concat_eq_append] at here
    exact get?_of_child here

theorem enterAt_blank (t : Tree Empty) (l : Location) :
    t.enterAt l [] = if t.get? l = some .directory then .ok l else .error .notDirectory := rfl

theorem enterAt_dot (t : Tree Empty) (l : Location) :
    t.enterAt l [Path.dot] =
      if t.get? l = some .directory then
        if (t.rights l).search = false then .error .accessDenied else .ok l
      else .error .notDirectory := rfl

theorem enterAt_dot_eq_ok {l m : Location} :
    t.enterAt l [Path.dot] = .ok m ↔ l = m ∧ t.get? m = some .directory ∧ (t.rights m).search = true := by
  rw [enterAt_dot]
  split
  · rename_i here
    split
    · rename_i barred
      refine ⟨nofun, ?_⟩
      rintro ⟨rfl, -, open'⟩
      rw [barred] at open'
      cases open'
    · rename_i open'
      rw [Bool.not_eq_false] at open'
      constructor
      · intro same
        cases same
        exact ⟨rfl, here, open'⟩
      · rintro ⟨rfl, -⟩
        rfl
  · rename_i other
    refine ⟨nofun, ?_⟩
    rintro ⟨rfl, here, -⟩
    exact absurd here other

theorem foldlM_append_of_ok {parts : List Name} {l m : Location} (walked : parts.foldlM t.enterAt l = .ok m)
    (more : List Name) : (parts ++ more).foldlM t.enterAt l = more.foldlM t.enterAt m := by
  rw [List.foldlM_append, walked]
  rfl

theorem foldlM_append_of_error {parts : List Name} {l : Location} {e : FileError}
    (walked : parts.foldlM t.enterAt l = .error e) (more : List Name) :
    (parts ++ more).foldlM t.enterAt l = .error e := by
  rw [List.foldlM_append, walked]
  rfl

theorem foldlM_enterAt_of_other {l : Location} (h : t.get? l ≠ some .directory) {parts : List Name}
    (some : parts ≠ []) : parts.foldlM t.enterAt l = .error .notDirectory := by
  cases parts with
  | nil => exact absurd rfl some
  | cons segment parts =>
    rw [List.foldlM_cons, enterAt, if_neg h]
    rfl

/-- A segment that is not empty does not get into a directory that may not be searched. -/
theorem foldlM_enterAt_of_barred {l : Location} (here : t.get? l = some .directory)
    (barred : (t.rights l).search = false) {segment : Name} (filled : segment ≠ []) (parts : List Name) :
    (segment :: parts).foldlM t.enterAt l = .error .accessDenied := by
  rw [List.foldlM_cons, enterAt, if_pos here, if_neg filled, if_pos barred]
  rfl

theorem filled_of_loud {segment : Name} (h : (Path.component? segment).isSome) : segment ≠ [] := by
  rintro rfl
  cases h

/-- On the way to a directory that is searched, segments that say nothing may be left out. -/
theorem arrive_filter (t : Tree Empty) (l : Location) (parts : List Name) :
    t.arrive l parts = t.arrive l (parts.filter fun segment => (Path.component? segment).isSome) := by
  induction parts generalizing l with
  | nil => rfl
  | cons segment parts ih =>
    by_cases silent : Path.component? segment = none
    · rw [List.filter_cons_of_neg (by simp [silent]), arrive, List.cons_append]
      by_cases here : t.get? l = some .directory
      · rcases Path.component?_eq_none_iff.1 silent with rfl | rfl
        · rw [List.foldlM_cons, enterAt_blank, if_pos here]
          exact ih l
        · rw [List.foldlM_cons, enterAt_dot, if_pos here]
          split
          · rename_i barred
            -- what comes next is barred as well
            rw [arrive]
            cases next : parts.filter fun segment => (Path.component? segment).isSome with
            | nil => exact (foldlM_enterAt_of_barred here barred (by decide) []).symm
            | cons first rest =>
              have mem : first ∈ parts.filter fun segment => (Path.component? segment).isSome := by
                rw [next]
                exact List.mem_cons_self
              exact (foldlM_enterAt_of_barred here barred (filled_of_loud (List.mem_filter.1 mem).2) _).symm
          · exact ih l
      · rw [arrive, foldlM_enterAt_of_other here (by simp), foldlM_enterAt_of_other here (by simp)]
    · rw [List.filter_cons_of_pos (by simpa [Option.isSome_iff_ne_none] using silent), arrive, arrive, List.cons_append,
        List.cons_append, List.foldlM_cons, List.foldlM_cons]
      cases t.enterAt l segment with
      | error e => rfl
      | ok m => exact ih m

theorem arrive_nil (t : Tree Empty) (l : Location) : t.arrive l [] = t.enterAt l [Path.dot] := by
  rw [arrive, List.nil_append, List.foldlM_cons]
  cases t.enterAt l [Path.dot] <;> rfl

theorem arrive_eq_ok_iff {parts : List Name} {l m : Location} :
    t.arrive l parts = .ok m ↔
      parts.foldlM t.enterAt l = .ok m ∧ t.get? m = some .directory ∧ (t.rights m).search = true := by
  rw [arrive]
  cases walked : parts.foldlM t.enterAt l with
  | error e =>
    rw [foldlM_append_of_error walked]
    exact ⟨nofun, nofun⟩
  | ok k =>
    have last : [[Path.dot]].foldlM t.enterAt k = t.enterAt k [Path.dot] := t.arrive_nil k
    rw [foldlM_append_of_ok walked, last, enterAt_dot_eq_ok]
    constructor
    · rintro ⟨rfl, rest⟩
      exact ⟨rfl, rest⟩
    · rintro ⟨same, rest⟩
      exact ⟨Except.ok.inj same, rest⟩

theorem arrive_append_of_ok {parts : List Name} {l m : Location} (h : t.arrive l parts = .ok m) (more : List Name) :
    t.arrive l (parts ++ more) = t.arrive m more := by
  rw [arrive, List.append_assoc, foldlM_append_of_ok (arrive_eq_ok_iff.1 h).1]
  rfl

/-- One segment further from a directory, if the segment says something and does not lead back. -/
theorem arrive_concat_of_forward {parts : List Name} {l m : Location} (h : t.arrive l parts = .ok m) {name : Name}
    (loud : (Path.component? name).isSome) (forward : name ≠ [Path.dot, Path.dot]) :
    t.arrive l (parts ++ [name]) =
      if longestName < name.length then .error .nameTooLong
      else if (t.get? (m ++ [name])).isSome then t.enterAt (m ++ [name]) [Path.dot]
      else .error .noEntry := by
  obtain ⟨-, here, open'⟩ := arrive_eq_ok_iff.1 h
  have silent : name ≠ [Path.dot] := by
    rintro rfl
    cases loud
  rw [arrive_append_of_ok h, arrive, List.singleton_append, List.foldlM_cons, enterAt, if_pos here,
    if_neg (filled_of_loud loud), if_neg (by simp [open']), if_neg silent, if_neg forward]
  split
  · rfl
  · split
    · exact t.arrive_nil _
    · rfl

/-- What does not lead to a directory that may be searched leads no further either. -/
theorem foldlM_enterAt_of_error {parts more : List Name} {l : Location} {e : FileError}
    (h : t.arrive l parts = .error e) {name : Name} (filled : name ≠ []) :
    (parts ++ name :: more).foldlM t.enterAt l = .error e := by
  cases walked : parts.foldlM t.enterAt l with
  | error e' =>
    rw [arrive, foldlM_append_of_error walked] at h
    rw [foldlM_append_of_error walked, h]
  | ok m =>
    rw [arrive, foldlM_append_of_ok walked, List.foldlM_cons, enterAt_dot] at h
    rw [foldlM_append_of_ok walked, List.foldlM_cons, enterAt]
    split at h
    · rename_i here
      split at h
      · rename_i barred
        rw [if_pos here, if_neg filled, if_pos barred]
        exact h
      · cases h
    · rename_i other
      rw [if_neg other]
      exact h

theorem arrive_append_of_error {parts : List Name} {l : Location} {e : FileError} (h : t.arrive l parts = .error e)
    {name : Name} (filled : name ≠ []) (more : List Name) : t.arrive l (parts ++ name :: more) = .error e := by
  rw [arrive, List.append_assoc]
  exact foldlM_enterAt_of_error h filled

theorem isDirectory_iff_foldlM {p : Path} (legal : segmentsOf p = .ok (Path.segments p.bytes)) :
    t.isDirectory p ↔
      ∃ l, (Path.segments p.bytes).foldlM t.enterAt (t.start p) = .ok l ∧ t.get? l = some .directory := by
  rw [isDirectory_iff, placeOf_eq, legal]
  rfl

end CycleChart.Tree
