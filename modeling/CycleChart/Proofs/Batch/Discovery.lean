import CycleChart.Proofs.Batch.Alone
import CycleChart.Proofs.Files.Inside
import CycleChart.Proofs.Path.Naming

namespace CycleChart

open Session

variable {L : Type}

theorem Node.ordered_get? {n m : Node L} {l : Location} (h : n.Ordered) (found : n.get? l = some m) : m.Ordered := by
  induction l generalizing n with
  | nil =>
    cases found
    exact h
  | cons name l ih =>
    rw [get?] at found
    split at found
    · rename_i child here
      cases h with
      | file c => cases here
      | link target => cases here
      | directory ascending each => exact ih (each _ (mem_of_lookupEntry here)) found
    · cases found

variable [Links L]

namespace Tree

/-- The names inside a directory come in ascending order. -/
theorem ascending_names {t : Tree L} {p : Path} {names : List Name} (h : t.names p = .ok names) :
    names.Pairwise (· < ·) := by
  obtain ⟨l, inside, -, there, -, rfl⟩ := names_eq_ok h
  have ordered := Node.ordered_get? t.ordered there
  cases ordered with
  | directory ascending each => exact List.pairwise_map.2 ascending

/-- The names in a directory that is come to by way of others. -/
def namesBeyond (t : Tree L) : List Path → Path → Except FileError (List Name)
  | [], directory => t.names directory
  | passed :: rest, directory => do
    let _ ← t.names passed
    t.namesBeyond rest directory

theorem namesBeyond_eq_ok_iff {t : Tree L} {passed : List Path} {directory : Path} {names : List Name} :
    t.namesBeyond passed directory = .ok names ↔
      (∀ p ∈ passed, ∃ others, t.names p = .ok others) ∧ t.names directory = .ok names := by
  induction passed with
  | nil => simp [namesBeyond]
  | cons p rest ih =>
    rw [namesBeyond, List.forall_mem_cons]
    cases t.names p with
    | error e => simp [bind, Except.bind]
    | ok others => simpa [bind, Except.bind] using ih

end Tree

namespace Batch

theorem suffix_of_isReportName {name : Name} (h : isReportName name) : (Path.ofString ".json").bytes <:+ name := by
  simp only [isReportName, Bool.and_eq_true, List.isSuffixOf_iff_suffix] at h
  exact h.1

/-- The path at which the reports are looked for: the text that the path of their directory reads as. -/
def sought (b : Batch) : Path := .ofString (Text.readable b.reports.bytes)

/-- The names of the reports among some names in a directory that is spelled so. -/
def listed (t : Tree L) (directory : Path) (names : List Name) : List Name :=
  (names.filter isReportName).filter fun name => t.isFile (directory.step name)

/-- The reports that are found in a tree. -/
def found (b : Batch) (t : Tree L) : Except BatchError (List Path) :=
  if t.isDirectory b.reports then
    match b.sought.spelled? with
    | none => .ok []
    | some directory =>
      match t.namesBeyond b.sought.listedOn directory with
      | .error _ => .ok []
      | .ok names => .ok ((listed t directory names).map directory.step)
  else .error (.notDirectory b.reports)

/-- A host that finds what a tree holds. -/
structure Finds {S : Type} [Host (StateM S)] (tree : S → Tree L) : Prop where
  isDirectory : ∀ p s, (Host.isDirectory p : StateM S Bool).run s = ((tree s).isDirectory p, s)
  isFile : ∀ p s, (Host.isFile p : StateM S Bool).run s = ((tree s).isFile p, s)
  names : ∀ p s, (Host.names p : ExceptT FileError (StateM S) (List Name)).run.run s = ((tree s).names p, s)

section

variable {S : Type} [Host (StateM S)] {tree : S → Tree L}

theorem run_filterM_isFile (finds : Finds tree) (paths : List Path) (s : S) :
    (paths.filterM Host.isFile : StateM S (List Path)).run s = (paths.filter (tree s).isFile, s) := by
  have aux (kept : List Path) :
      (paths.filterAuxM Host.isFile kept : StateM S (List Path)).run s =
        ((paths.filter (tree s).isFile).reverse ++ kept, s) := by
    induction paths generalizing kept with
    | nil => rfl
    | cons p paths ih =>
      rw [List.filterAuxM, StateT.run_bind, finds.isFile]
      apply (ih _).trans
      cases file : (tree s).isFile p <;> simp [file]
  rw [List.filterM, StateT.run_bind, aux]
  refine congrArg (·, s) (?_ : ((paths.filter (tree s).isFile).reverse ++ []).reverse = _)
  simp

theorem run_namesBeyond (finds : Finds tree) (passed : List Path) (directory : Path) (s : S) :
    (namesBeyond passed directory : ExceptT FileError (StateM S) (List Name)).run.run s =
      ((tree s).namesBeyond passed directory, s) := by
  induction passed with
  | nil => exact finds.names directory s
  | cons p rest ih =>
    rw [namesBeyond, run_then, finds.names, Tree.namesBeyond]
    cases (tree s).names p with
    | error e => rfl
    | ok others => exact ih

/-- Looking for reports changes nothing. -/
theorem run_discover (finds : Finds tree) (b : Batch) (s : S) :
    (b.discover : ExceptT BatchError (StateM S) (List Path)).run.run s = (b.found (tree s), s) := by
  rw [discover, run_then, run_lift, finds.isDirectory, found]
  dsimp only
  cases (tree s).isDirectory b.reports with
  | false => rfl
  | true =>
    change (match b.sought.spelled? with | none => _ | some directory => _ : ExceptT BatchError (StateM S) _).run.run s = _
    cases b.sought.spelled? with
    | none => rfl
    | some directory =>
      rw [run_then, run_lift, run_namesBeyond finds]
      have same : Path.ofString (Text.readable b.reports.bytes) = b.sought := rfl
      dsimp only
      rw [same]
      cases listing : (tree s).namesBeyond b.sought.listedOn directory with
      | error e => rfl
      | ok names =>
        have ascending := Tree.ascending_names (Tree.namesBeyond_eq_ok_iff.1 listing).2
        have sorted : (names.filter isReportName).mergeSort (fun a b => decide (a ≤ b)) = names.filter isReportName :=
          List.mergeSort_of_pairwise ((ascending.filter _).imp fun less => decide_eq_true (Std.le_of_lt less))
        dsimp only
        rw [sorted, run_lift, run_filterM_isFile finds, List.filter_map]
        rfl

end

theorem finds_session : Finds (Session.tree : Session L → Tree L) := ⟨fun _ _ => rfl, fun _ _ => rfl, fun _ _ => rfl⟩

theorem perform_discover (b : Batch) (s : Session L) : s.perform b.discover = (b.found s.tree, s) :=
  run_discover finds_session b s

/-- The directory in which reports are looked for, and the names there, as far as they can be listed. -/
structure Looks (b : Batch) (t : Tree L) (directory : Path) (names : List Name) : Prop where
  spelled : b.sought.spelled? = some directory
  passed : ∀ p ∈ b.sought.listedOn, ∃ others, t.names p = .ok others
  names : t.names directory = .ok names

theorem isDirectory_of_found {b : Batch} {t : Tree L} {reports : List Path} (h : b.found t = .ok reports) :
    t.isDirectory b.reports := by
  rw [found] at h
  split at h
  · assumption
  · cases h

theorem found_of_looks {b : Batch} {t : Tree L} (there : t.isDirectory b.reports) {directory : Path} {names : List Name}
    (looks : b.Looks t directory names) : b.found t = .ok ((listed t directory names).map directory.step) := by
  rw [found, if_pos there, looks.spelled]
  dsimp only
  rw [Tree.namesBeyond_eq_ok_iff.2 ⟨looks.passed, looks.names⟩]

theorem found_of_not_looks {b : Batch} {t : Tree L} (there : t.isDirectory b.reports)
    (blind : ∀ directory names, ¬b.Looks t directory names) : b.found t = .ok [] := by
  rw [found, if_pos there]
  split
  · rfl
  · rename_i directory spelled
    split
    · rfl
    · rename_i names listing
      obtain ⟨passed, named⟩ := Tree.namesBeyond_eq_ok_iff.1 listing
      exact absurd ⟨spelled, passed, named⟩ (blind directory names)

/-- The reports that are found are files among the names in the directory, if it is looked through. -/
theorem found_eq_ok {b : Batch} {t : Tree L} {reports : List Path} (h : b.found t = .ok reports) :
    (∃ directory names, b.Looks t directory names ∧ reports = (listed t directory names).map directory.step) ∨
      (∀ directory names, ¬b.Looks t directory names) ∧ reports = [] := by
  have there := isDirectory_of_found h
  by_cases looks : ∃ directory names, b.Looks t directory names
  · obtain ⟨directory, names, looks⟩ := looks
    rw [found_of_looks there looks, Except.ok.injEq] at h
    exact .inl ⟨directory, names, looks, h.symm⟩
  · have blind : ∀ directory names, ¬b.Looks t directory names := fun directory names see => looks ⟨_, _, see⟩
    rw [found_of_not_looks there blind, Except.ok.injEq] at h
    exact .inr ⟨blind, h.symm⟩

theorem Looks.ascending {b : Batch} {t : Tree L} {directory : Path} {names : List Name}
    (looks : b.Looks t directory names) : (listed t directory names).Pairwise (· < ·) :=
  ((Tree.ascending_names looks.names).filter _).filter _

theorem mem_listed {t : Tree L} {directory : Path} {names : List Name} {name : Name} :
    name ∈ listed t directory names ↔ name ∈ names ∧ isReportName name ∧ t.isFile (directory.step name) := by
  rw [listed, List.mem_filter, List.mem_filter, and_assoc]

end Batch

namespace Path

/-- The name of the chart of a report. -/
def chartName (report : Path) : List UInt8 := report.fileStem.getD report.bytes ++ (ofString ".png").bytes

theorem chart_eq_join (report directory : Path) : report.chart directory = directory.join ⟨report.chartName⟩ := rfl

theorem ends_join {ending name : List UInt8} (ends : ending <:+ name) (directory : Path) :
    ending <:+ (directory.join ⟨name⟩).bytes := by
  rw [join]
  split
  · exact ends
  · split
    · exact ends.trans (List.suffix_append _ _)
    · exact ends.trans ((List.suffix_cons _ _).trans (List.suffix_append _ _))

theorem ends_step {ending name : List UInt8} (ends : ending <:+ name) (directory : Path) :
    ending <:+ (directory.step name).bytes := by
  rw [step]
  split
  · exact ends
  · exact ends_join ends directory

/-- One step further from a directory, different names lead to different paths. -/
theorem eq_of_step {directory : Path} {a b : List UInt8} (h : directory.step a = directory.step b) (clear : slash ∉ a)
    (clear' : slash ∉ b) : a = b := by
  by_cases current : directory.isCurrent
  · simpa [step, current] using h
  · simp only [step, current, Bool.false_eq_true, if_false] at h
    exact eq_of_join h (not_isRooted_of_not_mem clear) (not_isRooted_of_not_mem clear')

theorem fileName_step {directory : Path} {name : List UInt8} (clear : slash ∉ name)
    (normal : component? name = some (.normal name)) : (directory.step name).fileName = some name := by
  rw [step]
  split
  · exact @fileName_of_segments ⟨name⟩ [] name (segments_of_not_mem clear) normal
  · exact fileName_join directory clear normal

/-- The last segment of a path is its name, if it ends as the names of reports do. -/
theorem name_of_ends {report : Path} (ends : (ofString ".json").bytes <:+ report.bytes) :
    ∃ parts name, segments report.bytes = parts ++ [name] ∧ slash ∉ name ∧ (ofString ".json").bytes <:+ name ∧
      component? name = some (.normal name) ∧ report.fileName = some name := by
  obtain ⟨parts, name, eq, clear, ends⟩ := exists_last_segment ends (by decide)
  have normal := component?_of_ending ends (by decide)
  exact ⟨parts, name, eq, clear, ends, normal, fileName_of_segments eq normal⟩

theorem isChartName {report : Path} (ends : (ofString ".json").bytes <:+ report.bytes) :
    Tree.IsChartName report.chartName := by
  obtain ⟨parts, name, -, clear, -, -, known⟩ := name_of_ends ends
  have stem : report.fileStem = some (stemOf name) := by rw [fileStem, known]; rfl
  constructor
  · rw [chartName, stem, Option.getD_some, List.mem_append, not_or]
    exact ⟨fun mem => clear ((prefix_stemOf name).subset mem), by decide⟩
  · exact List.suffix_append _ _

end Path

namespace Tree

/-- What ends a path ends the last name of where it leads to. -/
theorem exists_last_name {t : Tree Empty} {p : Path} {ending : List UInt8} (ends : ending <:+ p.bytes)
    (clear : Path.slash ∉ ending) (long : 2 < ending.length) {l : Location} (place : t.placeOf p = .ok l) :
    ∃ k name, l = k ++ [name] ∧ ending <:+ name := by
  obtain ⟨parts, name, eq, -, ends⟩ := Path.exists_last_segment ends clear
  have walked := (placeOf_eq_ok place).2
  rw [eq] at walked
  obtain ⟨k, -, step⟩ := foldlM_enterAt_concat walked
  obtain ⟨-, -, -, -, same⟩ := (enterAt_normal_eq_ok (Path.component?_of_ending ends long)).1 step
  exact ⟨k, name, same, ends⟩

theorem not_isPicture_concat {name : Name} (ends : (Path.ofString ".json").bytes <:+ name) (l : Location) :
    ¬IsPicture (l ++ [name]) := by
  rw [IsPicture, List.getLast?_concat, Option.getD_some]
  intro picture
  exact absurd (List.suffix_of_suffix_length_le picture ends (by decide)) (by decide)

/-- What lies under the name of a report is no picture. -/
theorem not_isPicture {t : Tree Empty} {report : Path} (ends : (Path.ofString ".json").bytes <:+ report.bytes)
    {l : Location} (place : t.placeOf report = .ok l) : ¬IsPicture l := by
  obtain ⟨k, name, rfl, ends⟩ := exists_last_name ends (by decide) (by decide) place
  exact not_isPicture_concat ends k

/-- What lies under the name of a chart is a picture. -/
theorem isPicture_of_ends {t : Tree Empty} {p : Path} (ends : (Path.ofString ".png").bytes <:+ p.bytes) {l : Location}
    (place : t.placeOf p = .ok l) : IsPicture l := by
  obtain ⟨k, name, rfl, ends⟩ := exists_last_name ends (by decide) (by decide) place
  rw [IsPicture, List.getLast?_concat, Option.getD_some]
  exact ends

end Tree
end CycleChart
