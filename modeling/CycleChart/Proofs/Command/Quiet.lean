import CycleChart.Proofs.Batch.Isolation
import CycleChart.Proofs.Batch.Quiet
import CycleChart.Proofs.Batch.Sorting
import CycleChart.Proofs.Command.Arguments
import CycleChart.Proofs.Command.Ending

namespace CycleChart.Command

open Scene

/-! What is said in the end. -/

theorem namesFailure_failureLine (failed total : Nat) : (failureLine failed total).namesFailure = false := by
  rw [failureLine, String.append_assoc, String.append_assoc, String.append_assoc]
  exact Message.namesFailure_append (by decide) _

theorem filter_failedLine (failed : List Failure) :
    (failed.map failedLine).filter (·.namesFailure) = failed.map failedLine := by
  apply List.filter_eq_self.2
  intro message mem
  obtain ⟨f, -, rfl⟩ := List.mem_map.1 mem
  exact Message.namesFailure_failed f.report.quoted

/-- In the end each failed report is named, and nothing is named after a run that failed itself. -/
theorem filter_closing (r : Except BatchError Outcome) :
    (closing r).filter (·.namesFailure) = (r.toOption.elim [] (·.failed)).map failedLine := by
  cases r with
  | ok o =>
    show (closing (.ok o)).filter _ = o.failed.map failedLine
    rw [closing]
    split
    · rename_i success
      rw [List.isEmpty_iff.1 success]
      rfl
    · rw [List.filter_append, filter_failedLine, List.filter_singleton, namesFailure_failureLine]
      exact List.append_nil _
  | error e =>
    have plain := Message.namesFailure_append (s := "Error: ") (by decide) e.message
    cases e with
    | overflow cause => rfl
    | _ => exact List.filter_eq_nil_iff.2 (by simpa [closing] using plain)

theorem isOutput_of_closing {r : Except BatchError Outcome} {message : Message} (mem : message ∈ closing r) :
    message.isOutput = false := by
  rcases r with e | o
  · cases e with
    | overflow cause => cases mem
    | _ =>
      cases List.mem_singleton.1 mem
      rfl
  · rw [closing] at mem
    split at mem
    · cases mem
    · rcases List.mem_append.1 mem with named | last
      · obtain ⟨f, -, rfl⟩ := List.mem_map.1 named
        rfl
      · cases List.mem_singleton.1 last
        rfl

theorem namesFailure_of_summary {quiet : Bool} {r : Except BatchError Outcome} {message : Message}
    (mem : message ∈ summary quiet r) : message.namesFailure = false := by
  rcases r with e | o
  · cases mem
  · rw [summary] at mem
    split at mem
    · cases mem
    · cases List.mem_singleton.1 mem
      rfl

/-! The program on a disk. -/

section

variable {σ : Type} [Disk σ]

theorem saying_scene (messages : List Message) (s : Scene σ) :
    saying messages s = { s with said := s.said ++ messages } := by
  apply saying_eq fun (s : Scene σ) messages => { s with said := s.said ++ messages }
  · intro s
    rw [List.append_nil]
  · intro message messages s
    simp [Host.say, StateT.run]

/-- What an action gives that starts on a disk. -/
def resultOn {ε α : Type} (disk : σ) (x : Attempt σ ε α) : Except ε α := (x.run.run ⟨disk, []⟩).1

variable [Drawing.Typeface]

/-- How the program ends that starts on a disk, and what it leaves behind. -/
def programOn (disk : σ) (arguments : List (List UInt8)) : Status × Scene σ :=
  (program arguments : StateM (Scene σ) Status).run ⟨disk, []⟩

/-- Whether it is quiet or not, the program charts the same and comes to the same end. -/
theorem exists_endings (reports charts : Option Path) (disk : σ) :
    ∃ r disk' told, (∀ message ∈ told, message.namesFailure = false) ∧
      ∀ quiet, resultOn disk (batchOf quiet reports charts).run = r ∧
        ∀ arguments, Request.ofArguments arguments = .ok (.charts quiet reports charts) →
          programOn disk arguments = (statusOf r, ⟨disk', (if quiet then [] else told) ++ closing r⟩) := by
  obtain ⟨r, disk', told, plain, runs⟩ := Batch.alike_run (batchOf false reports charts) disk
  obtain ⟨loud, hushed⟩ := runs []
  refine ⟨r, disk', told ++ summary false r, ?_, fun quiet => ?_⟩
  · intro message mem
    exact (List.mem_append.1 mem).elim (plain message) namesFailure_of_summary
  · have run : ((batchOf quiet reports charts).run : Attempt σ BatchError Outcome).run.run ⟨disk, []⟩ =
        (r, ⟨disk', if quiet then [] else told⟩) := by
      cases quiet with
      | false => exact loud
      | true => exact hushed
    refine ⟨congrArg Prod.fst run, fun arguments accepted => ?_⟩
    rw [programOn, run_program accepted, run]
    dsimp only
    rw [saying_scene, ← List.append_assoc]
    cases quiet <;> cases r <;> rfl

/-- The lines of a run that name failed reports: one for each report that failed, in the order in which the reports are
found, and none if the run fails itself. -/
structure NamesFailed (b : Batch) (disk : σ) (said : List Message) : Prop where
  each : ∀ o, resultOn disk b.run = .ok o → said.filter (·.namesFailure) = o.failed.map failedLine
  order : ∀ o, resultOn disk b.run = .ok o → ∃ reports, resultOn disk b.discover = .ok reports ∧ o.Sorts reports
  none : ∀ e, resultOn disk b.run = .error e → said.filter (·.namesFailure) = []

/-- Accepted arguments ask for quiet or not, and may as well ask otherwise. All that is changed by it is what is said:
the status is the same, what is left on the disk is the same, and so are the lines that name failed reports. If quiet
is asked for, nothing is said on the output. -/
theorem program_quiet {arguments : List (List UInt8)} {quiet : Bool} {reports charts : Option Path}
    (accepted : Request.ofArguments arguments = .ok (.charts quiet reports charts)) {flag : List UInt8}
    (asks : flag ∈ quietSpellings) (disk : σ) :
    let bare := withoutQuiet arguments
    quiet = arguments.any (· ∈ quietSpellings) ∧
      Request.ofArguments bare = .ok (.charts false reports charts) ∧
      Request.ofArguments (flag :: bare) = .ok (.charts true reports charts) ∧
      ∃ status disk' told rest,
        programOn disk bare = (status, ⟨disk', told⟩) ∧
        programOn disk (flag :: bare) = (status, ⟨disk', rest⟩) ∧
        programOn disk arguments = (status, ⟨disk', if quiet then rest else told⟩) ∧
        (∀ message ∈ rest, message.isOutput = false) ∧
        told.filter (·.namesFailure) = rest.filter (·.namesFailure) ∧
        NamesFailed (batchOf quiet reports charts) disk rest := by
  obtain ⟨asked, loud, flagged⟩ := ofArguments_withoutQuiet accepted
  obtain ⟨r, disk', told, plain, ends⟩ := exists_endings reports charts disk
  refine ⟨asked, loud, flagged flag asks, statusOf r, disk', told ++ closing r, closing r, (ends false).2 _ loud,
    (ends true).2 _ (flagged flag asks), ?_, fun _ => isOutput_of_closing, ?_, ?_, ?_, ?_⟩
  · rw [(ends quiet).2 _ accepted]
    cases quiet <;> rfl
  · have unnamed : told.filter (·.namesFailure) = [] := List.filter_eq_nil_iff.2 (by simpa using plain)
    rw [List.filter_append, unnamed, List.nil_append]
  · intro o run
    obtain rfl := run.symm.trans (ends quiet).1
    exact filter_closing _
  · intro o run
    obtain ⟨found, t, discovered, sorted, -⟩ := Batch.run_sorts (Prod.ext run rfl)
    exact ⟨found, congrArg Prod.fst discovered, sorted⟩
  · intro e run
    obtain rfl := run.symm.trans (ends quiet).1
    exact filter_closing _

end

theorem finds_disk : Batch.Finds (Scene.disk : Scene (Tree Empty) → Tree Empty) :=
  ⟨fun _ _ => rfl, fun _ _ => rfl, fun _ _ => rfl⟩

open scoped Drawing.Typeface

/-- Two files that are named as reports are. One is empty, and the other lacks what a report has. -/
def failing : Tree Empty := Batch.directoryOf "in" [("a.json", []), ("b.json", (Path.ofString "\x7b\x7d").bytes)]

theorem program_quiet_failing :
    ∃ status disk' told rest,
      programOn failing (namingReports "in") = (status, ⟨disk', told⟩) ∧
      programOn failing ((Path.ofString "-q").bytes :: namingReports "in") = (status, ⟨disk', rest⟩) ∧
      (∀ message ∈ rest, message.isOutput = false) ∧ told.filter (·.namesFailure) = rest.filter (·.namesFailure) ∧
      rest.filter (·.namesFailure) = [.error "Failed: \"in/a.json\"", .error "Failed: \"in/b.json\""] := by
  have accepted : Request.ofArguments (namingReports "in") = .ok (.charts false (some (.ofString "in")) none) :=
    eq_ok_of_toOption (by decide +kernel)
  have asks : (Path.ofString "-q").bytes ∈ quietSpellings := by decide
  have bare : withoutQuiet (namingReports "in") = namingReports "in" := by decide
  have result : (resultOn failing (batchOf false (some (.ofString "in")) none).run).toOption.map
      (·.failed.map failedLine) = some [.error "Failed: \"in/a.json\"", .error "Failed: \"in/b.json\""] := by
    rw [resultOn, Batch.run, run_then, Batch.run_discover finds_disk]
    decide +kernel
  obtain ⟨o, run, lines⟩ := Option.map_eq_some_iff.1 result
  obtain ⟨-, -, -, status, disk', told, rest, loud, hushed, -, still, same, named⟩ :=
    program_quiet accepted asks failing
  rw [bare] at loud hushed
  exact ⟨status, disk', told, rest, loud, hushed, still, same, (named.each o (eq_ok_of_toOption run)).trans lines⟩

end CycleChart.Command
