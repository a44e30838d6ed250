import CycleChart.Command.Program

namespace CycleChart.Command

/-- The batch that arguments ask for. -/
def batchOf (quiet : Bool) (reports charts : Option Path) : Batch :=
  .ofDirectories (reports.getD defaultReports) charts {} quiet

/-- Arguments that name the directory of the reports. -/
def namingReports (name : String) : List (List UInt8) :=
  [(Path.ofString "--input-dir").bytes, (Path.ofString name).bytes]

/-- The line that names a failed report. -/
def failedLine (f : Failure) : Message := .error ("Failed: " ++ f.report.quoted)

/-- The line that ends a run in which some reports failed. -/
def failureLine (failed total : Nat) : Message :=
  .error ("Error: " ++ toString failed ++ " of " ++ toString total ++ " benchmark reports failed")

/-- How the program ends after a run. -/
def statusOf : Except BatchError Outcome → Status
  | .ok o => if o.isSuccess then .success else .failure
  | .error (.overflow _) => .aborted
  | .error _ => .failure

/-- What is said of a run even if the rest is not to be said. -/
def closing : Except BatchError Outcome → List Message
  | .ok o => if o.isSuccess then [] else o.failed.map failedLine ++ [failureLine o.failed.length o.total]
  | .error (.overflow _) => []
  | .error e => [.error ("Error: " ++ e.message)]

/-- What is said of a run before that. -/
def summary (quiet : Bool) : Except BatchError Outcome → List Message
  | .ok o => if quiet then [] else [.output ("Done: " ++ o.text)]
  | .error _ => []

variable {S α : Type} [Host (StateM S)]

/-- The state after some lines have been said. -/
def saying (messages : List Message) (s : S) : S :=
  messages.foldl (fun s message => ((Host.say message : StateM S Unit).run s).2) s

theorem saying_append (first second : List Message) (s : S) :
    saying (first ++ second) s = saying second (saying first s) := List.foldl_append

/-- On a host that adds each line to what was said, the lines are added one after another. -/
theorem saying_eq (add : S → List Message → S) (none : ∀ s, add s [] = s)
    (adds : ∀ message messages s,
      add ((Host.say message : StateM S Unit).run s).2 messages = add s (message :: messages))
    (messages : List Message) (s : S) : saying messages s = add s messages := by
  induction messages generalizing s with
  | nil => exact (none s).symm
  | cons message messages ih => exact (ih _).trans (adds message messages s)

theorem run_forM_say (message : α → Message) (as : List α) (s : S) :
    (as.forM fun a => Host.say (message a) : StateM S Unit).run s = ((), saying (as.map message) s) := by
  induction as generalizing s with
  | nil => rfl
  | cons a as ih => exact (StateT.run_bind _ _ _).trans (ih _)

theorem run_tell (b : Batch) (message : Message) (s : S) :
    (b.tell message : StateM S Unit).run s = ((), saying (if b.quiet then [] else [message]) s) := by
  rw [Batch.tell]
  split <;> rfl

theorem run_conclude (b : Batch) (o : Outcome) (s : S) :
    (conclude b o : StateM S Status).run s =
      (statusOf (.ok o), saying (summary b.quiet (.ok o) ++ closing (.ok o)) s) := by
  rw [conclude, StateT.run_bind, run_tell, saying_append]
  show (if o.isSuccess then pure .success else _ : StateM S Status).run _ = _
  dsimp only [summary, statusOf, closing]
  split
  · rfl
  · rw [StateT.run_bind]
    have named := run_forM_say failedLine o.failed (saying (if b.quiet then [] else [.output ("Done: " ++ o.text)]) s)
    dsimp only [failedLine] at named
    rw [named, saying_append]
    rfl

/-- The program ends as the run of its batch does. -/
theorem run_program [Drawing.Typeface] {arguments : List (List UInt8)} {quiet : Bool} {reports charts : Option Path}
    (accepted : Request.ofArguments arguments = .ok (.charts quiet reports charts)) (s : S) :
    (program arguments : StateM S Status).run s =
      let (r, t) := ((batchOf quiet reports charts).run : ExceptT BatchError (StateM S) Outcome).run.run s
      (statusOf r, saying (summary quiet r ++ closing r) t) := by
  rw [program, accepted]
  apply (StateT.run_bind _ _ _).trans
  dsimp only [batchOf]
  generalize StateT.run (m := Id) (ExceptT.run (Batch.run _ : ExceptT BatchError (StateM S) Outcome)) s = r
  rcases r with ⟨e | o, t⟩
  · cases e <;> rfl
  · exact run_conclude _ o t

end CycleChart.Command
