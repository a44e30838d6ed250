import CycleChart.Batch.Run
import CycleChart.Proofs.Files.Scenes

namespace CycleChart

open Scene

variable {σ : Type} [Disk σ]

/-- A line that starts with another letter names no failed report. -/
theorem Message.namesFailure_append {s : String} (other : s.toList.head?.any (· ≠ 'F')) (t : String) :
    namesFailure (.error (s ++ t)) = false := by
  rw [namesFailure, String.toList_append]
  cases eq : s.toList with
  | nil =>
    rw [eq] at other
    cases other
  | cons c cs =>
    have apart : c ≠ 'F' := by simpa [eq] using other
    simp [List.isPrefixOf, Ne.symm apart]

theorem Message.namesFailure_failed (s : String) : namesFailure (.error ("Failed: " ++ s)) = true := by
  simp [namesFailure, String.toList_append]

/-! Charting a report says nothing. -/

theorem silent_loadReport (file : Path) : Silent (loadReport file : Attempt σ LoadError Report).run := by
  apply alike_then (alike_adapt (silent_onDisk _) _)
  intro bytes
  cases Text.decode? bytes with
  | none => exact silent_throw _
  | some text =>
    dsimp only
    split
    · exact silent_throw _
    · cases Report.parse text with
      | error e => exact silent_throw _
      | ok r => exact silent_ok r

theorem silent_savePicture (picture : Canvas) (file : Path) :
    Silent (savePicture picture file : Attempt σ RenderError Unit).run := by
  apply alike_then (alike_adapt (silent_onDisk _) _)
  intro _
  cases picture.lack? with
  | none => exact silent_ok ()
  | some e => exact silent_throw _

theorem silent_chartReport [Drawing.Typeface] (f : Figure) (report file : Path) :
    Silent (chartReport f report file : Attempt σ ChartError Unit).run := by
  apply alike_then (alike_adapt (silent_loadReport report) _)
  intro r
  rw [renderChart]
  cases (Chart.ofReport report.identifier r).picture f with
  | error cause => exact silent_throw _
  | ok picture => exact alike_adapt (silent_savePicture picture file) _

theorem silent_filterM_isFile (paths : List Path) :
    Silent (paths.filterM Host.isFile : StateM (Scene σ) (List Path)) := by
  have each (kept : List Path) : Silent (paths.filterAuxM Host.isFile kept : StateM (Scene σ) (List Path)) := by
    induction paths generalizing kept with
    | nil => exact silent_pure kept
    | cons p paths ih =>
      rw [List.filterAuxM]
      exact alike_bind (silent_onDisk _) fun file => ih _
  exact alike_bind (each []) fun kept => silent_pure kept.reverse

namespace Batch

/-- The same batch, with nothing said on the way. -/
def hushed (b : Batch) : Batch := { b with quiet := true }

theorem silent_namesBeyond (passed : List Path) (directory : Path) :
    Silent (namesBeyond passed directory : Attempt σ FileError (List Name)).run := by
  induction passed with
  | nil => exact silent_onDisk _
  | cons p rest ih => exact alike_then (silent_onDisk _) fun _ => ih

theorem silent_discover (b : Batch) : Silent (b.discover : Attempt σ BatchError (List Path)).run := by
  apply alike_then (alike_lift (silent_onDisk _))
  intro there
  cases there with
  | false => exact silent_throw (BatchError.notDirectory b.reports)
  | true =>
    dsimp only [↓reduceIte]
    cases (Path.ofString (Text.readable b.reports.bytes)).spelled? with
    | none => exact silent_ok []
    | some directory =>
      apply alike_then (alike_lift (silent_namesBeyond _ directory))
      intro listing
      cases listing with
      | error e => exact silent_ok []
      | ok names => exact alike_lift (silent_filterM_isFile _)

theorem alike_tell (b : Batch) {message : Message} (plain : message.namesFailure = false) :
    Alike (b.tell message : StateM (Scene σ) Unit) (b.hushed.tell message) := by
  rw [tell]
  split
  · exact silent_pure ()
  · exact alike_say plain

variable [Drawing.Typeface]

/-- One report after another comes out the same, whether it is told of or not. -/
theorem alike_chartAll (b : Batch) (reports : List Path) (o : Outcome) :
    Alike (b.chartAll reports o : StateM (Scene σ) (Except Overflow Outcome)) (b.hushed.chartAll reports o) := by
  induction reports generalizing o with
  | nil => exact silent_pure (Except.ok o)
  | cons report reports ih =>
    rw [chartAll, chartAll]
    apply alike_bind (alike_tell b rfl)
    intro _
    apply alike_bind (silent_chartReport b.figure report _)
    intro r
    rcases r with e | a
    · cases e with
      | overflow cause => exact silent_pure _
      | _ => exact alike_bind (alike_tell b (Message.namesFailure_append (by decide) _)) fun _ => ih _
    · exact ih _

theorem alike_run (b : Batch) :
    Alike (b.run : Attempt σ BatchError Outcome).run (b.hushed.run : Attempt σ BatchError Outcome).run := by
  apply alike_then (silent_discover b)
  intro reports
  cases reports with
  | nil =>
    have plain :
        Message.namesFailure (.error ("Warning: No JSON files found in " ++ b.reports.quoted ++ ".")) = false := by
      rw [String.append_assoc]
      exact Message.namesFailure_append (by decide) _
    dsimp only
    apply alike_then (alike_lift (alike_tell b plain))
    intro _
    exact silent_ok Outcome.empty
  | cons report reports =>
    apply alike_then (alike_adapt (silent_makeDirectoriesUpTo _ b.charts) _)
    intro _
    apply alike_then (alike_lift (alike_chartAll b (report :: reports) .empty))
    intro r
    cases r with
    | error cause => exact silent_throw _
    | ok o => exact silent_ok o

end Batch

end CycleChart
