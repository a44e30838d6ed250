import CycleChart.Batch.Run
import CycleChart.Proofs.Files.Sessions

namespace CycleChart

open Session

/-- The report in the bytes of a file. -/
def reportIn (file : Path) (bytes : List UInt8) : Except LoadError Report :=
  match Text.decode? bytes with
  | none => .error (.reading file .notText)
  | some text =>
    if text.toList.all Text.isBlank then .error (.empty file)
    else (Report.parse text).mapError (.report file)

/-- What is put into the file of a picture. -/
def Canvas.content (c : Canvas) : Content := if c.lack?.isSome then .bytes [] else .picture c

/-- What comes of saving a picture, from what came of writing its file. -/
def Canvas.saved (c : Canvas) (file : Path) : Except FileError Unit → Except ChartError Unit
  | .error e => .error (.render (.saving file (.file e)))
  | .ok () =>
    match c.lack? with
    | none => .ok ()
    | some e => .error (.render (.saving file e))

theorem Canvas.saved_ne_overflow (c : Canvas) {file : Path} {r : Except FileError Unit} {cause : Overflow} :
    c.saved file r ≠ .error (.overflow cause) := by
  cases r with
  | error e => nofun
  | ok u =>
    rw [saved]
    split <;> nofun

variable {L : Type} [Links L]

theorem perform_loadReport (s : Session L) (file : Path) :
    s.perform (loadReport file) =
      match s.tree.read file with
      | .error e => (.error (.reading file e), s)
      | .ok bytes => (reportIn file bytes, s) := by
  rw [loadReport, perform_bind, perform_adapt, perform_read]
  cases s.tree.read file with
  | error e => rfl
  | ok bytes =>
    simp only [mapError_ok, reportIn]
    cases Text.decode? bytes with
    | none => rfl
    | some text =>
      dsimp only
      split
      · rfl
      · cases Report.parse text <;> rfl

theorem perform_savePicture (s : Session L) (picture : Canvas) (file : Path) :
    (s.perform ((savePicture picture file : ExceptT RenderError (StateM (Session L)) Unit).adapt ChartError.render)) =
      (picture.saved file (s.tree.write file picture.content).1,
        { s with tree := (s.tree.write file picture.content).2 }) := by
  rw [perform_adapt, savePicture, perform_bind, perform_adapt, perform_write]
  simp only [Canvas.content, Canvas.saved]
  cases (s.tree.write file _).1 with
  | error e => rfl
  | ok u =>
    simp only [mapError_ok]
    cases picture.lack? <;> rfl

section

variable [Drawing.Typeface]

/-- The picture of a report that lies in a tree. -/
def Tree.pictureOf (t : Tree L) (f : Figure) (report : Path) : Except ChartError Canvas :=
  match t.read report with
  | .error e => .error (.load (.reading report e))
  | .ok bytes =>
    match reportIn report bytes with
    | .error e => .error (.load e)
    | .ok r => ((Chart.ofReport report.identifier r).picture f).mapError .overflow

/-- A report is read and drawn, and only then is anything written. -/
theorem perform_chartReport (s : Session L) (f : Figure) (report file : Path) :
    s.perform (chartReport f report file) =
      match s.tree.pictureOf f report with
      | .error e => (.error e, s)
      | .ok picture =>
        (picture.saved file (s.tree.write file picture.content).1,
          { s with tree := (s.tree.write file picture.content).2 }) := by
  rw [chartReport, perform_bind, perform_adapt, perform_loadReport, Tree.pictureOf]
  cases s.tree.read report with
  | error e => rfl
  | ok bytes =>
    dsimp only
    cases reportIn report bytes with
    | error e => rfl
    | ok r =>
      simp only [mapError_ok, renderChart]
      cases (Chart.ofReport report.identifier r).picture f with
      | error cause => rfl
      | ok picture => exact perform_savePicture s picture file

namespace Batch

/-- What becomes of a report if it is the first one to be charted. -/
def alone (b : Batch) (s : Session L) (report : Path) : Except ChartError Unit :=
  (s.perform (chartReport b.figure report (report.chart b.charts))).1

end Batch
end
end CycleChart
