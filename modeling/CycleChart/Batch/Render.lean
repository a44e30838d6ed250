import CycleChart.Batch.Error
import CycleChart.Drawing.Page
import CycleChart.Files.Host
import CycleChart.Path.Chart
import CycleChart.Text.Blank

namespace CycleChart

variable {m : Type → Type} [Monad m] [Host m]

def loadReport (file : Path) : ExceptT LoadError m Report := do
  let bytes ← (Host.read file : ExceptT FileError m _).adapt (.reading file)
  match Text.decode? bytes with
  | none => throw (.reading file .notText)
  | some text =>
    if text.toList.all Text.isBlank then throw (.empty file)
    match Report.parse text with
    | .ok report => return report
    | .error e => throw (.report file e)

/-- What is wrong with a picture that has no pixels. -/
def Canvas.lack? (c : Canvas) : Option SaveError :=
  if c.width = 0 then some .noColumns else if c.height = 0 then some .noRows else none

/-- The file is opened first, so one for a picture without pixels is left empty. -/
def savePicture (picture : Canvas) (file : Path) : ExceptT RenderError m Unit := do
  let content := if picture.lack?.isSome then Content.bytes [] else .picture picture
  (Host.write file content : ExceptT FileError m _).adapt fun e => .saving file (.file e)
  match picture.lack? with
  | none => return
  | some e => throw (.saving file e)

variable [Drawing.Typeface]

def renderChart (f : Figure) (chart : Chart) (file : Path) : ExceptT ChartError m Unit := do
  match chart.picture f with
  | .error cause => throw (.overflow cause)
  | .ok picture => (savePicture picture file : ExceptT RenderError m Unit).adapt .render

/-- The report is read whole before anything is written. -/
def chartReport (f : Figure) (report file : Path) : ExceptT ChartError m Unit := do
  let r ← (loadReport report : ExceptT LoadError m Report).adapt .load
  renderChart f (.ofReport report.identifier r) file

end CycleChart
