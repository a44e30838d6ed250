import CycleChart.Batch.Outcome
import CycleChart.Batch.Render
import CycleChart.Path.Spelled

namespace CycleChart

/-- A directory of reports to be charted into another. -/
structure Batch where
  reports : Path
  charts : Path
  figure : Figure
  quiet : Bool

namespace Batch

/-- Charts go inside the directory of the reports, unless another is named. -/
def ofDirectories (reports : Path) (charts : Option Path) (f : Figure) (quiet : Bool) : Batch :=
  ⟨reports, charts.getD reports.defaultCharts, f, quiet⟩

/-- Names that are no text are passed over. -/
def isReportName (name : Name) : Bool :=
  (Path.ofString ".json").bytes.isSuffixOf name && (Text.decode? name).isSome

variable {m : Type → Type} [Monad m] [Host m]

def tell (b : Batch) (message : Message) : m Unit := if b.quiet then pure () else Host.say message

/-- The names in a directory, after those in some directories that it is come to by. -/
def namesBeyond : List Path → Path → ExceptT FileError m (List Name)
  | [], directory => Host.names directory
  | passed :: rest, directory => do
    let _ ← Host.names passed
    namesBeyond rest directory

/-- The reports directly inside the directory, in the order of their names, or none if it cannot be listed. -/
def discover (b : Batch) : ExceptT BatchError m (List Path) := do
  unless ← (Host.isDirectory b.reports : m Bool) do throw (.notDirectory b.reports)
  let sought := Path.ofString (Text.readable b.reports.bytes)
  match sought.spelled? with
  | none => return []
  | some directory =>
    match ← ((namesBeyond sought.listedOn directory).run : m (Except FileError (List Name))) with
    | .error _ => return []
    | .ok names =>
      let paths := ((names.filter isReportName).mergeSort fun a b => decide (a ≤ b)).map directory.step
      (paths.filterM Host.isFile : m (List Path))

variable [Drawing.Typeface]

/-- Charts reports one after another. Only a picture that is too large stops them. -/
def chartAll (b : Batch) : List Path → Outcome → m (Except Overflow Outcome)
  | [], o => return .ok o
  | report :: rest, o => do
    let chart := report.chart b.charts
    b.tell (.output ("Processing: " ++ Text.readable report.bytes ++ " → " ++ Text.readable chart.bytes))
    match ← (chartReport b.figure report chart).run with
    | .ok () => chartAll b rest (o.addWritten ⟨report, chart⟩)
    | .error (.overflow cause) => return .error cause
    | .error e =>
      b.tell (.error ("Error: " ++ e.message))
      chartAll b rest (o.addFailed ⟨report, e⟩)

/-- Charts every report that is found. Without any, nothing is made. -/
def run (b : Batch) : ExceptT BatchError m Outcome := do
  match ← b.discover with
  | [] =>
    (b.tell (.error ("Warning: No JSON files found in " ++ b.reports.quoted ++ ".")) : m Unit)
    return .empty
  | reports =>
    (Host.makeDirectories b.charts : ExceptT FileError m Unit).adapt (.outputDirectory b.charts)
    match ← (b.chartAll reports .empty : m (Except Overflow Outcome)) with
    | .ok o => return o
    | .error cause => throw (.overflow cause)

end Batch
end CycleChart
