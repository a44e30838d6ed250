import CycleChart.Batch.Run
import CycleChart.Command.Arguments

namespace CycleChart.Command

def helpText : String :=
  "Cycle tracker breakdown charts for zkVM benchmark reports\n\n" ++
  "Usage: benchmark-charts [OPTIONS]\n\n" ++
  "Options:\n" ++
  "  -q, --quiet                    Suppresses the terminal output\n" ++
  "      --input-dir <INPUT_DIR>    Directory with benchmark report JSON files " ++
  "[default: testdata/benchmarks]\n" ++
  "      --output-dir <OUTPUT_DIR>  Directory the charts are written to. " ++
  "Defaults to the `charts` subdirectory of the input directory\n" ++
  "  -h, --help                     Print help"

/-- Where reports are looked for if no directory is named. -/
def defaultReports : Path := .ofString "testdata/benchmarks"

inductive Status where
  | success
  | failure
  | refused
  | aborted
deriving DecidableEq

def Status.code : Status → UInt32
  | success => 0
  | failure => 1
  | refused => 2
  | aborted => 101

variable {m : Type → Type} [Monad m] [Host m]

/-- Says what became of a batch. The failures are named even if the rest is not to be said. -/
def conclude (b : Batch) (o : Outcome) : m Status := do
  b.tell (.output ("Done: " ++ o.text))
  if o.isSuccess then return .success
  o.failed.forM fun f => Host.say (.error ("Failed: " ++ f.report.quoted))
  Host.say (.error ("Error: " ++ toString o.failed.length ++ " of " ++ toString o.total ++
    " benchmark reports failed"))
  return .failure

variable [Drawing.Typeface]

def program (arguments : List (List UInt8)) : m Status := do
  match Request.ofArguments arguments with
  | .error refusal =>
    Host.say (.error ("error: " ++ refusal.message))
    return .refused
  | .ok .help =>
    Host.say (.output helpText)
    return .success
  | .ok (.charts quiet reports charts) =>
    let b := Batch.ofDirectories (reports.getD defaultReports) charts {} quiet
    match ← b.run.run with
    | .ok o => conclude b o
    | .error (.overflow _) => return .aborted
    | .error e =>
      Host.say (.error ("Error: " ++ e.message))
      return .failure

end CycleChart.Command
