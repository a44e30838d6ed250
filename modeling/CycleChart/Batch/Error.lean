import CycleChart.Files.Error
import CycleChart.Overflow
import CycleChart.Path.Basic
import CycleChart.Report.Parse
import CycleChart.Text.Quoted

namespace CycleChart

def Path.quoted (p : Path) : String := Text.quotedBytes p.bytes

/-- Why no report can be had from a file. -/
inductive LoadError where
  | reading (file : Path) (cause : FileError)
  | empty (file : Path)
  | report (file : Path) (cause : ReportError)
deriving DecidableEq

namespace LoadError

def message : LoadError → String
  | reading file cause => "Reading input file " ++ file.quoted ++ ": " ++ cause.message
  | empty file => "Input file " ++ file.quoted ++ " is empty"
  | report file cause => "Input file " ++ file.quoted ++ ": " ++ cause.message

def missing? : LoadError → Option Member
  | report _ cause => cause.missing?
  | _ => none

end LoadError

/-- Why a picture cannot be saved: because of its file, or because it has no pixels. -/
inductive SaveError where
  | file (cause : FileError)
  | noColumns
  | noRows
deriving DecidableEq

def SaveError.message : SaveError → String
  | file cause => cause.message
  | noColumns => "Zero width not allowed"
  | noRows => "Zero height not allowed"

inductive RenderError where
  | font (family : String)
  | drawing (file : Path) (text : String)
  | saving (file : Path) (cause : SaveError)
deriving DecidableEq

def RenderError.message : RenderError → String
  | font family => "Registering the bundled `" ++ family ++ "` font"
  | drawing file text => "Drawing chart " ++ file.quoted ++ ": " ++ text
  | saving file cause => "Saving chart " ++ file.quoted ++ ": " ++ cause.message

inductive ChartError where
  | load (cause : LoadError)
  | render (cause : RenderError)
  | overflow (cause : Overflow)
deriving DecidableEq

def ChartError.message : ChartError → String
  | load cause => cause.message
  | render cause => cause.message
  | overflow _ => "the picture is too large"

/-- Why no report is charted at all. -/
inductive BatchError where
  | notDirectory (reports : Path)
  | outputDirectory (charts : Path) (cause : FileError)
  | overflow (cause : Overflow)
deriving DecidableEq

def BatchError.message : BatchError → String
  | notDirectory reports => "Expected a directory with JSON files, but got " ++ reports.quoted
  | outputDirectory charts cause => "Output directory " ++ charts.quoted ++ " creating: " ++ cause.message
  | overflow _ => "the picture is too large"

end CycleChart
