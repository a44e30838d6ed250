import CycleChart.Report.Reader

namespace CycleChart

open Reading

inductive ReportError where
  | parsing (reason : Reason) (position : Position)
  | missing (m : Member)
deriving DecidableEq

namespace ReportError

def message : ReportError → String
  | parsing reason position =>
    "parsing: " ++ reason.message ++ " at line " ++ toString position.line ++ " column " ++
      toString position.column
  | missing m => "missing field `" ++ m.name ++ "`"

def missing? : ReportError → Option Member
  | parsing _ _ => none
  | missing m => some m

end ReportError

def Report.parse (text : String) : Except ReportError Report :=
  match readDraft text.toList with
  | .error halt => .error (.parsing halt.reason (halt.position text.toList))
  | .ok draft => draft.finish.mapError .missing

end CycleChart
