import CycleChart.Report.Basic
import CycleChart.Text.Grouped

namespace CycleChart

def Total.caption : Total → String
  | blobs => "Total Blobs in Namespace"
  | blockExecutions => "Total EVM block executions"
  | transactions => "Total EVM Txs"
  | evmGas => "Total EVM Gas"
  | proofs => "Total Proofs"
  | gas => "Total Gas"
  | instructions => "Total Instructions"
  | syscalls => "Total Syscalls"

structure Line where
  total : Total
  value : UInt64
deriving DecidableEq

def Line.text (l : Line) : String := l.total.caption ++ ": " ++ Text.grouped l.value.toNat

/-- The lines below a chart. -/
structure Summary where
  lines : List Line
deriving DecidableEq

namespace Summary

/-- One line for each total that the report states. -/
def ofReport (r : Report) : Summary :=
  ⟨Total.all.filterMap fun t => (r.total? t).map (Line.mk t)⟩

def text (s : Summary) : String := "\n".intercalate (s.lines.map Line.text)

end Summary
end CycleChart
