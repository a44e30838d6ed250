import CycleChart.Batch.Error

namespace CycleChart

structure Written where
  report : Path
  chart : Path
deriving DecidableEq

structure Failure where
  report : Path
  error : ChartError
deriving DecidableEq

/-- What became of the reports of a batch. -/
structure Outcome where
  written : List Written
  failed : List Failure
deriving DecidableEq

namespace Outcome

def empty : Outcome := ⟨[], []⟩

def addWritten (o : Outcome) (w : Written) : Outcome := { o with written := o.written ++ [w] }

def addFailed (o : Outcome) (f : Failure) : Outcome := { o with failed := o.failed ++ [f] }

def total (o : Outcome) : Nat := o.written.length + o.failed.length

def isSuccess (o : Outcome) : Bool := o.failed.isEmpty

def text (o : Outcome) : String :=
  toString o.written.length ++ " charts written, " ++ toString o.failed.length ++ " failed"

end Outcome
end CycleChart
