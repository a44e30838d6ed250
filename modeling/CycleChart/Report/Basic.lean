import CycleChart.Report.Counts
import CycleChart.Report.Total

namespace CycleChart

/-- A report: a count for each label, and the totals of the run. -/
structure Report where
  counts : LabelCounts
  blobs : Option UInt64
  blockExecutions : Option UInt64
  transactions : Option UInt64
  evmGas : Option UInt64
  proofs : Option UInt64
  gas : UInt64
  instructions : UInt64
  syscalls : UInt64

def Report.total? (r : Report) : Total → Option UInt64
  | .blobs => r.blobs
  | .blockExecutions => r.blockExecutions
  | .transactions => r.transactions
  | .evmGas => r.evmGas
  | .proofs => r.proofs
  | .gas => some r.gas
  | .instructions => some r.instructions
  | .syscalls => some r.syscalls

/-- The members read so far. One that was `null` is there without a value. -/
structure Draft where
  counts : Option (Option LabelCounts)
  totals : List (Total × Option UInt64)

namespace Draft

def empty : Draft := ⟨none, []⟩

def has (d : Draft) : Member → Bool
  | .counts => d.counts.isSome
  | .total t => (d.totals.lookup t).isSome

def total? (d : Draft) (t : Total) : Option UInt64 := (d.totals.lookup t).join

/-- The finished report, or the first member that it lacks. -/
def finish (d : Draft) : Except Member Report :=
  match d.counts.join, d.total? .gas, d.total? .instructions, d.total? .syscalls with
  | none, _, _, _ => .error .counts
  | some _, none, _, _ => .error (.total .gas)
  | some _, some _, none, _ => .error (.total .instructions)
  | some _, some _, some _, none => .error (.total .syscalls)
  | some counts, some gas, some instructions, some syscalls =>
    .ok {
      counts, gas, instructions, syscalls
      blobs := d.total? .blobs
      blockExecutions := d.total? .blockExecutions
      transactions := d.total? .transactions
      evmGas := d.total? .evmGas
      proofs := d.total? .proofs }

end Draft
end CycleChart
