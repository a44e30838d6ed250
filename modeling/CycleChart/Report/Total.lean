namespace CycleChart

inductive Total where
  | blobs
  | blockExecutions
  | transactions
  | evmGas
  | proofs
  | gas
  | instructions
  | syscalls
deriving DecidableEq

namespace Total

/-- Every total, in the order in which they are shown. -/
def all : List Total :=
  [blobs, blockExecutions, transactions, evmGas, proofs, gas, instructions, syscalls]

/-- The totals that a report has to state, in the order in which their absence is noticed. -/
def required : List Total := [gas, instructions, syscalls]

def name : Total → String
  | blobs => "total_blobs"
  | blockExecutions => "total_blockexec_inputs"
  | transactions => "total_tx_count"
  | evmGas => "total_evm_gas"
  | proofs => "total_proofs"
  | gas => "total_gas"
  | instructions => "total_instruction_count"
  | syscalls => "total_syscall_count"

end Total

inductive Member where
  | counts
  | total (t : Total)
deriving DecidableEq

namespace Member

/-- Every member, in the order of a report written as a list. -/
def all : List Member := counts :: Total.all.map total

/-- The members that a report has to have, in the order in which their absence is noticed. -/
def required : List Member := counts :: Total.required.map total

def name : Member → String
  | counts => "cycle_tracker_results"
  | total t => t.name

def named? (s : String) : Option Member := all.find? (·.name = s)

end Member
end CycleChart
