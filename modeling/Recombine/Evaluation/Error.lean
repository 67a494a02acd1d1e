namespace Recombine

inductive RunError
  | missingScanData (node : String)
  | missingInput (node operation input : String)
  | schemaMismatch (node operation reason : String)
  | inputArity (node operation expected : String) (actual : Nat)
  | missingJoinKeys (node operation : String)
  | mixedColumnTypes (node operation column : String)
  | disorder (node operation : String)
  | kernel (node operation reason : String)
  | cancelled (node : String)
  | noTerminals (dag : String)
  deriving DecidableEq, Repr

namespace RunError

def message : RunError → String
  | missingScanData node => s!"No scan data supplied for scan node '{node}'"
  | missingInput node operation input =>
    s!"Node '{node}' ({operation}): input '{input}' has not been computed"
  | schemaMismatch node operation reason => s!"Node '{node}' ({operation}): {reason}"
  | inputArity node operation expected actual =>
    s!"Node '{node}' ({operation}) requires {expected} input(s), got {actual}"
  | missingJoinKeys node operation => s!"Node '{node}' ({operation}) requires at least one join key"
  | mixedColumnTypes node operation column =>
    s!"Node '{node}' ({operation}): column '{column}' mixes incompatible value types"
  | disorder .. => "user-provided comparison function does not correctly implement a total order"
  | kernel node operation reason => s!"Node '{node}' ({operation}): arrow kernel failed: {reason}"
  | cancelled node => s!"Execution cancelled before node '{node}'"
  | noTerminals dag => s!"Plan '{dag}' has no terminal nodes"

def node : RunError → String
  | missingScanData node | missingInput node .. | schemaMismatch node .. | inputArity node ..
  | missingJoinKeys node _ | mixedColumnTypes node .. | disorder node _ | kernel node ..
  | cancelled node => node
  | noTerminals dag => dag

end RunError

end Recombine
