namespace Recombine

inductive PlanError
  | unknownReference (group ref : String)
  | unknownGroup (op target : String)
  | emptyGroup (group : String)
  | duplicateNode (node : String)
  | duplicateEdge (edge : String)
  | duplicateColumn (node column : String)
  | danglingEdge (edge node : String)
  | cycle (node : String)
  | invalidPostInput (node : String)
  | ambiguousRoles (node role : String)
  | serialization (reason : String)
  deriving DecidableEq, Repr

namespace PlanError

def message : PlanError → String
  | unknownReference group ref =>
    s!"Combine group '{group}' input references unknown node '{ref}'"
  | unknownGroup op target =>
    s!"Post-combine op '{op}' targets unknown combine group '{target}'"
  | emptyGroup group => s!"Combine group '{group}' has no inputs"
  | duplicateNode node => s!"Duplicate node id '{node}'"
  | duplicateEdge edge => s!"Duplicate edge '{edge}'"
  | duplicateColumn node column => s!"Duplicate column '{column}' in schema of node '{node}'"
  | danglingEdge edge node => s!"Edge '{edge}' references unknown node '{node}'"
  | cycle node => s!"Cycle detected through node '{node}'"
  | invalidPostInput node => s!"Post-combine node '{node}' must have exactly one combine input"
  | ambiguousRoles node role =>
    s!"Combine node '{node}' has more than one input with role rank of '{role}'"
  | serialization reason => s!"Failed to serialize plan for hashing: {reason}"

def offender : PlanError → String
  | unknownReference _ ref => ref
  | unknownGroup _ target => target
  | emptyGroup group => group
  | duplicateNode node | duplicateColumn node _ | danglingEdge _ node | cycle node
  | invalidPostInput node | ambiguousRoles node _ => node
  | duplicateEdge edge => edge
  | serialization _ => ""

end PlanError

end Recombine
