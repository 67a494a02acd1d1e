import Recombine.Dag.Basic
import Recombine.Dag.Error

/-! Compilation of plans: references are resolved, nodes and edges put into canonical order, and
the graph is checked. -/

namespace Recombine

def Group.nodeId (id : String) : String := "combine_" ++ id

def PostOp.nodeId (id : String) : String := "post_" ++ id

namespace Plan

def hasGroup (p : Plan) (id : String) : Bool := p.groups.any fun g => g.id == id

def hasPostOp (p : Plan) (id : String) : Bool := p.postOps.any fun op => op.id == id

def nodeIds (p : Plan) : List String :=
  p.scans.map Scan.id ++ p.groups.map (fun g => Group.nodeId g.id) ++
    p.postOps.map fun op => PostOp.nodeId op.id

/-- The node that an input refers to: by its own id, else by the id of a group, else by that of an
operation. -/
def inputNode? (p : Plan) (ref : String) : Option String :=
  if ref ∈ p.nodeIds then some ref
  else if p.hasGroup ref then some (Group.nodeId ref)
  else if p.hasPostOp ref then some (PostOp.nodeId ref)
  else none

def targetNode? (p : Plan) (target : String) : Option String :=
  if p.hasGroup target then some (Group.nodeId target)
  else if target ∈ p.groups.map (fun g => Group.nodeId g.id) then some target
  else none

def schemas (p : Plan) : KeyMap Schema :=
  KeyMap.ofList (p.scans.map (fun s => (s.id, s.schema)) ++
    p.postOps.map fun op => (PostOp.nodeId op.id, op.schema))

end Plan

def repeatedSide? (rank : Nat) (edges : List Edge) : Option Edge :=
  (edges.filter fun e => e.rank == rank)[1]?

def checkSides (node : String) (edges : List Edge) : Except PlanError Unit :=
  match (repeatedSide? 0 edges).or (repeatedSide? 1 edges) with
  | some e => .error (.ambiguousRoles node (e.role.getD ""))
  | none => .ok ()

structure Resolved where
  group : Group
  edges : List Edge

namespace Resolved

def nodeId (r : Resolved) : String := Group.nodeId r.group.id

def operands (r : Resolved) : List String := Edge.operands r.edges

def resolveInput (p : Plan) (g : Group) (i : Input) : Except PlanError Edge :=
  match p.inputNode? i.ref with
  | some source => .ok { source, target := Group.nodeId g.id, role := i.role }
  | none => .error (.unknownReference g.id i.ref)

def ofGroup (p : Plan) (g : Group) : Except PlanError Resolved := do
  if g.inputs.isEmpty then throw (.emptyGroup g.id)
  let edges ← g.inputs.mapM (resolveInput p g)
  if g.combination.isKeyed then checkSides (Group.nodeId g.id) edges
  return ⟨g, edges⟩

def firstOperands (rs : List Resolved) : KeyMap String :=
  KeyMap.ofList (rs.filterMap fun r => r.operands.head?.map fun first => (r.nodeId, first))

end Resolved

/-- The schema at the end of the chain of first operands that starts at a node. Each link is
followed once, so a chain that closes on itself has no schema. -/
def inheritedSchema (schemas : KeyMap Schema) (links : KeyMap String) (id : String) : Schema :=
  match schemas.get? id with
  | some schema => schema
  | none =>
    match _h : links.get? id with
    | some next => inheritedSchema schemas (links.erase id) next
    | none => []
termination_by links.size
decreasing_by exact KeyMap.size_erase_lt ‹_›

structure Draft where
  nodes : KeyMap Node := ∅
  edges : KeyMap Edge := ∅

namespace Draft

def addNode (d : Draft) (n : Node) : Except PlanError Draft :=
  if d.nodes.contains n.id then .error (.duplicateNode n.id)
  else .ok { d with nodes := d.nodes.insert n.id n }

def addEdge (d : Draft) (e : Edge) : Except PlanError Draft :=
  if d.edges.contains e.id then .error (.duplicateEdge e.id)
  else .ok { d with edges := d.edges.insert e.id e }

def addScan (d : Draft) (s : Scan) : Except PlanError Draft :=
  d.addNode { id := s.id, inputs := [], schema := s.schema, action := .scan s.source }

def addGroup (schemas : KeyMap Schema) (links : KeyMap String) (d : Draft) (r : Resolved) :
    Except PlanError Draft := do
  let d ← d.addNode {
    id := r.nodeId
    inputs := r.operands
    schema := inheritedSchema schemas links r.nodeId
    action := .combine r.group.combination r.group.keys }
  r.edges.foldlM addEdge d

end Draft

def PostOp.action (op : PostOp) : Action :=
  match op.kind with
  | .filter => .filter op.filters
  | .aggregate => .aggregate op.groupBy op.metrics
  | .project => .project op.schema.names
  | .sort => .sort op.orderBy
  | .limit => .limit op.limit

def Draft.addPostOp (p : Plan) (d : Draft) (op : PostOp) : Except PlanError Draft := do
  let some source := p.targetNode? op.target | throw (.unknownGroup op.id op.target)
  let id := PostOp.nodeId op.id
  let d ← d.addNode {
    id, inputs := [source], schema := op.schema, action := op.action, metadata := op.metadata }
  d.addEdge { source, target := id }

def Draft.dag (d : Draft) : Dag := ⟨d.nodes.values, d.edges.values.mergeSort Edge.precedes⟩

namespace Dag

def checkEdge (d : Dag) (e : Edge) : Except PlanError Unit :=
  match [e.source, e.target].find? fun id => !d.nodeIds.contains id with
  | some id => .error (.danglingEdge e.id id)
  | none => .ok ()

def hasCombineInput (d : Dag) (id : String) : Bool :=
  match d.inbound id with
  | [e] => (d.node? e.source).any fun n => n.action.isCombine
  | _ => false

def checkNode (d : Dag) (n : Node) : Except PlanError Unit :=
  match n.schema.repeated? with
  | some column => .error (.duplicateColumn n.id column)
  | none =>
    if n.action.isPost && !d.hasCombineInput n.id then .error (.invalidPostInput n.id) else .ok ()

def checkAcyclic (d : Dag) : Except PlanError Unit :=
  match d.layering.unplaced with
  | id :: _ => .error (.cycle id)
  | [] => .ok ()

def check (d : Dag) : Except PlanError Unit := do
  d.edges.forM d.checkEdge
  d.nodes.forM d.checkNode
  d.checkAcyclic

end Dag

def Plan.draft (p : Plan) : Except PlanError Draft := do
  let d ← p.scans.foldlM Draft.addScan {}
  let resolved ← p.groups.mapM (Resolved.ofGroup p)
  let d ← resolved.foldlM (Draft.addGroup p.schemas (Resolved.firstOperands resolved)) d
  p.postOps.foldlM (Draft.addPostOp p) d

def Plan.compile (p : Plan) : Except PlanError Dag := do
  let d ← p.draft
  d.dag.check
  return d.dag

end Recombine
