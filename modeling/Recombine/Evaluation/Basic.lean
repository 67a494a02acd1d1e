import Recombine.Dag.Basic
import Recombine.Engine.Basic
import Recombine.Evaluation.Error
import Recombine.Text.Quoted

namespace Recombine

namespace Dag

variable (ops : Operators) (d : Dag)

def columnSet? (rel : Relation) : Option (KeyMap Unit) :=
  rel.head?.map fun r => KeyMap.ofKeys r.columns

def unionMismatch (id : String) (columns : KeyMap Unit) (first : String) (expected : KeyMap Unit) :
    String :=
  "union input '" ++ id ++ "' has columns " ++ Text.quotedSet columns.keys ++ ", expected " ++
    Text.quotedSet expected.keys ++ " as in '" ++ first ++ "'"

def columnSets (inputs : List (String × Relation)) : List (String × KeyMap Unit) :=
  inputs.filterMap fun (id, rel) => (columnSet? rel).map (id, ·)

def unionFault? (inputs : List (String × Relation)) : Option String :=
  match columnSets inputs with
  | [] => none
  | (first, expected) :: others =>
    (others.find? fun o => o.2 != expected).map fun (id, columns) =>
      unionMismatch id columns first expected

def gatherInputs (computed : Relations) (node operation : String) (ids : List String) :
    Except RunError (List (String × Relation)) :=
  ids.mapM fun id =>
    match computed.get? id with
    | some rel => .ok (id, rel)
    | none => .error (.missingInput node operation id)

def ofOperator {α : Type} (node operation : String) : Except OperatorFault α → Except RunError α
  | .ok a => .ok a
  | .error (.mixed e) => .error (.mixedColumnTypes node operation e.column)
  | .error .disorder => .error (.disorder node operation)

def arityFault (node : String) (c : Combination) (expected : String)
    (inputs : List (String × Relation)) : RunError :=
  .inputArity node c.name expected inputs.length

def combinePair (node : String) (c : Combination) (keys : List JoinKey)
    (op : Relation → Relation → List JoinKey → Except OperatorFault Relation)
    (inputs : List (String × Relation)) : Except RunError Relation :=
  match inputs with
  | [(_, left), (_, right)] =>
    if keys.isEmpty then .error (.missingJoinKeys node c.name)
    else ofOperator node c.name (op left right keys)
  | _ => .error (arityFault node c "exactly 2" inputs)

def combineAll (node : String) (inputs : List (String × Relation)) : Except RunError Relation :=
  if inputs.isEmpty then .error (arityFault node .union "at least 1" inputs)
  else
    match unionFault? inputs with
    | some reason => .error (.schemaMismatch node Combination.union.name reason)
    | none => ofOperator node Combination.union.name (ops.union (inputs.map Prod.snd))

def combine (node : String) (c : Combination) (keys : List JoinKey)
    (inputs : List (String × Relation)) : Except RunError Relation :=
  match c with
  | .standalone =>
    match inputs with
    | [(_, rel)] => .ok rel
    | _ => .error (arityFault node c "exactly 1" inputs)
  | .union => combineAll ops node inputs
  | .join => combinePair node c keys ops.join inputs
  | .compare => combinePair node c keys ops.compare inputs

def post (node : String) (a : Action) (rel : Relation) : Except RunError Relation :=
  match a with
  | .filter filters => ofOperator node a.name (ops.filter rel filters)
  | .aggregate groupBy metrics => ofOperator node a.name (ops.aggregate rel groupBy metrics)
  | .project columns => ofOperator node a.name (ops.project rel columns)
  | .sort orderBy => ofOperator node a.name (ops.sort rel orderBy)
  | .limit count => ofOperator node a.name (ops.limit rel count)
  | .scan _ | .combine .. =>
    .error (.schemaMismatch node a.name "not a post-combine operation")

def nodeValue (data computed : Relations) (n : Node) : Except RunError Relation :=
  match n.action with
  | .scan _ =>
    match data.get? n.id with
    | some rel => .ok rel
    | none => .error (.missingScanData n.id)
  | .combine c keys => do
    let inputs ← gatherInputs computed n.id c.name (Edge.operands (d.inbound n.id))
    combine ops n.id c keys inputs
  | a =>
    match n.inputs with
    | [id] =>
      match computed.get? id with
      | some rel => post ops n.id a rel
      | none => .error (.missingInput n.id a.name id)
    | ids => .error (.inputArity n.id a.name "exactly 1" ids.length)

/-- Evaluates nodes in turn. The evaluation is cancelled before the node at the given place. -/
def evaluateNodes (data : Relations) (cancelledAt : Option Nat) (computed : Relations) :
    List String → Except RunError Relations
  | [] => .ok computed
  | id :: ids =>
    if cancelledAt = some 0 then .error (.cancelled id)
    else
      match d.node? id with
      | none => evaluateNodes data (cancelledAt.map (· - 1)) computed ids
      | some n => do
        let rel ← nodeValue ops d data computed n
        evaluateNodes data (cancelledAt.map (· - 1)) (computed.insert id rel) ids

def missingScan? (data : Relations) : Option String :=
  d.scanIds.find? fun id => !data.contains id

def evaluate (data : Relations) (cancelledAt : Option Nat) : Except RunError Relations :=
  match d.missingScan? data with
  | some id => .error (.missingScanData id)
  | none => do
    let computed ← evaluateNodes ops d data cancelledAt ∅ d.layers.flatten
    if d.terminals.isEmpty then throw (.noTerminals d.id)
    return computed.filter fun id _ => d.terminals.contains id

end Dag

end Recombine
