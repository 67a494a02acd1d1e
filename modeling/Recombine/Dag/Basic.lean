import Recombine.Bisection
import Recombine.Graph.Layering
import Recombine.Plan.Basic
import Recombine.Sha256

/-! Compiled plans: directed graphs of operations, identified by a hash of their content. -/

namespace Recombine

open Json

inductive Action
  | scan (source : String)
  | combine (combination : Combination) (keys : List JoinKey)
  | filter (filters : List Filter)
  | aggregate (groupBy : List String) (metrics : List Metric)
  | project (columns : List String)
  | sort (orderBy : List Order)
  | limit (count : Option Nat)

namespace Action

def isScan : Action → Bool
  | scan _ => true
  | _ => false

def isCombine : Action → Bool
  | combine .. => true
  | _ => false

def isPost (a : Action) : Bool := !(a.isScan || a.isCombine)

def name : Action → String
  | scan _ => "scan"
  | combine c _ => c.name
  | filter _ => "filter"
  | aggregate .. => "aggregate"
  | project _ => "project"
  | sort _ => "sort"
  | limit _ => "limit"

def kind : Action → String
  | scan _ => "scan"
  | combine .. => "combine"
  | a => "post_" ++ a.name

def attributes : Action → List (String × Json)
  | scan source => [("datasource_id", .string source)]
  | combine c keys =>
    ("operation", c.toJson) ::
      if keys.isEmpty then [] else [("join_keys", Json.list JoinKey.toJson keys)]
  | filter fs => [("filters", Json.list Filter.toJson fs)]
  | aggregate groupBy ms =>
    [("group_by", Json.strings groupBy), ("metrics", Json.list Metric.toJson ms)]
  | project columns => [("columns", Json.strings columns)]
  | sort os => [("order_by", Json.list Order.toJson os)]
  | limit n => [("limit", ofOption (fun n => .int n) n)]

end Action

structure Node where
  id : String
  inputs : List String
  schema : Schema
  action : Action
  metadata : KeyMap Json := ∅

def Node.toJson (n : Node) : Json :=
  .object ([
      ("node_id", .string n.id),
      ("inputs", Json.strings n.inputs),
      ("output_schema", n.schema.toJson),
      ("kind", .string n.action.kind),
      ("attributes", .object n.action.attributes)]
    ++ if n.metadata.isEmpty then [] else [("metadata", .object n.metadata.entries)])

structure Edge where
  source : String
  target : String
  role : Option String := none
  deriving DecidableEq, Repr

namespace Edge

def id (e : Edge) : String :=
  match e.role with
  | some role => e.source ++ "->" ++ e.target ++ ":" ++ role
  | none => e.source ++ "->" ++ e.target

def rank (e : Edge) : Nat := roleRank e.role

def sortKey (e : Edge) : String × String × String := (e.source, e.target, e.role.getD "")

def arc (e : Edge) : Graph.Arc := (e.source, e.target)

def precedes (e f : Edge) : Bool :=
  ((compare e.source f.source).then
    ((compare e.target f.target).then (compare (e.role.getD "") (f.role.getD "")))).isLE

def isOperandBefore (e f : Edge) : Bool :=
  ((compare e.rank f.rank).then (compare e.source f.source)).isLE

def operands (es : List Edge) : List String := (es.mergeSort isOperandBefore).map source

def toJson (e : Edge) : Json :=
  .object ([
      ("edge_id", .string e.id),
      ("from_id", .string e.source),
      ("to_id", .string e.target)]
    ++ member? "role" .string e.role)

end Edge

structure Dag where
  nodes : List Node
  edges : List Edge

namespace Dag

def version : Nat := 1

def content (d : Dag) : List (String × Json) := [
  ("nodes", Json.list Node.toJson d.nodes),
  ("edges", Json.list Edge.toJson d.edges)]

def contentText (d : Dag) : String :=
  (Json.object (d.content ++ [("version", .int version)])).canonical.text

def contentHash (d : Dag) : String := Sha256.hexOfString d.contentText

def idOfHash (hash : String) : String := "dag_" ++ (hash.take 12).toString

def id (d : Dag) : String := idOfHash d.contentHash

def node? (d : Dag) (id : String) : Option Node := bisect (fun n => compare n.id id) d.nodes

def inbound (d : Dag) (id : String) : List Edge := d.edges.filter fun e => e.target == id

def nodeIds (d : Dag) : List String := d.nodes.map Node.id

def scanIds (d : Dag) : List String := (d.nodes.filter fun n => n.action.isScan).map Node.id

def terminals (d : Dag) : List String :=
  d.nodeIds.filter fun id => !d.edges.any fun e => e.source == id

def layering (d : Dag) : Graph.Layering := Graph.layering d.nodeIds (d.edges.map Edge.arc)

def layers (d : Dag) : List (List String) := d.layering.layers

def toJson (d : Dag) : Json :=
  let hash := d.contentHash
  .object (d.content ++ [
    ("content_hash", .string hash), ("dag_id", .string (idOfHash hash)), ("version", .int version)])

structure Summary where
  id : String
  contentHash : String
  nodeCount : Nat
  edgeCount : Nat
  layerCount : Nat
  scanCount : Nat
  terminalCount : Nat
  deriving DecidableEq, Repr

def Summary.toJson (s : Summary) : Json :=
  .object [
    ("dag_id", .string s.id),
    ("content_hash", .string s.contentHash),
    ("version", .int version),
    ("node_count", .int s.nodeCount),
    ("edge_count", .int s.edgeCount),
    ("layer_count", .int s.layerCount),
    ("scan_count", .int s.scanCount),
    ("terminal_count", .int s.terminalCount)]

def summary (d : Dag) : Summary :=
  let hash := d.contentHash
  { id := idOfHash hash
    contentHash := hash
    nodeCount := d.nodes.length
    edgeCount := d.edges.length
    layerCount := d.layers.length
    scanCount := d.scanIds.length
    terminalCount := d.terminals.length }

end Dag

end Recombine
