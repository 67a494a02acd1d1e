import Recombine.Plan.Filter
import Recombine.Plan.Schema

namespace Recombine

open Json

inductive Aggregation
  | count
  | sum
  | average
  | min
  | max
  deriving DecidableEq, Repr

namespace Aggregation

def name : Aggregation → String
  | count => "count"
  | sum => "sum"
  | average => "avg"
  | min => "min"
  | max => "max"

def all : List Aggregation := [count, sum, average, min, max]

def ofName? (s : String) : Option Aggregation := all.find? fun a => a.name == s

def toJson (a : Aggregation) : Json := .string a.name

def decode : Decoder Aggregation := .choice ofName?

end Aggregation

structure Metric where
  name : String
  aggregation : Aggregation
  source : Option String := none
  deriving DecidableEq, Repr

namespace Metric

def toJson (m : Metric) : Json :=
  .object (("name", .string m.name) :: ("aggregation", m.aggregation.toJson) ::
    member? "source_attribute" .string m.source)

def record : Record Metric :=
  mk <$> .required "name" .string
    <*> .required "aggregation" Aggregation.decode
    <*> .optional "source_attribute" none (.option .string)

def decode : Decoder Metric := record.decode

end Metric

inductive Direction
  | ascending
  | descending
  deriving DecidableEq, Repr

namespace Direction

def name : Direction → String
  | ascending => "asc"
  | descending => "desc"

def ofName? (s : String) : Option Direction :=
  [ascending, descending].find? fun d => d.name == s

def toJson (d : Direction) : Json := .string d.name

def decode : Decoder Direction := .choice ofName?

end Direction

structure Order where
  column : String
  direction : Direction := .ascending
  deriving DecidableEq, Repr

namespace Order

def isBefore (o : Order) (x y : Value) : Bool :=
  match o.direction with
  | .ascending => (x.totalCompare y).isLE
  | .descending => (x.totalCompare y).isGE

def toJson (o : Order) : Json :=
  .object [("attribute", .string o.column), ("direction", o.direction.toJson)]

def record : Record Order :=
  mk <$> .required "attribute" .string <*> .optional "direction" .ascending Direction.decode

def decode : Decoder Order := record.decode

end Order

inductive PostKind
  | filter
  | aggregate
  | project
  | sort
  | limit
  deriving DecidableEq, Repr

namespace PostKind

def name : PostKind → String
  | filter => "filter"
  | aggregate => "aggregate"
  | project => "project"
  | sort => "sort"
  | limit => "limit"

def all : List PostKind := [filter, aggregate, project, sort, limit]

def ofName? (s : String) : Option PostKind := all.find? fun k => k.name == s

def toJson (k : PostKind) : Json := .string k.name

def decode : Decoder PostKind := .choice ofName?

end PostKind

/-- The parameters of every kind may be written; those of other kinds have no effect. -/
structure PostOp where
  id : String
  target : String
  kind : PostKind
  schema : Schema := []
  filters : List Filter := []
  metrics : List Metric := []
  groupBy : List String := []
  orderBy : List Order := []
  limit : Option Nat := none
  metadata : KeyMap Json := ∅

namespace PostOp

def toJson (op : PostOp) : Json :=
  .object [
    ("op_id", .string op.id),
    ("target_group_id", .string op.target),
    ("operation", op.kind.toJson),
    ("expected_schema", op.schema.toJson),
    ("filters", Json.list Filter.toJson op.filters),
    ("metrics", Json.list Metric.toJson op.metrics),
    ("group_by", Json.strings op.groupBy),
    ("order_by", Json.list Order.toJson op.orderBy),
    ("limit", ofOption (fun n => .int n) op.limit),
    ("metadata", .object op.metadata.entries)]

def record : Record PostOp :=
  mk <$> .required "op_id" .string
    <*> .required "target_group_id" .string
    <*> .required "operation" PostKind.decode
    <*> .optional "expected_schema" [] Schema.decode
    <*> .optional "filters" [] (.list Filter.decode)
    <*> .optional "metrics" [] (.list Metric.decode)
    <*> .optional "group_by" [] (.list .string)
    <*> .optional "order_by" [] (.list Order.decode)
    <*> .optional "limit" none (.option .count)
    <*> .optional "metadata" ∅ (.keyMap Json.decode)

def decode : Decoder PostOp := record.decode

end PostOp

end Recombine
