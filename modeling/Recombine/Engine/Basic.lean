import Recombine.Engine.ColumnWise
import Recombine.Engine.RowWise

namespace Recombine

/-- Why an operator gives no relation: a column mixes kinds of values, or rows are to be sorted by a
column whose cells are in no order. -/
inductive OperatorFault
  | mixed (e : MixedColumn)
  | disorder
  deriving DecidableEq, Repr

structure Operators where
  union : List Relation → Except OperatorFault Relation
  join : Relation → Relation → List JoinKey → Except OperatorFault Relation
  compare : Relation → Relation → List JoinKey → Except OperatorFault Relation
  filter : Relation → List Filter → Except OperatorFault Relation
  aggregate : Relation → List String → List Metric → Except OperatorFault Relation
  project : Relation → List String → Except OperatorFault Relation
  sort : Relation → List Order → Except OperatorFault Relation
  limit : Relation → Option Nat → Except OperatorFault Relation

def RowWise.operators : Operators where
  union rels := .ok rels.flatten
  join left right keys := .ok (join left right keys)
  compare left right keys := .ok (compare left right keys)
  filter rel filters := .ok (filter rel filters)
  aggregate rel groupBy metrics := .ok (aggregate rel groupBy metrics)
  project rel columns := .ok (project rel columns)
  sort rel orderBy :=
    if orderBy.any (noticesDisorder rel) then .error .disorder else .ok (sort rel orderBy)
  limit rel count := .ok (limit rel count)

def ColumnWise.operators : Operators where
  union rels := (union rels).mapError .mixed
  join left right keys := (join left right keys).mapError .mixed
  compare left right keys := (compare left right keys).mapError .mixed
  filter rel filters := (filter rel filters).mapError .mixed
  aggregate rel groupBy metrics := (aggregate rel groupBy metrics).mapError .mixed
  project rel columns := (project rel columns).mapError .mixed
  sort rel orderBy := (sort rel orderBy).mapError .mixed
  limit rel count := (limit rel count).mapError .mixed

inductive Engine
  | row
  | columnar
  deriving DecidableEq, Repr

namespace Engine

def name : Engine → String
  | row => "row"
  | columnar => "columnar"

def ofName? (s : String) : Option Engine := [row, columnar].find? fun e => e.name == s

def ofText (s : String) : Except String Engine :=
  let word := Text.word s
  if word ∈ ["row", "naive"] then .ok row
  else if word ∈ ["columnar", "arrow", "vectorized"] then .ok columnar
  else .error ("Unsupported execution backend: " ++ s)

def toJson (e : Engine) : Json := .string e.name

def decode : Json.Decoder Engine := .choice ofName?

def operators : Engine → Operators
  | row => RowWise.operators
  | columnar => ColumnWise.operators

end Engine

end Recombine
