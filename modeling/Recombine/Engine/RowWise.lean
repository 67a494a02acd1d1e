import Recombine.Engine.Grouping
import Recombine.Engine.Naming
import Recombine.Engine.Predicate
import Recombine.Engine.Tally

namespace Recombine

def Row.insertAll (r : Row) (cells : List (String × Value)) : Row :=
  cells.foldl (fun r cell => r.insert cell.1 cell.2) r

namespace RowWise

def keyOf (columns : List String) (r : Row) : List Value.Key :=
  columns.map fun c => (r.value c).key

def matched (left right : Relation) (keys : List JoinKey) : List (Row × Row) :=
  Grouping.matched (keyOf (keys.map JoinKey.left)) (keyOf (keys.map JoinKey.right)) left right

def keyCells (keys : List JoinKey) (l : Row) : List (String × Value) :=
  keys.map fun k => (k.left, l.value k.left)

def insertFresh (r : Row) (cell : String × Value) : Row :=
  r.insert (freshName r.columns cell.1) cell.2

def joinRow (keys : List JoinKey) (l r : Row) : Row :=
  let row := (Row.insertAll ∅ (keyCells keys l)).insertAll
    (l.cells.filter fun cell => !JoinKey.isLeft keys cell.1)
  (r.cells.filter fun cell => !JoinKey.isRight keys cell.1).foldl insertFresh row

def join (left right : Relation) (keys : List JoinKey) : Relation :=
  (matched left right keys).map fun p => joinRow keys p.1 p.2

def differs (keys : List JoinKey) (l r : Row) : Bool :=
  (comparedColumns keys l.columns r.columns).any fun c => !(l.value c).looseEq (r.value c)

def compareRow (keys : List JoinKey) (l r : Row) : Row :=
  (Row.insertAll ∅ (keyCells keys l)).insertAll
    ((comparedColumns keys l.columns r.columns).flatMap fun c =>
      [("left_" ++ c, l.value c), ("right_" ++ c, r.value c)])

def compare (left right : Relation) (keys : List JoinKey) : Relation :=
  ((matched left right keys).filter fun p => differs keys p.1 p.2).map fun p =>
    compareRow keys p.1 p.2

def filter (rel : Relation) (filters : List Filter) : Relation :=
  rel.filter fun r => filters.all fun f => f.acceptsRow r

def metricValue (m : Metric) (r : Row) : Value := (m.source.map r.value).getD .null

def measures (metrics : List Metric) : List (Measure Row) :=
  metrics.map fun m => ⟨m.aggregation, metricValue m⟩

def aggregate (rel : Relation) (groupBy : List String) (metrics : List Metric) : Relation :=
  (Tally.ofList (keyOf groupBy) (measures metrics) rel).groups.map fun g =>
    (Row.insertAll ∅ (groupBy.map fun c => (c, g.1.value c))).insertAll
      ((metrics.zip g.2).map fun m => (m.1.name, m.2.result))

def project (rel : Relation) (columns : List String) : Relation :=
  if columns.isEmpty then rel
  else rel.map fun r => Row.ofList (columns.map fun c => (c, r.value c))

def sortBy (o : Order) (rel : Relation) : Relation :=
  rel.mergeSort fun a b => o.isBefore (a.value o.column) (b.value o.column)

def sort (rel : Relation) (orderBy : List Order) : Relation := orderBy.foldr sortBy rel

/-- Up to this many rows are sorted without a look at their order. -/
def unchecked : Nat := 20

/-- A sort of more rows notices that the cells of a column are in no order, and gives up. Only a
float beside an integer that is rounded when the two are compared can bring that about. -/
def noticesDisorder (rel : Relation) (o : Order) : Bool :=
  let vs := rel.map fun r => r.value o.column
  decide (unchecked < vs.length) && vs.any (decide ·.IsFloat) && vs.any (decide ·.IsLarge) &&
    !decide (Value.TransitiveOn vs)

def limit (rel : Relation) : Option Nat → Relation
  | some n => rel.take n
  | none => rel

end RowWise

end Recombine
