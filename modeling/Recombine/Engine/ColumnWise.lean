import Recombine.Engine.Grouping
import Recombine.Engine.Naming
import Recombine.Engine.Predicate
import Recombine.Engine.Table
import Recombine.Engine.Tally

namespace Recombine

def Test.verdict? : Test → Option (Option Ordering → Bool)
  | eq => some fun o => o == some .eq
  | ne => some fun o => o != some .eq
  | gt => some fun o => o == some .gt
  | ge => some fun o => o.any Ordering.isGE
  | lt => some fun o => o == some .lt
  | le => some fun o => o.any Ordering.isLE
  | _ => none

def ColumnType.comparison? : (t : ColumnType) → Operand → Option (t.Cell → Option Ordering)
  | int, .scalar (.int j) => some fun (i : Int64) => some (compare i j)
  | float, .scalar v => v.number?.map fun y (x : Float) => Number.compare? x y
  | text, .scalar (.text u) => some fun (s : String) => some (compare s u)
  | _, _ => none

namespace Column

def mask (c : Column) (f : Filter) : List Bool :=
  match f.test.verdict?, c.type.comparison? f.operand with
  | some verdict, some comparison =>
    c.cells.map fun
      | some x => verdict (comparison x)
      | none => f.accepts .null
  | _, _ => c.values.map f.accepts

end Column

namespace ColumnWise

def widenSchema (name : String) (t : ColumnType) : List (String × ColumnType) →
    Except MixedColumn (List (String × ColumnType))
  | [] => .ok [(name, t)]
  | (n, s) :: schema =>
    if n = name then (fun u => (n, u) :: schema) <$> Column.widen n s t
    else ((n, s) :: ·) <$> widenSchema name t schema

def schemaOf (tables : List Table) : Except MixedColumn (List (String × ColumnType)) :=
  (tables.flatMap Table.columns).foldlM (fun schema c => widenSchema c.1 c.2.type schema) []

def stack (tables : List Table) (name : String) (t : ColumnType) : Column :=
  ⟨t, tables.flatMap fun table => (table.column name).cellsAs t⟩

def union (rels : List Relation) : Except MixedColumn Relation := do
  let tables ← rels.mapM Table.ofRelation
  let schema ← schemaOf tables
  let columns := schema.map fun (name, t) => (name, stack tables name t)
  let rowCount := (tables.map Table.rowCount).foldr (· + ·) 0
  return (⟨rowCount, columns⟩ : Table).toRelation

def keyAt (columns : List (List Value)) (i : Nat) : List Value.Key :=
  columns.map fun vs => (vs.getD i .null).key

def matched (left right : Table) (keys : List JoinKey) : List (Nat × Nat) :=
  Grouping.matched (keyAt (keys.map fun k => left.values k.left))
    (keyAt (keys.map fun k => right.values k.right))
    (List.range left.rowCount) (List.range right.rowCount)

def addFresh (columns : List (String × Column)) (c : String × Column) : List (String × Column) :=
  columns ++ [(freshName (columns.map Prod.fst) c.1, c.2)]

def keyColumns (keys : List JoinKey) (left : Table) (places : List Nat) : List (String × Column) :=
  keys.map fun k => (k.left, (left.column k.left).gather places)

def join (left right : Relation) (keys : List JoinKey) : Except MixedColumn Relation := do
  let left ← Table.ofRelation left
  let right ← Table.ofRelation right
  let pairs := matched left right keys
  let ls := pairs.map Prod.fst
  let rs := pairs.map Prod.snd
  let others := (left.gather ls).columns.filter fun c => !JoinKey.isLeft keys c.1
  let added := (right.gather rs).columns.filter fun c => !JoinKey.isRight keys c.1
  let columns := added.foldl addFresh (keyColumns keys left ls ++ others)
  return (⟨pairs.length, columns⟩ : Table).toRelation

def compare (left right : Relation) (keys : List JoinKey) : Except MixedColumn Relation := do
  let left ← Table.ofRelation left
  let right ← Table.ofRelation right
  let names := comparedColumns keys left.names right.names
  let sides := names.map fun c => (left.values c, right.values c)
  let pairs := (matched left right keys).filter fun (l, r) =>
    sides.any fun (ls, rs) => !(ls.getD l .null).looseEq (rs.getD r .null)
  let ls := pairs.map Prod.fst
  let rs := pairs.map Prod.snd
  let compared := names.flatMap fun c =>
    [("left_" ++ c, (left.column c).gather ls), ("right_" ++ c, (right.column c).gather rs)]
  return (⟨pairs.length, keyColumns keys left ls ++ compared⟩ : Table).toRelation

def filter (rel : Relation) (filters : List Filter) : Except MixedColumn Relation := do
  let table ← Table.ofRelation rel
  let mask := filters.foldl (fun mask f => mask.zipWith (· && ·) ((table.column f.column).mask f))
    (List.replicate table.rowCount true)
  return (table.keep mask).toRelation

def aggregate (rel : Relation) (groupBy : List String) (metrics : List Metric) :
    Except MixedColumn Relation := do
  let table ← Table.ofRelation rel
  let keyed := groupBy.map table.values
  let measures := metrics.map fun m =>
    let vs := (m.source.map table.values).getD []
    (⟨m.aggregation, fun i => vs.getD i .null⟩ : Measure Nat)
  let tally := Tally.ofList (keyAt keyed) measures (List.range table.rowCount)
  return tally.groups.map fun (first, totals) => Row.ofList
    ((groupBy.zip keyed).map (fun (c, vs) => (c, vs.getD first .null)) ++
      (metrics.zip totals).map fun (m, total) => (m.name, total.result))

def project (rel : Relation) (columns : List String) : Except MixedColumn Relation := do
  if columns.isEmpty then return rel
  let table ← Table.ofRelation rel
  return (⟨table.rowCount, columns.map fun c => (c, table.column c)⟩ : Table).toRelation

def sortPlaces (table : Table) (o : Order) (places : List Nat) : List Nat :=
  let vs := table.values o.column
  places.mergeSort fun i j => o.isBefore (vs.getD i .null) (vs.getD j .null)

def sort (rel : Relation) (orderBy : List Order) : Except MixedColumn Relation := do
  let table ← Table.ofRelation rel
  return (table.gather (orderBy.foldr (sortPlaces table) (List.range table.rowCount))).toRelation

def limit (rel : Relation) (count : Option Nat) : Except MixedColumn Relation := do
  let table ← Table.ofRelation rel
  return (table.take (count.getD table.rowCount)).toRelation

end ColumnWise

end Recombine
