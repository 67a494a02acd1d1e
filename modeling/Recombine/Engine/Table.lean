import Recombine.Row

namespace Recombine

inductive ColumnType
  | blank
  | bool
  | int
  | float
  | text
  deriving DecidableEq, Repr

namespace ColumnType

abbrev Cell : ColumnType → Type
  | blank => Empty
  | bool => Bool
  | int => Int64
  | float => Float
  | text => String

def ofValue : Value → ColumnType
  | .null => blank
  | .bool _ => bool
  | .int _ => int
  | .float _ => float
  | .text _ => text

def join? : ColumnType → ColumnType → Option ColumnType
  | blank, t => some t
  | t, blank => some t
  | int, float => some float
  | float, int => some float
  | s, t => if s = t then some s else none

def value : (t : ColumnType) → t.Cell → Value
  | bool, b => .bool b
  | int, i => .int i
  | float, x => .float x
  | text, s => .text s

def cell? : (t : ColumnType) → Value → Option t.Cell
  | bool, .bool b => some b
  | int, .int i => some i
  | float, v => v.number?
  | text, .text s => some s
  | _, _ => none

end ColumnType

structure Column where
  type : ColumnType
  cells : List (Option type.Cell)

structure MixedColumn where
  column : String
  deriving DecidableEq, Repr

namespace Column

def blank (size : Nat) : Column := ⟨.blank, List.replicate size none⟩

def cellValue {t : ColumnType} : Option t.Cell → Value
  | some x => t.value x
  | none => .null

def values (c : Column) : List Value := c.cells.map cellValue

def value (c : Column) (i : Nat) : Value := cellValue (c.cells[i]?.join)

def cellsAs (c : Column) (t : ColumnType) : List (Option t.Cell) :=
  c.values.map t.cell?

def gather (c : Column) (places : List Nat) : Column :=
  ⟨c.type, places.map fun i => c.cells[i]?.join⟩

def keep (c : Column) (mask : List Bool) : Column :=
  ⟨c.type, ((c.cells.zip mask).filter Prod.snd).map Prod.fst⟩

def take (c : Column) (n : Nat) : Column := ⟨c.type, c.cells.take n⟩

def widen (name : String) (t s : ColumnType) : Except MixedColumn ColumnType :=
  match t.join? s with
  | some u => .ok u
  | none => .error ⟨name⟩

def ofValues (name : String) (vs : List Value) : Except MixedColumn Column := do
  let t ← vs.foldlM (fun t v => widen name t (.ofValue v)) .blank
  return ⟨t, vs.map t.cell?⟩

end Column

structure Table where
  rowCount : Nat
  columns : List (String × Column)

namespace Table

def namesOf (rel : Relation) : List String := (rel.flatMap Row.columns).eraseDups

def ofRelation (rel : Relation) : Except MixedColumn Table := do
  let columns ← (namesOf rel).mapM fun name =>
    (name, ·) <$> Column.ofValues name (rel.map fun r => r.value name)
  return ⟨rel.length, columns⟩

def row (t : Table) (i : Nat) : Row := Row.ofList (t.columns.map fun c => (c.1, c.2.value i))

def toRelation (t : Table) : Relation := (List.range t.rowCount).map t.row

def names (t : Table) : List String := t.columns.map Prod.fst

def column (t : Table) (name : String) : Column := (t.columns.lookup name).getD (.blank t.rowCount)

def values (t : Table) (name : String) : List Value := (t.column name).values

def gather (t : Table) (places : List Nat) : Table :=
  ⟨places.length, t.columns.map fun c => (c.1, c.2.gather places)⟩

def keep (t : Table) (mask : List Bool) : Table :=
  ⟨mask.count true, t.columns.map fun c => (c.1, c.2.keep mask)⟩

def take (t : Table) (n : Nat) : Table :=
  ⟨min n t.rowCount, t.columns.map fun c => (c.1, c.2.take n)⟩

end Table

end Recombine
