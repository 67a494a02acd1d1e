import Recombine.Value

namespace Recombine

abbrev columnsOf (cells : List (String × Value)) : List String := cells.map Prod.fst

structure Row where
  cells : List (String × Value)
  distinct : (columnsOf cells).Nodup
  deriving DecidableEq

abbrev Relation := List Row

namespace Row

@[ext] theorem ext {r s : Row} (h : r.cells = s.cells) : r = s := by
  cases r; cases s; cases h; rfl

def empty : Row := ⟨[], .nil⟩

instance : EmptyCollection Row := ⟨empty⟩

instance : Inhabited Row := ⟨empty⟩

def set (column : String) (v : Value) : List (String × Value) → List (String × Value)
  | [] => [(column, v)]
  | cell :: rest => if cell.1 = column then (column, v) :: rest else cell :: set column v rest

theorem columnsOf_set (column : String) (v : Value) (cells : List (String × Value)) :
    columnsOf (set column v cells) =
      if column ∈ columnsOf cells then columnsOf cells else columnsOf cells ++ [column] := by
  induction cells with
  | nil => simp [set]
  | cons cell rest ih =>
    by_cases h : cell.1 = column
    · simp [set, h]
    · simp only [set, h, if_false, List.map_cons, ih, List.mem_cons, Ne.symm h, false_or]
      split <;> rfl

theorem nodup_set {cells : List (String × Value)} (column : String) (v : Value)
    (h : (columnsOf cells).Nodup) : (columnsOf (set column v cells)).Nodup := by
  rw [columnsOf_set]
  split
  next => exact h
  next hc => exact List.nodup_append.2 ⟨h, by simp, fun a ha b hb => by
      rw [List.mem_singleton.1 hb]; exact fun e => hc (e ▸ ha)⟩

def insert (r : Row) (column : String) (v : Value) : Row :=
  ⟨set column v r.cells, nodup_set column v r.distinct⟩

def ofList (cells : List (String × Value)) : Row :=
  cells.foldl (fun r cell => r.insert cell.1 cell.2) ∅

def columns (r : Row) : List String := columnsOf r.cells

def get? (r : Row) (column : String) : Option Value :=
  (r.cells.find? fun cell => cell.1 == column).map Prod.snd

def value (r : Row) (column : String) : Value := (r.get? column).getD .null

def size (r : Row) : Nat := r.cells.length

theorem find?_set (column c : String) (v : Value) (cells : List (String × Value)) :
    (set column v cells).find? (fun cell => cell.1 == c) =
      if c = column then some (column, v) else cells.find? fun cell => cell.1 == c := by
  induction cells with
  | nil => by_cases h : c = column <;> simp [set, h, Ne.symm]
  | cons cell rest ih =>
    simp only [set]
    split
    next heq =>
      by_cases h : c = column
      · simp [h]
      · simp [heq, Ne.symm h, h]
    next hne =>
      by_cases h : c = column
      · subst h
        simp [hne, ih]
      · simp only [List.find?_cons, ih, h, if_false]

theorem get?_insert (r : Row) (column c : String) (v : Value) :
    (r.insert column v).get? c = if c = column then some v else r.get? c := by
  simp only [get?, insert, find?_set]
  split <;> rfl

theorem columns_insert (r : Row) (column : String) (v : Value) :
    (r.insert column v).columns =
      if column ∈ r.columns then r.columns else r.columns ++ [column] :=
  columnsOf_set column v r.cells

def toJson (r : Row) : Json := .object (r.cells.map fun cell => (cell.1, cell.2.toJson))

def decode : Json.Decoder Row := fun d => ofList <$> Json.Decoder.entries Value.decode d

end Row

namespace Relation

def toJson (rel : Relation) : Json := Json.list Row.toJson rel

def decode : Json.Decoder Relation := Json.Decoder.list Row.decode

end Relation

abbrev Relations := KeyMap Relation

namespace Relations

def toJson (rels : Relations) : Json := Json.ofKeyMap Relation.toJson rels

def decode : Json.Decoder Relations := Json.Decoder.keyMap Relation.decode

end Relations

end Recombine
