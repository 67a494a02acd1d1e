import Recombine.Proofs.Columns.Selection
import Recombine.Proofs.Engine.GroupedRows
import Recombine.Proofs.Groups

namespace Recombine

namespace Row

variable {cells added : List (String × Value)}

lemma insertFresh_ofList (cell : String × Value) :
    RowWise.insertFresh (ofList cells) cell =
      ofList (cells ++ [(freshName (columnsOf cells) cell.1, cell.2)]) := by
  have hname : freshName (ofList cells).columns cell.1 = freshName (columnsOf cells) cell.1 :=
    freshName_congr fun n _ => mem_columns_ofList
  rw [RowWise.insertFresh, hname, ofList_append]
  rfl

lemma ofList_addFresh (i : Nat) (columns added : List (String × Column)) :
    ofList ((added.foldl ColumnWise.addFresh columns).map fun c => (c.1, c.2.value i)) =
      (added.map fun c => (c.1, c.2.value i)).foldl RowWise.insertFresh
        (ofList (columns.map fun c => (c.1, c.2.value i))) := by
  induction added generalizing columns with
  | nil => rfl
  | cons c added ih =>
    rw [List.foldl_cons, ih, List.map_cons, List.foldl_cons, insertFresh_ofList,
      ColumnWise.addFresh, List.map_append, columnsOf, List.map_map]
    rfl

end Row

namespace Relation

lemma matched_places (leftKey rightKey : Row → List Value.Key) (left right : Relation) :
    Grouping.matched leftKey rightKey left right =
      (Grouping.matched (fun i => leftKey (left.rowAt i)) (fun i => rightKey (right.rowAt i))
        (List.range left.length) (List.range right.length)).map
          fun p => (left.rowAt p.1, right.rowAt p.2) := by
  rw [← Grouping.matched_map, left.map_rowAt_range, right.map_rowAt_range]

end Relation

namespace Table.Represents

open ColumnWise (keyAt)

variable {t : Table} {rel : Relation} (h : t.Represents rel)

include h

lemma getD_values (c : String) (i : Nat) :
    (t.values c).getD i .null = (rel.rowAt i).value c := by
  rw [← h.value, Column.value_eq, Table.values]

lemma keyAt_eq (columns : List String) (i : Nat) :
    keyAt (columns.map t.values) i = RowWise.keyOf columns (rel.rowAt i) := by
  rw [keyAt, List.map_map, RowWise.keyOf]
  exact List.map_congr_left fun c _ => by rw [Function.comp_apply, h.getD_values]

lemma cells_gather {places : List Nat} (hp : ∀ i ∈ places, i < rel.length) {k : Nat}
    (hk : k < places.length) :
    (t.gather places).columns.map (fun c => (c.1, c.2.value k)) =
      (rel.rowAt places[k]).cells := by
  have hk' : k < (places.map rel.rowAt).length := by simpa using hk
  rw [(h.gather hp).cells_row hk', Relation.rowAt_eq_getElem hk', List.getElem_map]

lemma filter_cells_gather {places : List Nat} (hp : ∀ i ∈ places, i < rel.length) {k : Nat}
    (hk : k < places.length) (p : String → Bool) :
    ((t.gather places).columns.filter fun c => p c.1).map (fun c => (c.1, c.2.value k)) =
      (rel.rowAt places[k]).cells.filter fun cell => p cell.1 := by
  rw [← h.cells_gather hp hk, List.filter_map]
  rfl

lemma keyColumns (keys : List JoinKey) {places : List Nat} {k : Nat} (hk : k < places.length) :
    (ColumnWise.keyColumns keys t places).map (fun c => (c.1, c.2.value k)) =
      RowWise.keyCells keys (rel.rowAt places[k]) := by
  rw [ColumnWise.keyColumns, List.map_map, RowWise.keyCells]
  refine List.map_congr_left fun key _ => ?_
  rw [Function.comp_apply, Column.value_gather _ _ hk, h.value]

lemma groupCells (groupBy : List String) (i : Nat) :
    (groupBy.zip (groupBy.map t.values)).map (fun c => (c.1, c.2.getD i .null)) =
      groupBy.map fun c => (c, (rel.rowAt i).value c) := by
  rw [List.zip_map_right, List.map_map, List.zip_eq_zipWith, List.zipWith_self, List.map_map]
  exact List.map_congr_left fun c _ => congrArg (c, ·) (h.getD_values c i)

lemma metricValue (m : Metric) (i : Nat) : ((m.source.map t.values).getD []).getD i .null =
    RowWise.metricValue m (rel.rowAt i) := by
  rw [RowWise.metricValue]
  cases m.source with
  | none => rfl
  | some c => exact h.getD_values c i

lemma metricCells (metrics : List Metric) {places : List Nat} {g : Nat × List Accumulator}
    (hsums : Tally.Sums (metrics.map fun m =>
      (⟨m.aggregation, fun i => ((m.source.map t.values).getD []).getD i .null⟩ : Measure Nat))
        places g) : (metrics.zip g.2).map (fun m => (m.1.name, m.2.result)) =
          metrics.map (RowWise.metricCell (places.map rel.rowAt)) := by
  rw [hsums.results]
  refine List.map_congr_left fun m _ => ?_
  rw [RowWise.metricCell, List.map_map]
  simp only [Function.comp_def, h.metricValue]

theorem aggregate (groupBy : List String) (metrics : List Metric) :
    ((Tally.ofList (keyAt (groupBy.map t.values)) (metrics.map fun m =>
        ⟨m.aggregation, fun i => ((m.source.map t.values).getD []).getD i .null⟩)
          (List.range t.rowCount)).groups.map fun g =>
      Row.ofList ((groupBy.zip (groupBy.map t.values)).map
        (fun c => (c.1, c.2.getD g.1 .null)) ++
        (metrics.zip g.2).map fun m => (m.1.name, m.2.result))) =
      RowWise.aggregate rel groupBy metrics := by
  have hkey : keyAt (groupBy.map t.values) = fun i => RowWise.keyOf groupBy (rel.rowAt i) :=
    funext (h.keyAt_eq groupBy)
  have hrel : rel = (List.range rel.length).map rel.rowAt := rel.map_rowAt_range.symm
  rw [RowWise.aggregate_eq, hkey, h.rowCount]
  conv_rhs => rw [hrel, Tally.keysOf_map]
  simp only [Tally.members_map]
  refine Tally.map_groups (F := fun places =>
    RowWise.groupRow groupBy metrics (places.map rel.rowAt)) fun places g hsums => ?_
  have hfirst : (places.map rel.rowAt).headD ∅ = rel.rowAt g.1 := by
    rw [List.headD_eq_head?_getD, List.head?_map, hsums.first, Option.map_some, Option.getD_some]
  rw [RowWise.groupRow, hfirst, h.groupCells, h.metricCells metrics hsums, Row.ofList_append]
  rfl

end Table.Represents

namespace ColumnWise

def joined (left right : Table) (keys : List JoinKey) : Table :=
  let pairs := matched left right keys
  let others := (left.gather (pairs.map Prod.fst)).columns.filter fun c =>
    !JoinKey.isLeft keys c.1
  let added := (right.gather (pairs.map Prod.snd)).columns.filter fun c =>
    !JoinKey.isRight keys c.1
  ⟨pairs.length, added.foldl addFresh (keyColumns keys left (pairs.map Prod.fst) ++ others)⟩

def differs (left right : Table) (keys : List JoinKey) (p : Nat × Nat) : Bool :=
  ((comparedColumns keys left.names right.names).map fun c => (left.values c, right.values c)).any
    fun side => !(side.1.getD p.1 .null).looseEq (side.2.getD p.2 .null)

def compared (left right : Table) (keys : List JoinKey) : Table :=
  let pairs := (matched left right keys).filter (differs left right keys)
  ⟨pairs.length, keyColumns keys left (pairs.map Prod.fst) ++
    (comparedColumns keys left.names right.names).flatMap fun c =>
      [("left_" ++ c, (left.column c).gather (pairs.map Prod.fst)),
        ("right_" ++ c, (right.column c).gather (pairs.map Prod.snd))]⟩

section Pairs

variable {t u : Table} {left right : Relation} (hl : t.Represents left) (hr : u.Represents right)
  (keys : List JoinKey)

include hl hr

lemma matched_eq : matched t u keys =
    Grouping.matched (fun i => RowWise.keyOf (keys.map JoinKey.left) (left.rowAt i))
      (fun i => RowWise.keyOf (keys.map JoinKey.right) (right.rowAt i))
      (List.range left.length) (List.range right.length) := by
  have hleft : keyAt (keys.map fun k => t.values k.left) =
      fun i => RowWise.keyOf (keys.map JoinKey.left) (left.rowAt i) := by
    funext i
    rw [← hl.keyAt_eq, List.map_map]
    rfl
  have hright : keyAt (keys.map fun k => u.values k.right) =
      fun i => RowWise.keyOf (keys.map JoinKey.right) (right.rowAt i) := by
    funext i
    rw [← hr.keyAt_eq, List.map_map]
    rfl
  rw [matched, hleft, hright, hl.rowCount, hr.rowCount]

lemma map_matched : (matched t u keys).map (fun p => (left.rowAt p.1, right.rowAt p.2)) =
    RowWise.matched left right keys := by
  rw [matched_eq hl hr, RowWise.matched, Relation.matched_places]

lemma lt_of_mem_matched {p : Nat × Nat} (hp : p ∈ matched t u keys) :
    p.1 < left.length ∧ p.2 < right.length := by
  rw [matched_eq hl hr, Grouping.mem_matched, List.mem_range, List.mem_range] at hp
  exact ⟨hp.1, hp.2.1⟩

theorem joined_toRelation :
    (joined t u keys).toRelation = RowWise.join left right keys := by
  rw [RowWise.join, ← map_matched hl hr, List.map_map]
  refine Table.toRelation_eq_map rfl fun i hi => ?_
  have hi1 : i < ((matched t u keys).map Prod.fst).length := by simpa using hi
  have hi2 : i < ((matched t u keys).map Prod.snd).length := by simpa using hi
  have hlt1 : ∀ j ∈ (matched t u keys).map Prod.fst, j < left.length := by
    intro j hj
    obtain ⟨p, hp, rfl⟩ := List.mem_map.mp hj
    exact (lt_of_mem_matched hl hr keys hp).1
  have hlt2 : ∀ j ∈ (matched t u keys).map Prod.snd, j < right.length := by
    intro j hj
    obtain ⟨p, hp, rfl⟩ := List.mem_map.mp hj
    exact (lt_of_mem_matched hl hr keys hp).2
  rw [Table.row, joined, Row.ofList_addFresh, List.map_append, hl.keyColumns keys hi1,
    hl.filter_cells_gather hlt1 hi1 fun c => !JoinKey.isLeft keys c,
    hr.filter_cells_gather hlt2 hi2 fun c => !JoinKey.isRight keys c, Row.ofList_append,
    List.getElem_map, List.getElem_map]
  rfl

lemma differs_eq {p : Nat × Nat} (hp : p ∈ matched t u keys) :
    differs t u keys p = RowWise.differs keys (left.rowAt p.1) (right.rowAt p.2) := by
  obtain ⟨h1, h2⟩ := lt_of_mem_matched hl hr keys hp
  rw [differs, RowWise.differs, List.any_map, hl.columns _ (left.rowAt_mem h1),
    hr.columns _ (right.rowAt_mem h2)]
  congr 1
  funext c
  rw [Function.comp_apply, hl.getD_values, hr.getD_values]

theorem compared_toRelation :
    (compared t u keys).toRelation = RowWise.compare left right keys := by
  let pairs := (matched t u keys).filter (differs t u keys)
  have hmem : ∀ p ∈ pairs, p ∈ matched t u keys := fun p hp => List.mem_of_mem_filter hp
  have hpairs : (RowWise.matched left right keys).filter
      (fun p => RowWise.differs keys p.1 p.2) =
        pairs.map fun p => (left.rowAt p.1, right.rowAt p.2) := by
    rw [← map_matched hl hr, List.filter_map]
    congr 1
    exact List.filter_congr fun p hp => (differs_eq hl hr keys hp).symm
  rw [RowWise.compare, hpairs, List.map_map]
  refine Table.toRelation_eq_map rfl fun i hi => ?_
  have hi1 : i < (pairs.map Prod.fst).length := by simpa using hi
  have hi2 : i < (pairs.map Prod.snd).length := by simpa using hi
  obtain ⟨h1, h2⟩ := lt_of_mem_matched hl hr keys (hmem _ (List.getElem_mem hi))
  have hcompared : ∀ c, [("left_" ++ c, (t.column c).gather (pairs.map Prod.fst)),
      ("right_" ++ c, (u.column c).gather (pairs.map Prod.snd))].map
        (fun c => (c.1, c.2.value i)) =
          [("left_" ++ c, (left.rowAt pairs[i].1).value c),
            ("right_" ++ c, (right.rowAt pairs[i].2).value c)] := by
    intro c
    rw [List.map_cons, List.map_singleton, Column.value_gather _ _ hi1,
      Column.value_gather _ _ hi2, hl.value, hr.value, List.getElem_map, List.getElem_map]
  rw [Table.row, compared, List.map_append, hl.keyColumns keys hi1, List.map_flatMap,
    Row.ofList_append, Function.comp_apply, RowWise.compareRow, hl.columns _ (left.rowAt_mem h1),
    hr.columns _ (right.rowAt_mem h2), List.getElem_map]
  congr 2
  funext c
  exact hcompared c

end Pairs

end ColumnWise

end Recombine
