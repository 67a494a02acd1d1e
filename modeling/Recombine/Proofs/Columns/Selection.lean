import Recombine.Engine.Basic
import Recombine.Proofs.Columns.Normal

namespace Recombine

lemma beq_eq_compare {α : Type} [BEq α] [LawfulBEq α] [Ord α] [Std.LawfulEqOrd α] (a b : α) :
    (a == b) = (some (compare a b) == some .eq) := by
  by_cases h : a = b <;> simp [h]

namespace Number

lemma compare?_eq_eq_iff (x y : Float) : (compare? x y == some .eq) = (x == y) := by
  unfold compare?
  split
  next h => rw [h]; rfl
  next h =>
    rw [Bool.not_eq_true] at h
    rw [h]
    split
    · rfl
    · split <;> rfl

end Number

lemma Test.holds_eq_verdict {test : Test} {verdict : Option Ordering → Bool}
    (h : test.verdict? = some verdict) {v x : Value}
    (heq : v.looseEq x = (v.compare? x == some .eq)) :
    test.holds (.scalar x) v = verdict (v.compare? x) := by
  cases test with
  | eq =>
    cases h
    exact heq
  | ne =>
    cases h
    exact congrArg not heq
  | gt | ge | lt | le =>
    cases h
    rfl
  | between | oneOf | contains | unknown => cases h

lemma ColumnType.comparison?_eq_some {t : ColumnType} {operand : Operand}
    {comparison : t.Cell → Option Ordering} (h : t.comparison? operand = some comparison) :
    ∃ x, operand = .scalar x ∧ ∀ cell, (t.value cell).compare? x = comparison cell ∧
      (t.value cell).looseEq x = ((t.value cell).compare? x == some .eq) := by
  unfold ColumnType.comparison? at h
  split at h
  next j =>
    cases h
    exact ⟨.int j, rfl, fun (i : Int64) => ⟨rfl, beq_eq_compare i j⟩⟩
  next v =>
    obtain ⟨y, hy, rfl⟩ := Option.map_eq_some_iff.mp h
    refine ⟨v, rfl, fun x => ?_⟩
    cases v with
    | int j =>
      cases hy
      exact ⟨rfl, (Number.compare?_eq_eq_iff _ _).symm⟩
    | float z =>
      cases hy
      exact ⟨rfl, (Number.compare?_eq_eq_iff _ _).symm⟩
    | null | bool | text => cases hy
  next u =>
    cases h
    exact ⟨.text u, rfl, fun (s : String) => ⟨rfl, beq_eq_compare s u⟩⟩
  next => cases h

namespace Column

lemma mask_eq (c : Column) (f : Filter) : c.mask f = c.values.map f.accepts := by
  unfold mask
  split
  next verdict comparison hv hc =>
    obtain ⟨x, hx, hcells⟩ := ColumnType.comparison?_eq_some hc
    rw [values, List.map_map]
    refine List.map_congr_left fun cell _ => ?_
    cases cell with
    | none => rfl
    | some y =>
      obtain ⟨hcmp, heq⟩ := hcells y
      change verdict (comparison y) = f.test.holds f.operand (c.type.value y)
      rw [hx, Test.holds_eq_verdict hv heq, hcmp]
  next => rfl

lemma values_keep (c : Column) (mask : List Bool) :
    (c.keep mask).values = ((c.values.zip mask).filter Prod.snd).map Prod.fst := by
  rw [values, values, keep, List.zip_map_left, List.filter_map, List.map_map, List.map_map]
  rfl

lemma values_gather (c : Column) (places : List Nat) :
    (c.gather places).values = places.map c.value := by
  rw [values, gather, List.map_map]
  rfl

lemma values_take (c : Column) (n : Nat) : (c.take n).values = c.values.take n := by
  rw [values, take, List.map_take, values]

lemma value_gather (c : Column) (places : List Nat) {k : Nat} (hk : k < places.length) :
    (c.gather places).value k = c.value places[k] := by
  rw [value_eq, values_gather, List.getD_eq_getElem _ _ (by simpa using hk), List.getElem_map]

end Column

namespace Table.Represents

variable {t : Table} {rel : Relation} (h : t.Represents rel)

include h

lemma value_of_mem {c : String × Column} (hc : c ∈ t.columns) (i : Nat) :
    c.2.value i = (rel.rowAt i).value c.1 := by
  rw [← column_of_mem h.distinct hc, h.value]

lemma keep (p : Row → Bool) : (t.keep (rel.map p)).Represents (rel.filter p) where
  rowCount := by
    change (rel.map p).count true = _
    rw [List.count_eq_countP, List.countP_map, List.countP_eq_length_filter]
    congr 2
    funext r
    exact beq_true (p r)
  distinct := by
    rw [Table.keep, names, List.map_map]
    exact h.distinct
  columns r hr := by
    rw [Table.keep, names, List.map_map]
    exact h.columns r (List.mem_of_mem_filter hr)
  cells c hc := by
    obtain ⟨d, hd, rfl⟩ := List.mem_map.mp hc
    rw [Column.values_keep, h.cells d hd]
    exact Sequence.map_fst_filter_zip_map _ p rel

lemma gather {places : List Nat} (hp : ∀ i ∈ places, i < rel.length) :
    (t.gather places).Represents (places.map rel.rowAt) where
  rowCount := (List.length_map _).symm
  distinct := by
    rw [Table.gather, names, List.map_map]
    exact h.distinct
  columns r hr := by
    obtain ⟨i, hi, rfl⟩ := List.mem_map.mp hr
    rw [Table.gather, names, List.map_map]
    exact h.columns _ (rel.rowAt_mem (hp i hi))
  cells c hc := by
    obtain ⟨d, hd, rfl⟩ := List.mem_map.mp hc
    rw [Column.values_gather, Relation.column, List.map_map]
    exact List.map_congr_left fun i _ => h.value_of_mem hd i

lemma take (n : Nat) : (t.take n).Represents (rel.take n) where
  rowCount := by
    rw [List.length_take, ← h.rowCount]
    rfl
  distinct := by
    rw [Table.take, names, List.map_map]
    exact h.distinct
  columns r hr := by
    rw [Table.take, names, List.map_map]
    exact h.columns r (List.mem_of_mem_take hr)
  cells c hc := by
    obtain ⟨d, hd, rfl⟩ := List.mem_map.mp hc
    rw [Column.values_take, h.cells d hd, Relation.column, Relation.column, List.map_take]

lemma masks (filters : List Filter) (p : Row → Bool) :
    filters.foldl (fun mask f => mask.zipWith (· && ·) ((t.column f.column).mask f)) (rel.map p) =
      rel.map fun r => p r && filters.all fun f => f.acceptsRow r := by
  induction filters generalizing p with
  | nil => simp
  | cons f filters ih =>
    have hf : (t.column f.column).mask f = rel.map f.acceptsRow := by
      rw [Column.mask_eq, ← Table.values, h.values, Relation.column, List.map_map]
      rfl
    rw [List.foldl_cons, hf, List.zipWith_map, List.zipWith_self, ih]
    simp only [List.all_cons, Bool.and_assoc]

theorem filter (filters : List Filter) :
    (t.keep (filters.foldl
      (fun mask f => mask.zipWith (· && ·) ((t.column f.column).mask f))
      (List.replicate t.rowCount true))).toRelation = RowWise.filter rel filters := by
  have hstart : List.replicate t.rowCount true = rel.map fun _ => true := by
    rw [List.map_const', h.rowCount]
  rw [hstart, h.masks, (h.keep _).toRelation]
  simp only [Bool.true_and, RowWise.filter]

lemma sortPlaces (o : Order) (places : List Nat) :
    (ColumnWise.sortPlaces t o places).map rel.rowAt =
      RowWise.sortBy o (places.map rel.rowAt) := by
  refine List.map_mergeSort fun i _ j _ => ?_
  have hv : ∀ i, (t.values o.column).getD i .null = (rel.rowAt i).value o.column := by
    intro i
    rw [← h.value, Column.value_eq, Table.values]
  rw [hv, hv]

theorem sort (orderBy : List Order) :
    (t.gather (orderBy.foldr (ColumnWise.sortPlaces t) (List.range t.rowCount))).toRelation =
      RowWise.sort rel orderBy := by
  have hplaces : ∀ i ∈ orderBy.foldr (ColumnWise.sortPlaces t) (List.range t.rowCount),
      i < rel.length := by
    induction orderBy with
    | nil => simp [h.rowCount]
    | cons o orderBy ih =>
      intro i hi
      exact ih i (List.mem_mergeSort.mp hi)
  rw [(h.gather hplaces).toRelation, RowWise.sort]
  clear hplaces
  induction orderBy with
  | nil => rw [List.foldr_nil, List.foldr_nil, h.rowCount, rel.map_rowAt_range]
  | cons o orderBy ih => rw [List.foldr_cons, List.foldr_cons, h.sortPlaces, ih]

theorem limit (count : Option Nat) :
    (t.take (count.getD t.rowCount)).toRelation = RowWise.limit rel count := by
  rw [(h.take _).toRelation]
  cases count with
  | none => rw [Option.getD_none, h.rowCount, List.take_length, RowWise.limit]
  | some n => rfl

theorem project {columns : List String} (hne : columns.isEmpty = false) :
    (⟨t.rowCount, columns.map fun c => (c, t.column c)⟩ : Table).toRelation =
      RowWise.project rel columns := by
  have hrows : RowWise.project rel columns =
      rel.map fun r => Row.ofList (columns.map fun c => (c, r.value c)) := by
    rw [RowWise.project, hne]
    rfl
  rw [hrows]
  refine toRelation_eq_map h.rowCount fun i hi => ?_
  rw [Table.row, List.map_map, ← Relation.rowAt_eq_getElem hi]
  congr 1
  exact List.map_congr_left fun c _ => by rw [Function.comp_apply, h.value]

end Table.Represents

end Recombine
