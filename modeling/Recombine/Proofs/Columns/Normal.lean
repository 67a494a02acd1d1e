import Mathlib.Data.List.GetD
import Recombine.Proofs.Attempts
import Recombine.Proofs.Columns.Types
import Recombine.Proofs.Rows
import Recombine.Proofs.Sequences

/-! Relations in normal form, with all columns in every row and one type in every column, and the
tables that represent them. -/

namespace Recombine

open ColumnType

namespace Column

variable {name : String} {vs : List Value}

lemma widen_eq_ok {s t u : ColumnType} (h : widen name s t = .ok u) : s.join? t = some u := by
  unfold widen at h
  split at h
  next hj => rw [hj, Except.ok.inj h]
  next => cases h

lemma widen_eq_error {s t : ColumnType} {e : MixedColumn} (h : widen name s t = .error e) :
    e = ⟨name⟩ ∧ s.join? t = none := by
  unfold widen at h
  split at h
  next => cases h
  next hj => exact ⟨(Except.error.inj h).symm, hj⟩

lemma foldlM_widen_eq_ok {s u : ColumnType}
    (h : vs.foldlM (fun t v => widen name t (ofValue v)) s = .ok u) (w : ColumnType) :
    u ≤ w ↔ s ≤ w ∧ ∀ v ∈ vs, ofValue v ≤ w := by
  induction vs generalizing s with
  | nil => simp [(Attempt.pure_eq_ok.mp h)]
  | cons v vs ih =>
    rw [List.foldlM_cons, Attempt.bind_eq_ok] at h
    obtain ⟨t, ht, h⟩ := h
    rw [ih h, join?_eq_some (widen_eq_ok ht), List.forall_mem_cons, and_assoc]

lemma foldlM_widen_eq_error {s : ColumnType} {e : MixedColumn}
    (h : vs.foldlM (fun t v => widen name t (ofValue v)) s = .error e) :
    e = ⟨name⟩ ∧ ∀ w, ¬ (s ≤ w ∧ ∀ v ∈ vs, ofValue v ≤ w) := by
  induction vs generalizing s with
  | nil => cases h
  | cons v vs ih =>
    rw [List.foldlM_cons, Attempt.bind_eq_error] at h
    rcases h with h | ⟨t, ht, h⟩
    · obtain ⟨he, hnone⟩ := widen_eq_error h
      refine ⟨he, fun w hw => join?_eq_none hnone w ⟨hw.1, hw.2 v List.mem_cons_self⟩⟩
    · obtain ⟨he, hno⟩ := ih h
      refine ⟨he, fun w hw => hno w ?_⟩
      rw [join?_eq_some (widen_eq_ok ht), and_assoc]
      exact ⟨hw.1, List.forall_mem_cons.mp hw.2⟩

lemma ofValues_eq_ok {c : Column} (h : ofValues name vs = .ok c) :
    IsLUB (typesOf vs) c.type ∧ c.values = vs.map (unify vs) := by
  obtain ⟨t, ht, hc⟩ := Attempt.bind_eq_ok.mp h
  obtain rfl := Attempt.pure_eq_ok.mp hc
  have hle := foldlM_widen_eq_ok ht
  have hlub : IsLUB (typesOf vs) t := by
    refine isLUB_iff_le_iff.mpr fun w => (hle w).trans ?_
    rw [mem_upperBounds_typesOf]
    exact and_iff_right (Or.inl rfl)
  refine ⟨hlub, ?_⟩
  rw [values, List.map_map]
  refine List.map_congr_left fun v hv => ?_
  have hv' := mem_upperBounds_typesOf.mp hlub.1 v hv
  simp only [Function.comp_apply, cellValue_cell? hv', unify, isLUB_eq_float_iff hlub]

lemma ofValues_eq_error {e : MixedColumn} (h : ofValues name vs = .error e) :
    e = ⟨name⟩ ∧ ¬ OneKind vs := by
  rcases Attempt.bind_eq_error.mp h with h | ⟨t, -, h⟩
  · obtain ⟨he, hno⟩ := foldlM_widen_eq_error h
    refine ⟨he, fun hone => ?_⟩
    obtain ⟨w, hw⟩ := (bddAbove_typesOf_iff vs).mpr hone
    exact hno w ⟨Or.inl rfl, mem_upperBounds_typesOf.mp hw⟩
  · cases h

lemma value_eq (c : Column) (i : Nat) : c.value i = c.values.getD i .null := by
  rw [value, values, List.getD_eq_getElem?_getD, List.getElem?_map]
  cases c.cells[i]? <;> rfl

lemma values_blank (n : Nat) : (blank n).values = List.replicate n .null :=
  List.map_replicate

end Column

namespace Relation

def column (rel : Relation) (c : String) : List Value := rel.map fun r => r.value c

lemma column_append (rel rel' : Relation) (c : String) :
    column (rel ++ rel') c = rel.column c ++ rel'.column c := List.map_append

def rowAt (rel : Relation) (i : Nat) : Row := rel.getD i ∅

lemma rowAt_eq_getElem {rel : Relation} {i : Nat} (h : i < rel.length) : rel.rowAt i = rel[i] :=
  List.getD_eq_getElem _ _ h

lemma rowAt_mem {rel : Relation} {i : Nat} (h : i < rel.length) : rel.rowAt i ∈ rel := by
  rw [rowAt_eq_getElem h]
  exact List.getElem_mem h

lemma map_rowAt_range (rel : Relation) : (List.range rel.length).map rel.rowAt = rel := by
  refine List.ext_getElem (by simp) fun i hi hi' => ?_
  rw [List.getElem_map, List.getElem_range, rowAt_eq_getElem hi']

def Typeable (rel : Relation) : Prop := ∀ c, OneKind (rel.column c)

def normalRow (rel : Relation) (r : Row) : Row :=
  Row.ofList ((Table.namesOf rel).map fun c => (c, unify (rel.column c) (r.value c)))

/-- All columns in every row, and only floats in a column of numbers with a float in it. -/
def normal (rel : Relation) : Relation := rel.map rel.normalRow

lemma mem_namesOf {rel : Relation} {c : String} :
    c ∈ Table.namesOf rel ↔ ∃ r ∈ rel, c ∈ r.columns := by
  rw [Table.namesOf, List.mem_eraseDups, List.mem_flatMap]

lemma value_of_not_mem_namesOf {rel : Relation} {c : String} (hc : c ∉ Table.namesOf rel) {r : Row}
    (hr : r ∈ rel) : r.value c = .null :=
  Row.value_of_not_mem fun h => hc (mem_namesOf.mpr ⟨r, hr, h⟩)

lemma oneKind_of_not_mem_namesOf {rel : Relation} {c : String} (hc : c ∉ Table.namesOf rel) :
    OneKind (rel.column c) := by
  refine ⟨0, fun v hv => Or.inl ?_⟩
  obtain ⟨r, hr, rfl⟩ := List.mem_map.mp hv
  exact value_of_not_mem_namesOf hc hr

lemma namesOf_nodup (rel : Relation) : (Table.namesOf rel).Nodup :=
  Sequence.eraseDups_nodup _

lemma cells_normalRow (rel : Relation) (r : Row) : (rel.normalRow r).cells =
    (Table.namesOf rel).map fun c => (c, unify (rel.column c) (r.value c)) := by
  refine Row.cells_ofList ?_
  rw [columnsOf, List.map_map]
  exact (List.map_id' (Table.namesOf rel)).symm ▸ namesOf_nodup rel

lemma columns_normalRow (rel : Relation) (r : Row) :
    (rel.normalRow r).columns = Table.namesOf rel := by
  rw [Row.columns, columnsOf, cells_normalRow, List.map_map]
  exact List.map_id' (Table.namesOf rel)

lemma value_normalRow {rel : Relation} {r : Row} (hr : r ∈ rel) (c : String) :
    (rel.normalRow r).value c = unify (rel.column c) (r.value c) := by
  refine (Row.value_insertAll_map ∅ (Table.namesOf rel) _ c).trans ?_
  split
  next => rfl
  next hc =>
    rw [value_of_not_mem_namesOf hc hr, unify_null, Row.value_empty]

lemma column_normal (rel : Relation) (c : String) :
    rel.normal.column c = (rel.column c).map (unify (rel.column c)) := by
  calc (rel.map rel.normalRow).map (fun r => r.value c)
      = rel.map fun r => (rel.normalRow r).value c := List.map_map
    _ = rel.map fun r => unify (rel.column c) (r.value c) :=
        List.map_congr_left fun r hr => value_normalRow hr c
    _ = (rel.map fun r => r.value c).map (unify (rel.column c)) := by
        rw [List.map_map]
        rfl

end Relation

namespace Table

/-- A table with the columns of all rows, and in each of them the cells of the rows in turn. -/
structure Represents (t : Table) (rel : Relation) : Prop where
  rowCount : t.rowCount = rel.length
  distinct : t.names.Nodup
  columns : ∀ r ∈ rel, r.columns = t.names
  cells : ∀ c ∈ t.columns, c.2.values = rel.column c.1

lemma column_of_mem {t : Table} (hd : t.names.Nodup) {c : String × Column} (hc : c ∈ t.columns) :
    t.column c.1 = c.2 := by
  rw [column, Sequence.lookup_of_nodup hd hc, Option.getD_some]

lemma column_of_not_mem {t : Table} {name : String} (h : name ∉ t.names) :
    t.column name = .blank t.rowCount := by
  have hnone : t.columns.lookup name = none := by
    refine List.lookup_eq_none_iff.mpr fun c hc => ?_
    have hne : name ≠ c.1 := fun heq => h (heq ▸ List.mem_map_of_mem hc)
    simpa using hne
  rw [column, hnone, Option.getD_none]

lemma toRelation_eq_map {α : Type} {t : Table} {as : List α} {f : α → Row}
    (hcount : t.rowCount = as.length) (hrow : ∀ (i : Nat) (hi : i < as.length), t.row i = f as[i]) :
    t.toRelation = as.map f := by
  rw [toRelation, hcount]
  refine List.ext_getElem (by simp) fun i hi hi' => ?_
  rw [List.getElem_map, List.getElem_map, List.getElem_range]
  exact hrow i (by simpa using hi')

namespace Represents

variable {t : Table} {rel : Relation} (h : t.Represents rel)

include h

lemma values (name : String) : t.values name = rel.column name := by
  by_cases hn : name ∈ t.names
  · obtain ⟨c, hc, rfl⟩ := List.mem_map.mp hn
    rw [Table.values, column_of_mem h.distinct hc, h.cells c hc]
  · rw [Table.values, column_of_not_mem hn, Column.values_blank, h.rowCount, Relation.column,
      List.eq_replicate_iff.mpr ⟨List.length_map _, ?_⟩]
    intro v hv
    obtain ⟨r, hr, rfl⟩ := List.mem_map.mp hv
    exact Row.value_of_not_mem (h.columns r hr ▸ hn)

lemma value (name : String) (i : Nat) : (t.column name).value i = (rel.rowAt i).value name := by
  rw [Column.value_eq, ← Table.values, h.values, Relation.column, Relation.rowAt,
    List.getD_eq_getElem?_getD, List.getD_eq_getElem?_getD, List.getElem?_map]
  cases rel[i]? <;> rfl

lemma cells_row {i : Nat} (hi : i < rel.length) :
    t.columns.map (fun c => (c.1, c.2.value i)) = (rel.rowAt i).cells := by
  rw [Row.cells_eq (rel.rowAt i), h.columns _ (rel.rowAt_mem hi), names, List.map_map]
  refine List.map_congr_left fun c hc => ?_
  rw [Function.comp_apply, ← h.value, column_of_mem h.distinct hc]

lemma row {i : Nat} (hi : i < rel.length) : t.row i = rel.rowAt i := by
  apply Row.ext
  rw [Table.row, h.cells_row hi]
  exact Row.cells_ofList (rel.rowAt i).distinct

lemma toRelation : t.toRelation = rel := by
  have hid := toRelation_eq_map (f := id) h.rowCount fun i hi =>
    (h.row hi).trans (Relation.rowAt_eq_getElem hi)
  rwa [List.map_id] at hid

end Represents

structure IsOf (t : Table) (rel : Relation) : Prop where
  represents : t.Represents rel.normal
  names : t.names = namesOf rel
  types : ∀ c ∈ t.columns, IsLUB (typesOf (rel.column c.1)) c.2.type

lemma columns_eq_ok {rel : Relation} {names : List String} {columns : List (String × Column)}
    (h : names.mapM (fun name => (name, ·) <$> Column.ofValues name (rel.column name)) =
      .ok columns) :
    columns.map Prod.fst = names ∧
      ∀ c ∈ columns, Column.ofValues c.1 (rel.column c.1) = .ok c.2 := by
  have hmade := Attempt.mapM_eq_ok.mp h
  clear h
  induction hmade with
  | nil => simp
  | cons hc _ ih =>
    obtain ⟨column, hcolumn, rfl⟩ := Attempt.map_eq_ok.mp hc
    obtain ⟨hnames, hcells⟩ := ih
    exact ⟨by rw [List.map_cons, hnames], List.forall_mem_cons.mpr ⟨hcolumn, hcells⟩⟩

lemma ofRelation_eq_ok {rel : Relation} {t : Table} (h : ofRelation rel = .ok t) :
    t.IsOf rel ∧ rel.Typeable := by
  obtain ⟨columns, hcolumns, ht⟩ := Attempt.bind_eq_ok.mp h
  obtain rfl := Attempt.pure_eq_ok.mp ht
  obtain ⟨hnames, hcells⟩ := columns_eq_ok hcolumns
  refine ⟨⟨⟨?_, ?_, ?_, ?_⟩, hnames, ?_⟩, ?_⟩
  · exact (List.length_map _).symm
  · rw [Table.names, hnames]
    exact rel.namesOf_nodup
  · intro r hr
    obtain ⟨r', -, rfl⟩ := List.mem_map.mp hr
    exact (rel.columns_normalRow r').trans hnames.symm
  · intro c hc
    rw [(Column.ofValues_eq_ok (hcells c hc)).2, Relation.column_normal]
  · intro c hc
    exact (Column.ofValues_eq_ok (hcells c hc)).1
  · intro name
    by_cases hname : name ∈ namesOf rel
    · obtain ⟨c, hc, rfl⟩ := List.mem_map.mp (hnames ▸ hname)
      exact (bddAbove_typesOf_iff _).mp (Column.ofValues_eq_ok (hcells c hc)).1.bddAbove
    · exact Relation.oneKind_of_not_mem_namesOf hname

lemma ofRelation_eq_error {rel : Relation} {e : MixedColumn} (h : ofRelation rel = .error e) :
    ¬ OneKind (rel.column e.column) := by
  rcases Attempt.bind_eq_error.mp h with h | ⟨columns, -, h⟩
  · obtain ⟨name, -, hname⟩ := Attempt.mapM_eq_error h
    obtain ⟨rfl, hmixed⟩ := Column.ofValues_eq_error (Attempt.map_eq_error.mp hname)
    exact hmixed
  · cases h

end Table

end Recombine
