import Recombine.Proofs.Columns.Keyed
import Recombine.Proofs.Columns.Union
import Recombine.Proofs.Engine.Sorting

/-! Every operator on typed columns gives what the operator on rows makes of the normal forms of
its operands, and fails exactly when an operand has a column of mixed kinds. -/

namespace Recombine

/-- The outcome is the expected one if every column of the operands has one kind, and the fault of
a mixed column of an operand otherwise. -/
structure Mirrors (rels : List Relation) (expected outcome : Except OperatorFault Relation) :
    Prop where
  typeable : (∀ rel ∈ rels, rel.Typeable) → outcome = expected
  mixed : (¬ ∀ rel ∈ rels, rel.Typeable) →
    ∃ rel ∈ rels, ∃ c, ¬ OneKind (rel.column c) ∧ outcome = .error (.mixed ⟨c⟩)

lemma mirrors_ok {rels : List Relation} {rel : Relation} (h : ∀ rel ∈ rels, rel.Typeable) :
    Mirrors rels (.ok rel) (.ok rel) :=
  ⟨fun _ => rfl, fun hno => absurd h hno⟩

lemma mirrors_error {rels : List Relation} {rel : Relation} {e : MixedColumn} (hrel : rel ∈ rels)
    (h : ¬ OneKind (rel.column e.column)) (expected : Except OperatorFault Relation) :
    Mirrors rels expected (.error (.mixed e)) :=
  ⟨fun hall => absurd (hall rel hrel e.column) h, fun _ => ⟨rel, hrel, e.column, h, rfl⟩⟩

lemma mirrors_of_table {rel out : Relation} {f : Table → Relation}
    (h : ∀ t : Table, t.Represents rel.normal → f t = out) :
    Mirrors [rel] (.ok out) (Except.mapError .mixed
      (do let t ← Table.ofRelation rel; return f t)) := by
  cases ht : Table.ofRelation rel with
  | error e => exact mirrors_error List.mem_cons_self (Table.ofRelation_eq_error ht) _
  | ok t =>
    obtain ⟨hof, htypeable⟩ := Table.ofRelation_eq_ok ht
    rw [← h t hof.represents]
    exact mirrors_ok (List.forall_mem_singleton.mpr htypeable)

lemma mirrors_of_tables {left right out : Relation} {f : Table → Table → Relation}
    (h : ∀ t u : Table, t.Represents left.normal → u.Represents right.normal → f t u = out) :
    Mirrors [left, right] (.ok out) (Except.mapError .mixed
      (do let t ← Table.ofRelation left; let u ← Table.ofRelation right; return f t u)) := by
  cases ht : Table.ofRelation left with
  | error e => exact mirrors_error List.mem_cons_self (Table.ofRelation_eq_error ht) _
  | ok t =>
    cases hu : Table.ofRelation right with
    | error e =>
      have hmem : right ∈ [left, right] := List.mem_cons_of_mem _ List.mem_cons_self
      exact mirrors_error hmem (Table.ofRelation_eq_error hu) _
    | ok u =>
      obtain ⟨hleft, hleft'⟩ := Table.ofRelation_eq_ok ht
      obtain ⟨hright, hright'⟩ := Table.ofRelation_eq_ok hu
      rw [← h t u hleft.represents hright.represents]
      apply mirrors_ok
      exact List.forall_mem_cons.mpr ⟨hleft', List.forall_mem_singleton.mpr hright'⟩

lemma mirrors_union (rels : List Relation) : Mirrors [rels.flatten]
    (.ok (Relation.normal rels.flatten)) (ColumnWise.operators.union rels) := by
  rw [ColumnWise.operators]
  dsimp only
  cases h : ColumnWise.union rels with
  | error e => exact mirrors_error List.mem_cons_self (ColumnWise.union_eq_error h) _
  | ok rel =>
    obtain ⟨rfl, htypeable⟩ := ColumnWise.union_eq_ok h
    exact mirrors_ok (List.forall_mem_singleton.mpr htypeable)

lemma transitiveOn_unify (vs : List Value) : Value.TransitiveOn (vs.map (unify vs)) := by
  apply Value.TransitiveOn.of_apart
  rintro ⟨⟨_, hfloat, hfloat'⟩, ⟨_, hlarge, hlarge'⟩⟩
  obtain ⟨v, hv, rfl⟩ := List.mem_map.mp hfloat
  obtain ⟨w, -, rfl⟩ := List.mem_map.mp hlarge
  by_cases hany : vs.any Value.isFloat = true
  · rw [unify, if_pos hany] at hlarge'
    cases w <;> cases hlarge'
  · rw [unify, if_neg hany] at hfloat'
    refine hany (List.any_eq_true.mpr ⟨v, hv, ?_⟩)
    cases v <;> first | rfl | cases hfloat'

lemma Relation.sortable_normal (rel : Relation) (orderBy : List Order) :
    rel.normal.Sortable orderBy := by
  intro o _
  have hcolumn := transitiveOn_unify (rel.column o.column)
  rwa [← rel.column_normal] at hcolumn

lemma mirrors_sort (rel : Relation) (orderBy : List Order) :
    Mirrors [rel] (RowWise.operators.sort rel.normal orderBy)
      (ColumnWise.operators.sort rel orderBy) := by
  rw [RowWise.sort_eq_ok (rel.sortable_normal orderBy)]
  exact mirrors_of_table fun t ht => ht.sort orderBy

theorem columnWise_mirrors_rowWise (left right rel : Relation) (rels : List Relation)
    (keys : List JoinKey) (filters : List Filter) (groupBy : List String) (metrics : List Metric)
    (orderBy : List Order) (count : Option Nat) (column : String) (columns : List String) :
    Mirrors [left, right] (RowWise.operators.join left.normal right.normal keys)
      (ColumnWise.operators.join left right keys) ∧
    Mirrors [left, right] (RowWise.operators.compare left.normal right.normal keys)
      (ColumnWise.operators.compare left right keys) ∧
    Mirrors [rel] (RowWise.operators.filter rel.normal filters)
      (ColumnWise.operators.filter rel filters) ∧
    Mirrors [rel] (RowWise.operators.aggregate rel.normal groupBy metrics)
      (ColumnWise.operators.aggregate rel groupBy metrics) ∧
    Mirrors [rel] (RowWise.operators.sort rel.normal orderBy)
      (ColumnWise.operators.sort rel orderBy) ∧
    Mirrors [rel] (RowWise.operators.limit rel.normal count)
      (ColumnWise.operators.limit rel count) ∧
    Mirrors [rel] (RowWise.operators.project rel.normal (column :: columns))
      (ColumnWise.operators.project rel (column :: columns)) ∧
    ColumnWise.operators.project rel [] = .ok rel ∧
    Mirrors [rels.flatten] (.ok (Relation.normal rels.flatten))
      (ColumnWise.operators.union rels) := by
  refine ⟨?join, ?compare, ?filter, ?aggregate, ?sort, ?limit, ?project, rfl, ?union⟩
  case join =>
    exact mirrors_of_tables fun t u ht hu => ColumnWise.joined_toRelation ht hu keys
  case compare =>
    exact mirrors_of_tables fun t u ht hu => ColumnWise.compared_toRelation ht hu keys
  case filter => exact mirrors_of_table fun t ht => ht.filter filters
  case aggregate => exact mirrors_of_table fun t ht => ht.aggregate groupBy metrics
  case sort => exact mirrors_sort rel orderBy
  case limit => exact mirrors_of_table fun t ht => ht.limit count
  case project => exact mirrors_of_table fun t ht => ht.project rfl
  case union => exact mirrors_union rels

end Recombine
