import Recombine.Proofs.Columns.Simulation

namespace Recombine

open ColumnType

namespace Relation

structure Uniform (rel : Relation) : Prop where
  columns : ∀ r ∈ rel, ∀ s ∈ rel, r.columns = s.columns
  types : ∀ r ∈ rel, ∀ s ∈ rel, ∀ c ∈ r.columns,
    r.value c = .null ∨ s.value c = .null ∨ ofValue (r.value c) = ofValue (s.value c)

lemma uniform_iff {rel : Relation} : rel.Uniform ↔
    (∀ r ∈ rel, ∀ s ∈ rel, r.columns = s.columns) ∧
      ∀ r ∈ rel, ∀ s ∈ rel, ∀ c ∈ r.columns,
        r.value c = .null ∨ s.value c = .null ∨ ofValue (r.value c) = ofValue (s.value c) :=
  ⟨fun h => ⟨h.columns, h.types⟩, fun h => ⟨h.1, h.2⟩⟩

instance (rel : Relation) : Decidable rel.Uniform := decidable_of_iff' _ uniform_iff

lemma namesOf_eq_of_columns_eq {rel : Relation} {names : List String} (hnames : names.Nodup)
    (hne : rel ≠ []) (h : ∀ r ∈ rel, r.columns = names) : Table.namesOf rel = names := by
  cases rel with
  | nil => exact absurd rfl hne
  | cons r rel =>
    obtain ⟨hr, hrel⟩ := List.forall_mem_cons.mp h
    have hrest : ∀ c ∈ Table.namesOf rel, c ∈ names := by
      intro c hc
      obtain ⟨s, hs, hmem⟩ := mem_namesOf.mp hc
      exact hrel s hs ▸ hmem
    have hnew : (Table.namesOf rel).filter (fun c => !names.contains c) = [] := by
      refine List.filter_eq_nil_iff.mpr fun c hc => ?_
      simpa using hrest c hc
    have hsplit : Table.namesOf (r :: rel) =
        r.columns.eraseDups ++ (Table.namesOf rel).filter fun c => !r.columns.contains c := by
      rw [Table.namesOf, List.flatMap_cons, Sequence.eraseDups_append_eq]
      rfl
    rw [hsplit, hr, Sequence.eraseDups_eq_self hnames, hnew, List.append_nil]

lemma ofValue_unify_of_same {vs : List Value} {v : Value}
    (h : ∀ w ∈ vs, v = .null ∨ w = .null ∨ ofValue v = ofValue w) : unify vs v = v := by
  rw [unify]
  split
  next hfloat =>
    obtain ⟨w, hw, hw'⟩ := List.any_eq_true.mp hfloat
    have htype := ofValue_eq_float_iff.mpr hw'
    rcases h w hw with rfl | rfl | heq
    · rfl
    · cases hw'
    · rw [htype, ofValue_eq_float_iff] at heq
      cases v <;> first | rfl | cases heq
  next => rfl

namespace Uniform

variable {rel : Relation} (h : rel.Uniform)

include h

lemma namesOf_eq {r : Row} (hr : r ∈ rel) : Table.namesOf rel = r.columns :=
  namesOf_eq_of_columns_eq r.distinct (List.ne_nil_of_mem hr) fun s hs => h.columns s hs r hr

lemma types_of_mem_column {c : String} {v w : Value} (hv : v ∈ rel.column c)
    (hw : w ∈ rel.column c) : v = .null ∨ w = .null ∨ ofValue v = ofValue w := by
  obtain ⟨r, hr, rfl⟩ := List.mem_map.mp hv
  obtain ⟨s, hs, rfl⟩ := List.mem_map.mp hw
  by_cases hc : c ∈ r.columns
  · exact h.types r hr s hs c hc
  · exact Or.inl (Row.value_of_not_mem hc)

lemma typeable : rel.Typeable := by
  intro c
  refine oneKind_iff.mpr fun v hv w hw => ?_
  refine (h.types_of_mem_column hv hw).imp_right (Or.imp_right fun htype => ?_)
  rw [← kindRank_ofValue, htype, kindRank_ofValue]

lemma normalRow_eq {r : Row} (hr : r ∈ rel) : rel.normalRow r = r := by
  apply Row.ext
  rw [cells_normalRow, h.namesOf_eq hr, Row.cells_eq r]
  refine List.map_congr_left fun c _ => ?_
  rw [ofValue_unify_of_same fun w hw => h.types_of_mem_column (List.mem_map_of_mem hr) hw]

lemma normal_eq : rel.normal = rel := by
  have hrows : ∀ r ∈ rel, rel.normalRow r = id r := fun r hr => h.normalRow_eq hr
  rw [normal, List.map_congr_left hrows, List.map_id]

end Uniform

end Relation

namespace Operators

/-- The operators on the normal forms of their operands. All columns are kept as they are. -/
def normalized (ops : Operators) : Operators where
  union rels := ops.union [Relation.normal rels.flatten]
  join left right keys := ops.join left.normal right.normal keys
  compare left right keys := ops.compare left.normal right.normal keys
  filter rel filters := ops.filter rel.normal filters
  aggregate rel groupBy metrics := ops.aggregate rel.normal groupBy metrics
  project rel columns := ops.project (if columns.isEmpty then rel else rel.normal) columns
  sort rel orderBy := ops.sort rel.normal orderBy
  limit rel count := ops.limit rel.normal count

structure AgreeOn (P : Relation → Prop) (ops ops' : Operators) : Prop where
  union : ∀ rels, P rels.flatten → ops.union rels = ops'.union rels
  join : ∀ left right keys, P left → P right → ops.join left right keys = ops'.join left right keys
  compare : ∀ left right keys, P left → P right →
    ops.compare left right keys = ops'.compare left right keys
  filter : ∀ rel filters, P rel → ops.filter rel filters = ops'.filter rel filters
  aggregate : ∀ rel groupBy metrics, P rel →
    ops.aggregate rel groupBy metrics = ops'.aggregate rel groupBy metrics
  project : ∀ rel columns, P rel → ops.project rel columns = ops'.project rel columns
  sort : ∀ rel orderBy, P rel → ops.sort rel orderBy = ops'.sort rel orderBy
  limit : ∀ rel count, P rel → ops.limit rel count = ops'.limit rel count

end Operators

lemma Mirrors.eq_of_typeable {rel : Relation} {expected outcome : Except OperatorFault Relation}
    (hm : Mirrors [rel] expected outcome) (h : rel.Typeable) : outcome = expected :=
  hm.typeable (List.forall_mem_singleton.mpr h)

lemma Mirrors.eq_of_typeable_two {left right : Relation}
    {expected outcome : Except OperatorFault Relation} (hm : Mirrors [left, right] expected outcome)
    (hl : left.Typeable) (hr : right.Typeable) : outcome = expected :=
  hm.typeable (List.forall_mem_cons.mpr ⟨hl, List.forall_mem_singleton.mpr hr⟩)

lemma operators_agreeOn_typeable :
    Operators.AgreeOn Relation.Typeable ColumnWise.operators RowWise.operators.normalized where
  union rels h := by
    have hunion := (mirrors_union rels).eq_of_typeable h
    rw [← List.append_nil (Relation.normal rels.flatten)] at hunion
    exact hunion
  join left right keys hl hr := (mirrors_of_tables fun t u ht hu =>
    ColumnWise.joined_toRelation ht hu keys).eq_of_typeable_two hl hr
  compare left right keys hl hr := (mirrors_of_tables fun t u ht hu =>
    ColumnWise.compared_toRelation ht hu keys).eq_of_typeable_two hl hr
  filter rel filters h := (mirrors_of_table fun t ht => ht.filter filters).eq_of_typeable h
  aggregate rel groupBy metrics h :=
    (mirrors_of_table fun t ht => ht.aggregate groupBy metrics).eq_of_typeable h
  project rel columns h := by
    cases columns with
    | nil => rfl
    | cons c cs =>
      have hne : (c :: cs).isEmpty = false := rfl
      exact (mirrors_of_table fun t ht => ht.project hne).eq_of_typeable h
  sort rel orderBy h := (mirrors_sort rel orderBy).eq_of_typeable h
  limit rel count h := (mirrors_of_table fun t ht => ht.limit count).eq_of_typeable h

lemma operators_agreeOn_uniform :
    Operators.AgreeOn Relation.Uniform ColumnWise.operators RowWise.operators where
  union rels h := by
    rw [operators_agreeOn_typeable.union rels h.typeable]
    simp only [Operators.normalized, h.normal_eq]
    exact congrArg Except.ok (List.append_nil rels.flatten)
  join left right keys hl hr := by
    rw [operators_agreeOn_typeable.join left right keys hl.typeable hr.typeable]
    simp only [Operators.normalized, hl.normal_eq, hr.normal_eq]
  compare left right keys hl hr := by
    rw [operators_agreeOn_typeable.compare left right keys hl.typeable hr.typeable]
    simp only [Operators.normalized, hl.normal_eq, hr.normal_eq]
  filter rel filters h := by
    rw [operators_agreeOn_typeable.filter rel filters h.typeable]
    simp only [Operators.normalized, h.normal_eq]
  aggregate rel groupBy metrics h := by
    rw [operators_agreeOn_typeable.aggregate rel groupBy metrics h.typeable]
    simp only [Operators.normalized, h.normal_eq]
  project rel columns h := by
    rw [operators_agreeOn_typeable.project rel columns h.typeable]
    simp only [Operators.normalized, h.normal_eq, ite_self]
  sort rel orderBy h := by
    rw [operators_agreeOn_typeable.sort rel orderBy h.typeable]
    simp only [Operators.normalized, h.normal_eq]
  limit rel count h := by
    rw [operators_agreeOn_typeable.limit rel count h.typeable]
    simp only [Operators.normalized, h.normal_eq]

end Recombine
