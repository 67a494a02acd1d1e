import Recombine.Proofs.Columns.Selection

namespace Recombine

open ColumnType

lemma cellValue_unify {vs all : List Value} {t : ColumnType} (ht : IsLUB (typesOf all) t)
    (hsub : ∀ v ∈ vs, v ∈ all) {v : Value} (hv : v ∈ vs) :
    Column.cellValue (t.cell? (unify vs v)) = unify all v := by
  have hfloat := isLUB_eq_float_iff ht
  have hle := mem_upperBounds_typesOf.mp ht.1 v (hsub v hv)
  by_cases hall : all.any Value.isFloat = true
  · obtain rfl := hfloat.mpr hall
    have hle' : ofValue (unify vs v) ≤ float := by
      unfold unify
      split
      · exact ofValue_asFloat_le hle
      · exact hle
    rw [cellValue_cell? hle', if_pos rfl, unify, unify, if_pos hall]
    split
    · exact v.asFloat_asFloat
    · rfl
  · have hvs : ¬ vs.any Value.isFloat = true := by
      intro hany
      obtain ⟨x, hx, hxf⟩ := List.any_eq_true.mp hany
      exact hall (List.any_eq_true.mpr ⟨x, hsub x hx, hxf⟩)
    rw [unify, if_neg hvs, cellValue_cell? hle, if_neg (fun heq => hall (hfloat.mp heq)), unify,
      if_neg hall]

namespace ColumnWise

variable {schema schema' : List (String × ColumnType)} {cs : List (String × Column)}
  {name : String} {t : ColumnType}

lemma widenSchema_names (h : widenSchema name t schema = .ok schema') : schema'.map Prod.fst =
      schema.map Prod.fst ++ [name].filter fun n => !(schema.map Prod.fst).contains n := by
  induction schema generalizing schema' with
  | nil =>
    cases h
    rfl
  | cons s schema ih =>
    rw [widenSchema] at h
    split at h
    next heq =>
      obtain ⟨u, -, rfl⟩ := Attempt.map_eq_ok.mp h
      simp [heq]
    next hne =>
      obtain ⟨rest, hrest, rfl⟩ := Attempt.map_eq_ok.mp h
      have hne' : (name == s.1) = false := by simpa using Ne.symm hne
      rw [List.map_cons, ih hrest, List.map_cons, List.cons_append]
      by_cases hmem : name ∈ schema.map Prod.fst <;> simp [hne', hmem]

lemma widenSchema_le_iff (h : widenSchema name t schema = .ok schema') (n : String)
    (w : ColumnType) : (∀ s ∈ schema', s.1 = n → s.2 ≤ w) ↔
      (∀ s ∈ schema, s.1 = n → s.2 ≤ w) ∧ (name = n → t ≤ w) := by
  induction schema generalizing schema' with
  | nil =>
    cases h
    simp
  | cons s schema ih =>
    rw [widenSchema] at h
    split at h
    next heq =>
      obtain ⟨u, hu, rfl⟩ := Attempt.map_eq_ok.mp h
      have hle := join?_eq_some (Column.widen_eq_ok hu) w
      simp only [List.forall_mem_cons, hle, ← heq, imp_and]
      tauto
    next =>
      obtain ⟨rest, hrest, rfl⟩ := Attempt.map_eq_ok.mp h
      rw [List.forall_mem_cons, List.forall_mem_cons, ih hrest, and_assoc]

lemma widenSchema_eq_error {e : MixedColumn} (h : widenSchema name t schema = .error e) :
    e = ⟨name⟩ ∧ ∀ w, ¬ ((∀ s ∈ schema, s.1 = name → s.2 ≤ w) ∧ t ≤ w) := by
  induction schema with
  | nil => cases h
  | cons s schema ih =>
    rw [widenSchema] at h
    split at h
    next heq =>
      obtain ⟨rfl, hnone⟩ := Column.widen_eq_error (Attempt.map_eq_error.mp h)
      refine ⟨congrArg _ heq, fun w hw => join?_eq_none hnone w ⟨?_, hw.2⟩⟩
      exact hw.1 s List.mem_cons_self heq
    next =>
      obtain ⟨he, hno⟩ := ih (Attempt.map_eq_error.mp h)
      exact ⟨he, fun w hw => hno w ⟨(List.forall_mem_cons.mp hw.1).2, hw.2⟩⟩

structure IsSchemaOf (schema : List (String × ColumnType)) (cs : List (String × Column)) :
    Prop where
  names : schema.map Prod.fst = (cs.map Prod.fst).eraseDups
  le_iff : ∀ n w, (∀ s ∈ schema, s.1 = n → s.2 ≤ w) ↔ ∀ c ∈ cs, c.1 = n → c.2.type ≤ w

lemma IsSchemaOf.snoc (h : IsSchemaOf schema cs) {c : String × Column}
    (hc : widenSchema c.1 c.2.type schema = .ok schema') : IsSchemaOf schema' (cs ++ [c]) := by
  constructor
  · rw [widenSchema_names hc, h.names, List.map_append, Sequence.eraseDups_append_eq]
    simp only [List.contains_eq_mem, List.mem_eraseDups]
    rfl
  · intro n w
    rw [widenSchema_le_iff hc, h.le_iff, List.forall_mem_append, List.forall_mem_singleton]

lemma foldlM_widenSchema_eq_ok {more : List (String × Column)} (h : IsSchemaOf schema cs)
    (hm : more.foldlM (fun schema c => widenSchema c.1 c.2.type schema) schema = .ok schema') :
    IsSchemaOf schema' (cs ++ more) := by
  induction more generalizing schema cs with
  | nil =>
    cases hm
    rwa [List.append_nil]
  | cons c more ih =>
    rw [List.foldlM_cons, Attempt.bind_eq_ok] at hm
    obtain ⟨next, hnext, hm⟩ := hm
    have hall := ih (h.snoc hnext) hm
    rwa [List.append_assoc] at hall

lemma foldlM_widenSchema_eq_error {more : List (String × Column)} {e : MixedColumn}
    (h : IsSchemaOf schema cs)
    (hm : more.foldlM (fun schema c => widenSchema c.1 c.2.type schema) schema = .error e)
    (w : ColumnType) : ¬ ∀ c ∈ cs ++ more, c.1 = e.column → c.2.type ≤ w := by
  induction more generalizing schema cs with
  | nil => cases hm
  | cons c more ih =>
    rw [List.foldlM_cons, Attempt.bind_eq_error] at hm
    rcases hm with hm | ⟨next, hnext, hm⟩
    · obtain ⟨rfl, hno⟩ := widenSchema_eq_error hm
      intro hall
      rw [List.forall_mem_append, List.forall_mem_cons] at hall
      exact hno w ⟨(h.le_iff _ _).mpr hall.1, hall.2.1 rfl⟩
    · have hno := ih (h.snoc hnext) hm
      rwa [List.append_assoc] at hno

lemma isSchemaOf_nil : IsSchemaOf [] [] := ⟨rfl, by simp⟩

section Tables

variable {tables : List Table} {rels : List Relation} (h : List.Forall₂ Table.IsOf tables rels)

include h

lemma tables_le_iff (n : String) (w : ColumnType) :
    (∀ c ∈ tables.flatMap Table.columns, c.1 = n → c.2.type ≤ w) ↔
      ∀ v ∈ Relation.column rels.flatten n, ofValue v ≤ w := by
  induction h with
  | nil => simp [Relation.column]
  | @cons table rel tables rels hof _ ih =>
    have htable : (∀ c ∈ table.columns, c.1 = n → c.2.type ≤ w) ↔
        ∀ v ∈ rel.column n, ofValue v ≤ w := by
      constructor
      · intro hall v hv
        by_cases hn : n ∈ table.names
        · obtain ⟨c, hc, rfl⟩ := List.mem_map.mp hn
          exact (mem_upperBounds_typesOf.mp (hof.types c hc).1 v hv).trans (hall c hc rfl)
        · obtain ⟨r, hr, rfl⟩ := List.mem_map.mp hv
          rw [Relation.value_of_not_mem_namesOf (hof.names ▸ hn) hr]
          exact Or.inl rfl
      · rintro hall c hc rfl
        exact (hof.types c hc).2 (mem_upperBounds_typesOf.mpr hall)
    rw [List.flatMap_cons, List.forall_mem_append, List.flatten_cons, Relation.column_append,
      List.forall_mem_append]
    exact and_congr htable ih

lemma tables_names : (tables.flatMap Table.columns).map Prod.fst =
    (rels.map Table.namesOf).flatten := by
  induction h with
  | nil => rfl
  | cons hof _ ih =>
    rw [List.flatMap_cons, List.map_append, ih, List.map_cons, List.flatten_cons, ← hof.names]
    rfl

lemma tables_rowCount :
    (tables.map Table.rowCount).foldr (· + ·) 0 = rels.flatten.length := by
  induction h with
  | nil => rfl
  | cons hof _ ih =>
    rw [List.map_cons, List.foldr_cons, ih, List.flatten_cons, List.length_append,
      hof.represents.rowCount, Relation.normal, List.length_map]

lemma values_stack {n : String} {t : ColumnType} {all : List Value} (ht : IsLUB (typesOf all) t)
    (hsub : ∀ v ∈ Relation.column rels.flatten n, v ∈ all) :
    (stack tables n t).values = (Relation.column rels.flatten n).map (unify all) := by
  induction h with
  | nil => rfl
  | @cons table rel tables rels hof _ ih =>
    rw [List.flatten_cons, Relation.column_append, List.forall_mem_append] at hsub
    have hhead : ((table.column n).cellsAs t).map Column.cellValue =
        (rel.column n).map (unify all) := by
      rw [Column.cellsAs, ← Table.values, hof.represents.values, Relation.column_normal,
        List.map_map, List.map_map]
      exact List.map_congr_left fun v hv => cellValue_unify ht hsub.1 hv
    rw [Column.values, stack, List.flatMap_cons, List.map_append, hhead, List.flatten_cons,
      Relation.column_append, List.map_append]
    exact congrArg (_ ++ ·) (ih hsub.2)

end Tables

lemma namesOf_flatten (rels : List Relation) :
    Table.namesOf rels.flatten = (rels.map Table.namesOf).flatten.eraseDups := by
  have hnames : rels.map Table.namesOf =
      (rels.map fun rel => rel.flatMap Row.columns).map List.eraseDups := by
    rw [List.map_map]
    rfl
  have hcolumns : rels.flatten.flatMap Row.columns =
      (rels.map fun rel => rel.flatMap Row.columns).flatten := by
    induction rels with
    | nil => rfl
    | cons rel rels ih =>
      rw [List.flatten_cons, List.flatMap_append, List.map_cons, List.flatten_cons, ih]
      rw [List.map_map]
      rfl
  rw [hnames, Sequence.eraseDups_flatten_map, Table.namesOf, hcolumns]

lemma schemaOf_eq_ok {tables : List Table} {schema : List (String × ColumnType)}
    (h : schemaOf tables = .ok schema) : IsSchemaOf schema (tables.flatMap Table.columns) :=
  foldlM_widenSchema_eq_ok isSchemaOf_nil h

lemma isOf_of_mapM {rels : List Relation} {tables : List Table}
    (h : rels.mapM Table.ofRelation = .ok tables) : List.Forall₂ Table.IsOf tables rels := by
  apply (Attempt.mapM_eq_ok.mp h).flip.imp
  intro table rel ht
  exact (Table.ofRelation_eq_ok ht).1

section Schema

variable {tables : List Table} {rels : List Relation} {schema : List (String × ColumnType)}
  (hof : List.Forall₂ Table.IsOf tables rels) (hs : schemaOf tables = .ok schema)

include hof hs

lemma schema_names : schema.map Prod.fst = Table.namesOf rels.flatten := by
  rw [(schemaOf_eq_ok hs).names, tables_names hof, namesOf_flatten]

lemma schema_names_nodup : (schema.map Prod.fst).Nodup := by
  rw [schema_names hof hs]
  exact Relation.namesOf_nodup _

lemma schema_isLUB {s : String × ColumnType} (hmem : s ∈ schema) :
    IsLUB (typesOf (Relation.column rels.flatten s.1)) s.2 := by
  refine isLUB_iff_le_iff.mpr fun w => ?_
  rw [mem_upperBounds_typesOf, ← tables_le_iff hof, ← (schemaOf_eq_ok hs).le_iff]
  constructor
  · intro hle s' hs' heq
    exact List.inj_on_of_nodup_map (schema_names_nodup hof hs) hs' hmem heq ▸ hle
  · intro hall
    exact hall s hmem rfl

lemma schema_typeable : Relation.Typeable rels.flatten := by
  intro name
  by_cases hname : name ∈ Table.namesOf rels.flatten
  · rw [← schema_names hof hs] at hname
    obtain ⟨s, hmem, rfl⟩ := List.mem_map.mp hname
    exact (bddAbove_typesOf_iff _).mp (schema_isLUB hof hs hmem).bddAbove
  · exact Relation.oneKind_of_not_mem_namesOf hname

lemma stacked_represents : Table.Represents
    ⟨(tables.map Table.rowCount).foldr (· + ·) 0, schema.map fun s => (s.1, stack tables s.1 s.2)⟩
    (Relation.normal rels.flatten) := by
  refine ⟨?rows, ?names, ?columns, ?values⟩
  case rows =>
    rw [Relation.normal, List.length_map]
    exact tables_rowCount hof
  case names =>
    rw [Table.names, List.map_map]
    exact schema_names_nodup hof hs
  case columns =>
    intro r hr
    obtain ⟨r', -, rfl⟩ := List.mem_map.mp hr
    rw [Relation.columns_normalRow, Table.names, List.map_map]
    exact (schema_names hof hs).symm
  case values =>
    intro c hc
    obtain ⟨s, hmem, rfl⟩ := List.mem_map.mp hc
    rw [Relation.column_normal]
    exact values_stack hof (schema_isLUB hof hs hmem) fun v hv => hv

end Schema

theorem union_eq_error {rels : List Relation} {e : MixedColumn} (h : union rels = .error e) :
    ¬ OneKind (Relation.column rels.flatten e.column) := by
  rcases Attempt.bind_eq_error.mp h with h | ⟨tables, htables, h⟩
  · obtain ⟨rel, hrel, herror⟩ := Attempt.mapM_eq_error h
    rintro ⟨k, hk⟩
    apply Table.ofRelation_eq_error herror
    refine ⟨k, fun v hv => hk v ?_⟩
    obtain ⟨r, hr, rfl⟩ := List.mem_map.mp hv
    exact List.mem_map_of_mem (List.mem_flatten.mpr ⟨rel, hrel, hr⟩)
  · rcases Attempt.bind_eq_error.mp h with h | ⟨schema, -, h⟩
    · intro hone
      obtain ⟨w, hw⟩ := (bddAbove_typesOf_iff _).mpr hone
      have hno := foldlM_widenSchema_eq_error isSchemaOf_nil h w
      exact hno ((tables_le_iff (isOf_of_mapM htables) _ w).mpr (mem_upperBounds_typesOf.mp hw))
    · cases h

theorem union_eq_ok {rels : List Relation} {rel : Relation} (h : union rels = .ok rel) :
    rel = Relation.normal rels.flatten ∧ Relation.Typeable rels.flatten := by
  obtain ⟨tables, htables, h⟩ := Attempt.bind_eq_ok.mp h
  obtain ⟨schema, hschema, h⟩ := Attempt.bind_eq_ok.mp h
  obtain rfl := Attempt.pure_eq_ok.mp h
  have hof := isOf_of_mapM htables
  exact ⟨(stacked_represents hof hschema).toRelation, schema_typeable hof hschema⟩

end ColumnWise

end Recombine
