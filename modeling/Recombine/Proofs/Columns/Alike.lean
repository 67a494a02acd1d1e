import Recombine.Proofs.Columns.Uniform

/-! Relations whose rows are alike: one list of columns, and in each of them cells that agree in
what matters of their types. The operators on rows keep that, if sums may be integers and floats. -/

namespace Recombine

open ColumnType

variable {κ : Type} {g : ColumnType → κ}

def Value.Agree (g : ColumnType → κ) (v w : Value) : Prop :=
  v = .null ∨ w = .null ∨ g (ofValue v) = g (ofValue w)

def CellsAgree (g : ColumnType → κ) (a b : String × Value) : Prop :=
  a.1 = b.1 ∧ Value.Agree g a.2 b.2

structure Row.Alike (g : ColumnType → κ) (r s : Row) : Prop where
  columns : r.columns = s.columns
  values : ∀ c, Value.Agree g (r.value c) (s.value c)

def Relation.Alike (g : ColumnType → κ) (rel : Relation) : Prop :=
  ∀ r ∈ rel, ∀ s ∈ rel, Row.Alike g r s

lemma forall₂_map_same {α β γ : Type} {R : β → γ → Prop} {as : List α} {p : α → β} {q : α → γ}
    (h : ∀ a ∈ as, R (p a) (q a)) : List.Forall₂ R (as.map p) (as.map q) := by
  rw [List.forall₂_map_left_iff, List.forall₂_map_right_iff, List.forall₂_same]
  exact h

namespace Row

variable {r s : Row} {a b : String × Value} {cs ds : List (String × Value)}

lemma alike_empty : Alike g ∅ ∅ := ⟨rfl, fun _ => Or.inl rfl⟩

lemma Alike.insert (h : Alike g r s) (hcell : CellsAgree g a b) :
    Alike g (r.insert a.1 a.2) (s.insert b.1 b.2) := by
  obtain ⟨hname, hvalue⟩ := hcell
  constructor
  · rw [columns_insert, columns_insert, hname, h.columns]
  · intro c
    rw [value_insert, value_insert, hname]
    split
    next => exact hvalue
    next => exact h.values c

lemma Alike.insertFresh (h : Alike g r s) (hcell : CellsAgree g a b) :
    Alike g (RowWise.insertFresh r a) (RowWise.insertFresh s b) := by
  have hcell' : CellsAgree g (freshName r.columns a.1, a.2) (freshName s.columns b.1, b.2) :=
    ⟨by rw [h.columns, hcell.1], hcell.2⟩
  exact h.insert hcell'

lemma Alike.insertAll (h : Alike g r s) (hcells : List.Forall₂ (CellsAgree g) cs ds) :
    Alike g (r.insertAll cs) (s.insertAll ds) :=
  List.rel_foldl (fun _ _ h _ _ hcell => h.insert hcell) h hcells

lemma alike_ofList (hcells : List.Forall₂ (CellsAgree g) cs ds) :
    Alike g (ofList cs) (ofList ds) :=
  alike_empty.insertAll hcells

lemma Alike.valuesOf (h : Alike g r s) (columns : List String) :
    List.Forall₂ (CellsAgree g) (columns.map fun c => (c, r.value c))
      (columns.map fun c => (c, s.value c)) :=
  forall₂_map_same fun c _ => ⟨rfl, h.values c⟩

lemma Alike.cells (h : Alike g r s) (p : String → Bool) :
    List.Forall₂ (CellsAgree g) (r.cells.filter fun cell => p cell.1)
      (s.cells.filter fun cell => p cell.1) := by
  rw [cells_eq r, cells_eq s, h.columns, List.filter_map, List.filter_map]
  exact h.valuesOf _

end Row

namespace RowWise

variable {l l' r r' : Row} (keys : List JoinKey)

lemma alike_keyCells (h : Row.Alike g l l') :
    List.Forall₂ (CellsAgree g) (keyCells keys l) (keyCells keys l') :=
  forall₂_map_same fun k _ => ⟨rfl, h.values k.left⟩

lemma alike_joinRow (hl : Row.Alike g l l') (hr : Row.Alike g r r') :
    Row.Alike g (joinRow keys l r) (joinRow keys l' r') := by
  have hleft := (Row.alike_empty.insertAll (alike_keyCells keys hl)).insertAll
    (hl.cells fun c => !JoinKey.isLeft keys c)
  exact List.rel_foldl (fun _ _ h _ _ hcell => h.insertFresh hcell) hleft
    (hr.cells fun c => !JoinKey.isRight keys c)

lemma alike_compareRow (hl : Row.Alike g l l') (hr : Row.Alike g r r') :
    Row.Alike g (compareRow keys l r) (compareRow keys l' r') := by
  have hcells : List.Forall₂ (CellsAgree g)
      ((comparedColumns keys l.columns r.columns).flatMap fun c =>
        [("left_" ++ c, l.value c), ("right_" ++ c, r.value c)])
      ((comparedColumns keys l'.columns r'.columns).flatMap fun c =>
        [("left_" ++ c, l'.value c), ("right_" ++ c, r'.value c)]) := by
    rw [hl.columns, hr.columns]
    induction comparedColumns keys l'.columns r'.columns with
    | nil => exact .nil
    | cons c columns ih => exact .cons ⟨rfl, hl.values c⟩ (.cons ⟨rfl, hr.values c⟩ ih)
  exact (Row.alike_empty.insertAll (alike_keyCells keys hl)).insertAll hcells

end RowWise

namespace Accumulator

variable {vs ws : List Value}

lemma exists_result_total (t : Total) : (∃ i, t.result = .int i) ∨ ∃ x, t.result = .float x := by
  unfold Total.result
  split
  next n _ =>
    split
    next => exact Or.inl ⟨n, rfl⟩
    next => exact Or.inr ⟨_, rfl⟩
  next => exact Or.inr ⟨_, rfl⟩

lemma better_eq (wanted : Ordering) (best v : Value) :
    better wanted best v = best ∨ better wanted best v = v := by
  unfold better
  split
  next => exact Or.inl rfl
  next =>
    split
    next => exact Or.inr rfl
    next => exact Or.inl rfl

lemma foldl_better_mem (wanted : Ordering) (best : Value) (vs : List Value) :
    vs.foldl (better wanted) best = best ∨ vs.foldl (better wanted) best ∈ vs := by
  induction vs generalizing best with
  | nil => exact Or.inl rfl
  | cons v vs ih =>
    rcases ih (better wanted best v) with h | h
    · rcases better_eq wanted best v with hb | hb
      · exact Or.inl (h.trans hb)
      · exact Or.inr (List.mem_cons.mpr (Or.inl (h.trans hb)))
    · exact Or.inr (List.mem_cons_of_mem v h)

lemma foldl_better_agree {wanted : Ordering} (h : ∀ v ∈ vs, ∀ w ∈ ws, Value.Agree g v w) :
    Value.Agree g (vs.foldl (better wanted) .null) (ws.foldl (better wanted) .null) := by
  rcases foldl_better_mem wanted .null vs with hv | hv
  · exact Or.inl hv
  · rcases foldl_better_mem wanted .null ws with hw | hw
    · exact Or.inr (Or.inl hw)
    · exact h _ hv _ hw

lemma aggregate_agree {a : Aggregation} (hsum : a = .sum → g .int = g .float)
    (h : ∀ v ∈ vs, ∀ w ∈ ws, Value.Agree g v w) :
    Value.Agree g (aggregate a vs) (aggregate a ws) := by
  cases a with
  | count =>
    obtain ⟨i, hi⟩ : ∃ i, aggregate .count vs = .int i := ⟨_, aggregate_count vs⟩
    obtain ⟨j, hj⟩ : ∃ j, aggregate .count ws = .int j := ⟨_, aggregate_count ws⟩
    rw [hi, hj]
    exact Or.inr (Or.inr rfl)
  | sum =>
    have hnumber : ∀ us : List Value, g (ofValue (aggregate .sum us)) = g .float := by
      intro us
      rw [aggregate_sum]
      rcases exists_result_total (us.foldl Total.push {}) with ⟨i, hi⟩ | ⟨x, hx⟩
      · rw [hi]
        exact hsum rfl
      · rw [hx]
        rfl
    exact Or.inr (Or.inr ((hnumber vs).trans (hnumber ws).symm))
  | average =>
    obtain ⟨x, hx⟩ : ∃ x, aggregate .average vs = .float x := ⟨_, aggregate_average vs⟩
    obtain ⟨y, hy⟩ : ∃ y, aggregate .average ws = .float y := ⟨_, aggregate_average ws⟩
    rw [hx, hy]
    exact Or.inr (Or.inr rfl)
  | min =>
    rw [aggregate_min, aggregate_min]
    exact foldl_better_agree h
  | max =>
    rw [aggregate_max, aggregate_max]
    exact foldl_better_agree h

end Accumulator

namespace Relation.Alike

variable {left right rel rel' : Relation}

lemma subset (h : rel.Alike g) (hsub : ∀ r ∈ rel', r ∈ rel) : rel'.Alike g :=
  fun r hr s hs => h r (hsub r hr) s (hsub s hs)

lemma map {α : Type} {as : List α} {p : α → Row}
    (h : ∀ a ∈ as, ∀ b ∈ as, Row.Alike g (p a) (p b)) : Relation.Alike g (as.map p) := by
  intro r hr s hs
  obtain ⟨a, ha, rfl⟩ := List.mem_map.mp hr
  obtain ⟨b, hb, rfl⟩ := List.mem_map.mp hs
  exact h a ha b hb

lemma join (hl : left.Alike g) (hr : right.Alike g) (keys : List JoinKey) :
    (RowWise.join left right keys).Alike g := by
  refine map fun p hp q hq => ?_
  obtain ⟨hp₁, hp₂, -⟩ := Grouping.mem_matched.mp hp
  obtain ⟨hq₁, hq₂, -⟩ := Grouping.mem_matched.mp hq
  exact RowWise.alike_joinRow keys (hl _ hp₁ _ hq₁) (hr _ hp₂ _ hq₂)

lemma compare (hl : left.Alike g) (hr : right.Alike g) (keys : List JoinKey) :
    (RowWise.compare left right keys).Alike g := by
  refine map fun p hp q hq => ?_
  obtain ⟨hp₁, hp₂, -⟩ := Grouping.mem_matched.mp (List.mem_of_mem_filter hp)
  obtain ⟨hq₁, hq₂, -⟩ := Grouping.mem_matched.mp (List.mem_of_mem_filter hq)
  exact RowWise.alike_compareRow keys (hl _ hp₁ _ hq₁) (hr _ hp₂ _ hq₂)

lemma filter (h : rel.Alike g) (filters : List Filter) : (RowWise.filter rel filters).Alike g :=
  h.subset fun _ hr => List.mem_of_mem_filter hr

lemma aggregate (h : rel.Alike g) (groupBy : List String) {metrics : List Metric}
    (hsum : ∀ m ∈ metrics, m.aggregation = .sum → g .int = g .float) :
    (RowWise.aggregate rel groupBy metrics).Alike g := by
  rw [RowWise.aggregate_eq]
  refine map fun x hx y hy => ?_
  have hrows : ∀ r ∈ Tally.members (RowWise.keyOf groupBy) rel x,
      ∀ s ∈ Tally.members (RowWise.keyOf groupBy) rel y, Row.Alike g r s := fun r hr s hs =>
    h r (Tally.mem_members.mp hr).1 s (Tally.mem_members.mp hs).1
  have hfirst : Row.Alike g ((Tally.members (RowWise.keyOf groupBy) rel x).headD ∅)
      ((Tally.members (RowWise.keyOf groupBy) rel y).headD ∅) := by
    obtain ⟨r, rs, hx'⟩ := List.exists_cons_of_ne_nil (Tally.members_ne_nil_iff.mpr hx)
    obtain ⟨s, ss, hy'⟩ := List.exists_cons_of_ne_nil (Tally.members_ne_nil_iff.mpr hy)
    rw [hx', hy'] at hrows ⊢
    exact hrows r List.mem_cons_self s List.mem_cons_self
  refine (Row.alike_ofList (hfirst.valuesOf groupBy)).insertAll (forall₂_map_same fun m hm => ?_)
  refine ⟨rfl, Accumulator.aggregate_agree (hsum m hm) fun v hv w hw => ?_⟩
  obtain ⟨r, hr, rfl⟩ := List.mem_map.mp hv
  obtain ⟨s, hs, rfl⟩ := List.mem_map.mp hw
  rw [RowWise.metricValue, RowWise.metricValue]
  cases m.source with
  | none => exact Or.inl rfl
  | some c => exact (hrows r hr s hs).values c

lemma project (h : rel.Alike g) (columns : List String) :
    (RowWise.project rel columns).Alike g := by
  rw [RowWise.project]
  split
  next => exact h
  next => exact map fun r hr s hs => Row.alike_ofList ((h r hr s hs).valuesOf columns)

lemma sort (h : rel.Alike g) (orderBy : List Order) : (RowWise.sort rel orderBy).Alike g := by
  rw [RowWise.sort]
  induction orderBy with
  | nil => exact h
  | cons o orderBy ih => exact ih.subset fun _ hr => (List.mergeSort_perm _ _).mem_iff.mp hr

lemma limit (h : rel.Alike g) (count : Option Nat) : (RowWise.limit rel count).Alike g := by
  cases count with
  | none => exact h
  | some n => exact h.subset fun _ hr => List.mem_of_mem_take hr

end Relation.Alike

namespace Relation

variable {rel : Relation}

def MixesNumbers (rel : Relation) : Prop :=
  ∃ r ∈ rel, ∃ s ∈ rel, ∃ c ∈ r.columns, ofValue (r.value c) = .int ∧ ofValue (s.value c) = .float

instance (rel : Relation) : Decidable rel.MixesNumbers :=
  inferInstanceAs (Decidable (∃ r ∈ rel, ∃ s ∈ rel, ∃ c ∈ r.columns,
    ofValue (r.value c) = .int ∧ ofValue (s.value c) = .float))

lemma Uniform.alike (h : rel.Uniform) (g : ColumnType → κ) : rel.Alike g := by
  refine fun r hr s hs => ⟨h.columns r hr s hs, fun c => ?_⟩
  have htype := h.types_of_mem_column (List.mem_map_of_mem (f := fun r => r.value c) hr)
    (List.mem_map_of_mem hs)
  exact htype.imp_right (Or.imp_right (congrArg g))

lemma Alike.uniform (h : rel.Alike id) : rel.Uniform :=
  ⟨fun r hr s hs => (h r hr s hs).columns, fun r hr s hs c _ => (h r hr s hs).values c⟩

section Kinds

variable (h : rel.Alike kindRank)

include h

lemma Alike.typeable : rel.Typeable := by
  intro c
  refine oneKind_iff.mpr fun v hv w hw => ?_
  obtain ⟨r, hr, rfl⟩ := List.mem_map.mp hv
  obtain ⟨s, hs, rfl⟩ := List.mem_map.mp hw
  rw [← kindRank_ofValue, ← kindRank_ofValue]
  exact (h r hr s hs).values c

lemma Alike.uniform_of_not_mixesNumbers (hmix : ¬ rel.MixesNumbers) : rel.Uniform := by
  refine ⟨fun r hr s hs => (h r hr s hs).columns, fun r hr s hs c hc => ?_⟩
  refine ((h r hr s hs).values c).imp_right (Or.imp_right fun hkind => ?_)
  rcases eq_or_numbers_of_kindRank_eq hkind with htype | ⟨hint, hfloat⟩ | ⟨hfloat, hint⟩
  · exact htype
  · exact absurd ⟨r, hr, s, hs, c, hc, hint, hfloat⟩ hmix
  · have hc' : c ∈ s.columns := (h r hr s hs).columns ▸ hc
    exact absurd ⟨s, hs, r, hr, c, hc', hint, hfloat⟩ hmix

end Kinds

lemma agree_unify (vs : List Value) {v w : Value} (h : Value.Agree kindRank v w) :
    Value.Agree kindRank (unify vs v) (unify vs w) := by
  rcases h with rfl | rfl | hkind
  · exact Or.inl (unify_null vs)
  · exact Or.inr (Or.inl (unify_null vs))
  · right; right
    rw [kindRank_unify, kindRank_unify, hkind]

lemma Alike.normal (h : rel.Alike kindRank) : rel.normal.Alike kindRank := by
  refine map fun r hr s hs => ⟨?_, fun c => ?_⟩
  · rw [columns_normalRow, columns_normalRow]
  · rw [value_normalRow hr, value_normalRow hs]
    exact agree_unify _ ((h r hr s hs).values c)

end Relation

end Recombine
