import Recombine.Engine.Basic
import Recombine.Proofs.Sequences
import Recombine.Proofs.Values.Order

/-! Rows are sorted by several columns, one stable pass for each of them. The passes amount to one
stable sort by the first column in which rows differ. -/

namespace Recombine

/-- The cells of each column that rows are to be sorted by are in order. -/
def Relation.Sortable (rel : Relation) (orderBy : List Order) : Prop :=
  ∀ o ∈ orderBy, Value.TransitiveOn (rel.map (·.value o.column))

namespace Order

def compare (o : Order) (a b : Row) : Ordering :=
  match o.direction with
  | .ascending => (a.value o.column).totalCompare (b.value o.column)
  | .descending => ((a.value o.column).totalCompare (b.value o.column)).swap

def compareAll : List Order → Row → Row → Ordering
  | [], _, _ => .eq
  | o :: orderBy, a, b => (o.compare a b).then (compareAll orderBy a b)

variable {o : Order} {orderBy : List Order} {rel : Relation}

lemma isBefore_value (o : Order) (a b : Row) :
    o.isBefore (a.value o.column) (b.value o.column) = (o.compare a b).isLE := by
  rw [isBefore, compare]
  cases o.direction with
  | ascending => rfl
  | descending => exact Ordering.isLE_swap.symm

instance : Std.OrientedCmp o.compare where
  eq_swap {a b} := by
    have hswap : (a.value o.column).totalCompare (b.value o.column) =
        ((b.value o.column).totalCompare (a.value o.column)).swap := Std.OrientedCmp.eq_swap
    rw [compare, compare, hswap]
    cases o.direction <;> rfl

instance : Std.OrientedCmp (compareAll orderBy) where
  eq_swap {a b} := by
    induction orderBy with
    | nil => rfl
    | cons o orderBy ih =>
      have hswap : o.compare a b = (o.compare b a).swap := Std.OrientedCmp.eq_swap
      rw [compareAll, compareAll, Ordering.swap_then, ← ih, ← hswap]

lemma isLE_compare_trans (h : Value.TransitiveOn (rel.map (·.value o.column))) {a b c : Row}
    (ha : a ∈ rel) (hb : b ∈ rel) (hc : c ∈ rel) (hab : (o.compare a b).isLE = true)
    (hbc : (o.compare b c).isLE = true) : (o.compare a c).isLE = true := by
  have hcell : ∀ r ∈ rel, r.value o.column ∈ rel.map (·.value o.column) :=
    fun r hr => List.mem_map_of_mem hr
  rw [compare] at hab hbc ⊢
  cases hdirection : o.direction with
  | ascending =>
    rw [hdirection] at hab hbc
    exact h _ (hcell a ha) _ (hcell b hb) _ (hcell c hc) hab hbc
  | descending =>
    rw [hdirection] at hab hbc
    simp only [← Std.OrientedCmp.eq_swap] at hab hbc ⊢
    exact h _ (hcell c hc) _ (hcell b hb) _ (hcell a ha) hbc hab

lemma transCmp_compare (h : Value.TransitiveOn (rel.map (·.value o.column))) :
    Std.TransCmp fun i j : Fin rel.length => o.compare rel[i] rel[j] where
  eq_swap := Std.OrientedCmp.eq_swap
  isLE_trans := isLE_compare_trans h (List.getElem_mem _) (List.getElem_mem _) (List.getElem_mem _)

lemma transCmp_compareAll (h : ∀ o ∈ orderBy, Value.TransitiveOn (rel.map (·.value o.column))) :
    Std.TransCmp fun i j : Fin rel.length => compareAll orderBy rel[i] rel[j] := by
  induction orderBy with
  | nil => exact { eq_swap := rfl, isLE_trans := fun _ _ => rfl }
  | cons o orderBy ih =>
    obtain ⟨ho, horderBy⟩ := List.forall_mem_cons.mp h
    have hfirst := transCmp_compare ho
    have hrest := ih horderBy
    exact inferInstanceAs (Std.TransCmp (compareLex
      (fun i j : Fin rel.length => o.compare rel[i] rel[j])
      fun i j : Fin rel.length => compareAll orderBy rel[i] rel[j]))

end Order

namespace RowWise

open Recombine.Order (compareAll)

variable {rel : Relation} {o : Order} {orderBy : List Order} {i j : Fin rel.length}

/-- One row goes before another if it is less, or if they are equal and it was first. -/
def Precedes (rel : Relation) (orderBy : List Order) (i j : Fin rel.length) : Prop :=
  compareAll orderBy rel[i] rel[j] = .lt ∨ compareAll orderBy rel[i] rel[j] = .eq ∧ i < j

instance : DecidableRel (Precedes rel orderBy) :=
  fun _ _ => inferInstanceAs (Decidable (_ ∨ _ ∧ _))

def passes (rel : Relation) : List Order → List (Fin rel.length)
  | [] => List.finRange rel.length
  | o :: orderBy => (passes rel orderBy).mergeSort fun i j => (o.compare rel[i] rel[j]).isLE

lemma precedes_cons : Precedes rel (o :: orderBy) i j ↔
    o.compare rel[i] rel[j] = .lt ∨ o.compare rel[i] rel[j] = .eq ∧ Precedes rel orderBy i j := by
  simp only [Precedes, compareAll, Ordering.then_eq_lt, Ordering.then_eq_eq]
  tauto

lemma not_precedes_of_precedes (h : Precedes rel orderBy i j) : ¬ Precedes rel orderBy j i := by
  have hswap : compareAll orderBy rel[j] rel[i] = (compareAll orderBy rel[i] rel[j]).swap :=
    Std.OrientedCmp.eq_swap
  rw [Precedes, hswap]
  rcases h with h | ⟨h, hlt⟩
  · rw [h]
    rintro (hji | ⟨hji, -⟩) <;> cases hji
  · rw [h]
    rintro (hji | ⟨-, hlt'⟩)
    · cases hji
    · exact Fin.lt_asymm hlt hlt'

lemma map_places (rel : Relation) : (List.finRange rel.length).map (fun i => rel[i]) = rel :=
  List.map_getElem_finRange rel

lemma sort_eq_map_passes (rel : Relation) (orderBy : List Order) :
    sort rel orderBy = (passes rel orderBy).map fun i => rel[i] := by
  induction orderBy with
  | nil => exact (map_places rel).symm
  | cons o orderBy ih =>
    have hpass : sort rel (o :: orderBy) = sortBy o (sort rel orderBy) := rfl
    rw [hpass, ih, sortBy, passes]
    exact (List.map_mergeSort fun i _ j _ => (Order.isBefore_value o rel[i] rel[j]).symm).symm

lemma passes_perm (rel : Relation) (orderBy : List Order) :
    (passes rel orderBy).Perm (List.finRange rel.length) := by
  induction orderBy with
  | nil => exact List.Perm.refl _
  | cons o orderBy ih => exact (List.mergeSort_perm _ _).trans ih

lemma pairwise_passes (h : ∀ o ∈ orderBy, Value.TransitiveOn (rel.map (·.value o.column))) :
    (passes rel orderBy).Pairwise (Precedes rel orderBy) := by
  induction orderBy with
  | nil => exact (List.pairwise_lt_finRange _).imp fun hlt => Or.inr ⟨rfl, hlt⟩
  | cons o orderBy ih =>
    obtain ⟨ho, horderBy⟩ := List.forall_mem_cons.mp h
    have := Order.transCmp_compare ho
    exact (Sequence.pairwise_mergeSort_stable _ (ih horderBy)).imp precedes_cons.mpr

lemma eq_passes (h : ∀ o ∈ orderBy, Value.TransitiveOn (rel.map (·.value o.column)))
    {places : List (Fin rel.length)} (hperm : places.Perm (List.finRange rel.length))
    (hsorted : places.Pairwise (Precedes rel orderBy)) : places = passes rel orderBy := by
  refine (hperm.trans (passes_perm rel orderBy).symm).eq_of_pairwise ?_ hsorted (pairwise_passes h)
  exact fun i j _ _ hij hji => absurd hji (not_precedes_of_precedes hij)

lemma mergeSort_eq_passes (h : ∀ o ∈ orderBy, Value.TransitiveOn (rel.map (·.value o.column))) :
    ((List.finRange rel.length).mergeSort fun i j => (compareAll orderBy rel[i] rel[j]).isLE) =
      passes rel orderBy := by
  have := Order.transCmp_compareAll h
  apply eq_passes h
  · exact List.mergeSort_perm _ _
  · exact Sequence.pairwise_mergeSort_stable _ (List.pairwise_lt_finRange _)

lemma noticesDisorder_iff : noticesDisorder rel o = true ↔
    unchecked < rel.length ∧ ¬ Value.TransitiveOn (rel.map (·.value o.column)) := by
  have hmixed : ¬ Value.TransitiveOn (rel.map (·.value o.column)) →
      (∃ v ∈ rel.map (·.value o.column), v.IsFloat) ∧
        ∃ v ∈ rel.map (·.value o.column), v.IsLarge :=
    fun h => not_not.mp (mt Value.TransitiveOn.of_apart h)
  simp only [noticesDisorder, Bool.and_eq_true, decide_eq_true_eq, List.any_eq_true,
    Bool.not_eq_true', decide_eq_false_iff_not, List.length_map]
  tauto

lemma any_noticesDisorder_iff : orderBy.any (noticesDisorder rel) = true ↔
    unchecked < rel.length ∧ ¬ rel.Sortable orderBy := by
  simp only [List.any_eq_true, noticesDisorder_iff, Relation.Sortable, not_forall, exists_prop]
  tauto

lemma sort_eq_or (rel : Relation) (orderBy : List Order) :
    operators.sort rel orderBy = .ok (sort rel orderBy) ∨
      operators.sort rel orderBy = .error .disorder := by
  by_cases hany : orderBy.any (noticesDisorder rel) = true
  · exact Or.inr (if_pos hany)
  · exact Or.inl (if_neg hany)

lemma sort_eq_ok (h : rel.Sortable orderBy) : operators.sort rel orderBy = .ok (sort rel orderBy) :=
  if_neg fun hany => (any_noticesDisorder_iff.mp hany).2 h

lemma sort_eq_error_iff {e : OperatorFault} : operators.sort rel orderBy = .error e ↔
    e = .disorder ∧ unchecked < rel.length ∧ ¬ rel.Sortable orderBy := by
  rw [← any_noticesDisorder_iff]
  simp only [operators]
  split
  next hany => simp [hany, eq_comm]
  next hany => simp [hany]

theorem sort_stable (rel : Relation) (orderBy : List Order)
    (h : ∀ o ∈ orderBy, Value.TransitiveOn (rel.map (·.value o.column))) :
    ∃ (places : List (Fin rel.length)) (rows : Relation),
      operators.sort rel orderBy = .ok rows ∧ rows = places.map (fun i => rel[i]) ∧
      places.Perm (List.finRange rel.length) ∧ rows.Perm rel ∧
      places.Pairwise (Precedes rel orderBy) ∧
      (∀ others : List (Fin rel.length), others.Perm (List.finRange rel.length) →
        others.Pairwise (Precedes rel orderBy) → others = places) ∧
      rows.Pairwise (fun a b => compareAll orderBy a b ≠ .gt) ∧
      rows = rel.mergeSort (fun a b => (compareAll orderBy a b).isLE) ∧
      (orderBy = [] → rows = rel) := by
  have hrows := sort_eq_map_passes rel orderBy
  have hperm := passes_perm rel orderBy
  have hsorted := pairwise_passes h
  refine ⟨passes rel orderBy, _, sort_eq_ok h, hrows, hperm, ?_, hsorted, fun _ => eq_passes h, ?_, ?_,
    ?_⟩
  · have hrel := hperm.map fun i => rel[i]
    rwa [← hrows, map_places] at hrel
  · rw [hrows, List.pairwise_map]
    refine hsorted.imp ?_
    rintro i j (hlt | ⟨heq, -⟩)
    · rw [hlt]
      decide
    · rw [heq]
      decide
  · rw [hrows, ← mergeSort_eq_passes h]
    conv_rhs => rw [← map_places rel]
    exact List.map_mergeSort fun i _ j _ => rfl
  · rintro rfl
    rfl

def players : Relation :=
  [.ofList [("name", .text "ann"), ("team", .text "b"), ("age", .int 3)],
    .ofList [("name", .text "bob"), ("team", .text "a"), ("age", .float 2)],
    .ofList [("name", .text "cy"), ("age", .int 5)],
    .ofList [("name", .text "dan"), ("team", .text "a"), ("age", .int 2)],
    .ofList [("name", .text "eve"), ("team", .text "a"), ("age", .int 4)]]

def byTeamThenAge : List Order := [⟨"team", .ascending⟩, ⟨"age", .descending⟩]

theorem sort_players :
    (∀ o ∈ byTeamThenAge, Value.TransitiveOn (players.map (·.value o.column))) ∧
    ∃ rows, operators.sort players byTeamThenAge = .ok rows ∧
      rows.Pairwise (fun a b => compareAll byTeamThenAge a b ≠ .gt) ∧
      rows.map (·.value "name") =
        [.text "cy", .text "eve", .text "bob", .text "dan", .text "ann"] := by
  have horder : ∀ o ∈ byTeamThenAge, Value.TransitiveOn (players.map (·.value o.column)) := by
    decide +kernel
  obtain ⟨places, rows, hok, hrows, -, -, -, hunique, hsorted, -, -⟩ :=
    sort_stable players byTeamThenAge horder
  let sorted : List (Fin players.length) := ([2, 4, 1, 3, 0] : List (Fin 5)).map (Fin.cast rfl)
  have hplaces : sorted = places := hunique sorted (by decide) (by decide +kernel)
  refine ⟨horder, rows, hok, hsorted, ?_⟩
  rw [hrows, ← hplaces]
  decide +kernel

end RowWise

end Recombine
