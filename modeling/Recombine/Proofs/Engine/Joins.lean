import Mathlib.Algebra.GroupWithZero.Nat
import Mathlib.Data.List.FinRange
import Recombine.Engine.Basic
import Recombine.Proofs.Groups
import Recombine.Proofs.Sequences

/-! Joining and comparing through an index by keys, against the loop over all pairs of rows. -/

namespace Recombine

namespace JoinKey

variable {keys : List JoinKey} {column : String}

lemma isLeft_iff : isLeft keys column = true ↔ column ∈ keys.map left := by
  simp [isLeft]

lemma isRight_iff : isRight keys column = true ↔ column ∈ keys.map right := by
  simp [isRight]

end JoinKey

lemma mem_comparedColumns {keys : List JoinKey} {ls rs : List String} {c : String} :
    c ∈ comparedColumns keys ls rs ↔
      c ∈ ls ∧ c ∉ keys.map JoinKey.left ∨ c ∈ rs ∧ c ∉ keys.map JoinKey.right := by
  rw [← JoinKey.isLeft_iff, ← JoinKey.isRight_iff]
  simp only [comparedColumns, List.mem_append, List.mem_filter, Bool.and_eq_true, Bool.not_eq_true',
    List.contains_eq_mem, decide_eq_false_iff_not, Bool.not_eq_true]
  tauto

namespace RowWise

variable {keys : List JoinKey} {l r : Row}

def Matches (keys : List JoinKey) (l r : Row) : Prop :=
  ∀ k ∈ keys, (l.value k.left).key = (r.value k.right).key

instance : Decidable (Matches keys l r) :=
  inferInstanceAs (Decidable (∀ k ∈ keys, (l.value k.left).key = (r.value k.right).key))

def Differ (keys : List JoinKey) (l r : Row) : Prop :=
  ∃ c, (c ∈ l.columns ∧ c ∉ keys.map JoinKey.left ∨ c ∈ r.columns ∧ c ∉ keys.map JoinKey.right) ∧
    (l.value c).looseEq (r.value c) = false

lemma differs_iff : differs keys l r = true ↔ Differ keys l r := by
  rw [differs, List.any_eq_true, Differ]
  simp only [mem_comparedColumns, Bool.not_eq_true']

instance : Decidable (Differ keys l r) := decidable_of_iff _ differs_iff

lemma keyOf_eq_keyOf_iff :
    keyOf (keys.map JoinKey.left) l = keyOf (keys.map JoinKey.right) r ↔ Matches keys l r := by
  rw [keyOf, keyOf, List.map_map, List.map_map]
  exact List.map_inj_left

def places (keys : List JoinKey) (left right : Relation) :
    List (Fin left.length × Fin right.length) :=
  (List.finRange left.length ×ˢ List.finRange right.length).filter fun p =>
    Matches keys left[p.1] right[p.2]

variable {left right : Relation}

lemma mem_places {p : Fin left.length × Fin right.length} :
    p ∈ places keys left right ↔ Matches keys left[p.1] right[p.2] := by
  rw [places, List.mem_filter, decide_eq_true_iff]
  exact and_iff_right (List.mem_product.mpr ⟨List.mem_finRange _, List.mem_finRange _⟩)

lemma places_ascending : (places keys left right).Pairwise (Prod.Lex (· < ·) (· < ·)) :=
  (Sequence.pairwise_product (List.pairwise_lt_finRange _) (List.pairwise_lt_finRange _)).filter _

lemma matched_eq_map_places : matched left right keys =
    (places keys left right).map fun p => (left[p.1], right[p.2]) := by
  have hloop : places keys left right =
      Grouping.matched (fun i : Fin left.length => keyOf (keys.map JoinKey.left) left[i])
        (fun j : Fin right.length => keyOf (keys.map JoinKey.right) right[j])
        (List.finRange left.length) (List.finRange right.length) := by
    rw [Grouping.matched_eq]
    simp only [places, SProd.sprod, List.product, List.filter_flatMap, List.filter_map,
      Function.comp_def, keyOf_eq_keyOf_iff]
  rw [hloop, matched]
  conv_lhs => rw [← List.map_getElem_finRange left, ← List.map_getElem_finRange right]
  exact Grouping.matched_map _ _ _ _ _ _

lemma length_matched : (matched left right keys).length =
    (left.map fun l => right.countP fun r => Matches keys l r).sum := by
  rw [matched, Grouping.matched_eq, List.length_flatMap]
  simp only [List.length_map, ← List.countP_eq_length_filter, keyOf_eq_keyOf_iff]

/-- The index finds the pairs that the loop over all pairs of places finds, in the same order. One
row is joined from each of them, and one compared row from each that differs. -/
theorem join_compare_nested (left right : Relation) (keys : List JoinKey) :
    (∀ p, p ∈ places keys left right ↔ Matches keys left[p.1] right[p.2]) ∧
    (places keys left right).Pairwise (Prod.Lex (· < ·) (· < ·)) ∧
    matched left right keys = (places keys left right).map (fun p => (left[p.1], right[p.2])) ∧
    operators.join left right keys =
      .ok ((places keys left right).map fun p => joinRow keys left[p.1] right[p.2]) ∧
    operators.compare left right keys =
      .ok (((places keys left right).filter fun p => Differ keys left[p.1] right[p.2]).map
        fun p => compareRow keys left[p.1] right[p.2]) ∧
    (join left right keys).length =
      (left.map fun l => right.countP fun r => Matches keys l r).sum := by
  refine ⟨fun _ => mem_places, places_ascending, matched_eq_map_places, ?_, ?_, ?_⟩
  · change Except.ok (join left right keys) = _
    rw [join, matched_eq_map_places, List.map_map]
    rfl
  · change Except.ok (compare left right keys) = _
    rw [compare, matched_eq_map_places, List.filter_map, List.map_map]
    simp only [Function.comp_def, ← differs_iff, Bool.decide_eq_true]
  · rw [join, List.length_map, length_matched]

end RowWise

end Recombine
