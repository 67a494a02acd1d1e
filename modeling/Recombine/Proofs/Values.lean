import Mathlib.Data.List.Basic
import Recombine.Value

namespace Recombine.Value

variable {a b c : Value} {vs ws : List Value}

lemma isNull_iff : a.isNull = true ↔ a = null := by
  cases a <;> simp [isNull]

instance : Std.OrientedCmp totalCompare where
  eq_swap {a b} := by cases a <;> cases b <;> exact Std.OrientedOrd.eq_swap

lemma not_transitiveOn_rounded :
    ¬ TransitiveOn [int 9007199254740993, float 9007199254740992, int 9007199254740992] := by
  decide +kernel

lemma TransitiveOn.subset (h : TransitiveOn vs) (hsub : ws ⊆ vs) : TransitiveOn ws :=
  fun a ha b hb c hc => h a (hsub ha) b (hsub hb) c (hsub hc)

lemma TransitiveOn.ne_trans {wanted : Ordering} (h : TransitiveOn vs) (hw : wanted ≠ .eq)
    (ha : a ∈ vs) (hb : b ∈ vs) (hc : c ∈ vs) (hab : a.totalCompare b ≠ wanted)
    (hbc : b.totalCompare c ≠ wanted) : a.totalCompare c ≠ wanted := by
  cases wanted with
  | eq => exact absurd rfl hw
  | lt =>
    rw [Ne, Ordering.ne_lt_iff_isGE, Std.OrientedCmp.isGE_iff_isLE] at hab hbc ⊢
    exact h c hc b hb a ha hbc hab
  | gt =>
    rw [Ne, Ordering.ne_gt_iff_isLE] at hab hbc ⊢
    exact h a ha b hb c hc hab hbc

end Recombine.Value
