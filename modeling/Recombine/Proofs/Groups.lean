import Mathlib.Data.List.Basic
import Recombine.Engine.Grouping
import Recombine.Engine.Naming

namespace Recombine

namespace Grouping

variable {κ α β γ δ : Type} [DecidableEq κ]

lemma matched_eq (leftKey : α → κ) (rightKey : β → κ) (as : List α) (bs : List β) :
    matched leftKey rightKey as bs =
      as.flatMap fun a => (bs.filter fun b => leftKey a = rightKey b).map fun b => (a, b) := by
  simp only [matched, lookup_group]

lemma mem_matched {leftKey : α → κ} {rightKey : β → κ} {as : List α} {bs : List β} {p : α × β} :
    p ∈ matched leftKey rightKey as bs ↔
      p.1 ∈ as ∧ p.2 ∈ bs ∧ leftKey p.1 = rightKey p.2 := by
  obtain ⟨a, b⟩ := p
  simp [matched_eq]

lemma matched_map (f : α → γ) (g : β → δ) (leftKey : γ → κ) (rightKey : δ → κ) (as : List α)
    (bs : List β) : matched leftKey rightKey (as.map f) (bs.map g) =
      (matched (fun a => leftKey (f a)) (fun b => rightKey (g b)) as bs).map
        fun p => (f p.1, g p.2) := by
  simp only [matched_eq, List.flatMap_map, List.map_flatMap, List.filter_map, List.map_map]
  rfl

end Grouping

lemma freshName_congr {taken others : List String} {name : String}
    (h : ∀ n : String, name.length ≤ n.length → (n ∈ taken ↔ n ∈ others)) :
    freshName taken name = freshName others name := by
  fun_induction freshName taken name generalizing others with
  | case1 taken name hmem ih =>
    have hmem' : name ∈ others := (h name (Nat.le_refl _)).mp hmem
    have hrest : ∀ n : String, ("right_" ++ name).length ≤ n.length →
        (n ∈ taken.erase name ↔ n ∈ others.erase name) := by
      intro n hn
      have hne : n ≠ name := by
        rintro rfl
        have hmark : "right_".length = 6 := rfl
        rw [String.length_append, hmark] at hn
        omega
      rw [List.mem_erase_of_ne hne, List.mem_erase_of_ne hne]
      apply h
      rw [String.length_append] at hn
      omega
    rw [ih hrest, freshName.eq_1 others name, if_pos hmem']
  | case2 taken name hmem =>
    have hmem' : name ∉ others := fun hn => hmem ((h name (Nat.le_refl _)).mpr hn)
    rw [freshName.eq_1, if_neg hmem']

end Recombine
