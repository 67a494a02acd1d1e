import Recombine.Row

namespace Recombine.Grouping

universe u v

variable {κ : Type u} {α : Type v} [DecidableEq κ]

def add (k : κ) (a : α) : List (κ × List α) → List (κ × List α)
  | [] => [(k, [a])]
  | g :: gs => if g.1 = k then (k, g.2 ++ [a]) :: gs else g :: add k a gs

def group (key : α → κ) (as : List α) : List (κ × List α) :=
  as.foldl (fun gs a => add (key a) a gs) []

def lookup (k : κ) (gs : List (κ × List α)) : List α :=
  match gs.find? fun g => g.1 == k with
  | some g => g.2
  | none => []

theorem lookup_add (k k' : κ) (a : α) (gs : List (κ × List α)) :
    lookup k (add k' a gs) = if k = k' then lookup k gs ++ [a] else lookup k gs := by
  induction gs with
  | nil => by_cases h : k = k' <;> simp [add, lookup, h, Ne.symm]
  | cons g gs ih =>
    simp only [add]
    split
    next heq =>
      by_cases h : k = k'
      · simp [lookup, h, heq]
      · simp [lookup, heq, Ne.symm h, h]
    next hne =>
      by_cases hg : g.1 = k
      · subst hg
        simp [lookup, hne]
      · simpa [lookup, List.find?_cons, hg] using ih

theorem lookup_group (key : α → κ) (as : List α) (k : κ) :
    lookup k (group key as) = as.filter fun a => k = key a := by
  suffices h : ∀ gs, lookup k (as.foldl (fun gs a => add (key a) a gs) gs) =
      lookup k gs ++ as.filter fun a => k = key a by
    exact h []
  induction as with
  | nil => simp
  | cons a as ih =>
    intro gs
    rw [List.foldl_cons, ih, lookup_add]
    by_cases hk : k = key a <;> simp [hk]

def matched {β : Type v} (leftKey : α → κ) (rightKey : β → κ) (as : List α) (bs : List β) :
    List (α × β) :=
  let index := group rightKey bs
  as.flatMap fun a => (lookup (leftKey a) index).map fun b => (a, b)

end Recombine.Grouping
