import Recombine.Plan.Group

namespace Recombine

namespace JoinKey

def isLeft (keys : List JoinKey) (column : String) : Bool := keys.any fun k => k.left == column

def isRight (keys : List JoinKey) (column : String) : Bool := keys.any fun k => k.right == column

end JoinKey

/-- The name with as few marks in front of it as keep it apart from the names that are taken. A
name that was refused is shorter than all later ones, so that it need not be looked at again. -/
def freshName (taken : List String) (name : String) : String :=
  if name ∈ taken then freshName (taken.erase name) ("right_" ++ name) else name
termination_by taken.length
decreasing_by
  have h : name ∈ taken := ‹_›
  rw [List.length_erase_of_mem h]
  exact Nat.sub_lt (List.length_pos_of_mem h) Nat.one_pos

theorem length_le_freshName (taken : List String) (name : String) :
    name.length ≤ (freshName taken name).length := by
  fun_induction freshName taken name with
  | case1 taken name _ ih =>
    rw [String.length_append] at ih
    omega
  | case2 => exact Nat.le_refl _

theorem freshName_not_mem (taken : List String) (name : String) : freshName taken name ∉ taken := by
  fun_induction freshName taken name with
  | case1 taken name _ ih =>
    have hlen := length_le_freshName (taken.erase name) ("right_" ++ name)
    have hne : freshName (taken.erase name) ("right_" ++ name) ≠ name := by
      intro heq
      have hprefix : "right_".length = 6 := rfl
      rw [heq, String.length_append, hprefix] at hlen
      omega
    exact fun hmem => ih ((List.mem_erase_of_ne hne).2 hmem)
  | case2 _ _ h => exact h

def comparedColumns (keys : List JoinKey) (left right : List String) : List String :=
  let ls := left.filter fun c => !JoinKey.isLeft keys c
  ls ++ right.filter fun c => !JoinKey.isRight keys c && !ls.contains c

end Recombine
