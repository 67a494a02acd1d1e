import Mathlib.Algebra.Order.BigOperators.Group.List
import Mathlib.Algebra.Order.Ring.Nat
import Mathlib.Logic.Relation
import Mathlib.Order.Bounds.Basic
import Recombine.Proofs.Engine.Joins
import Recombine.Proofs.Rows

namespace Recombine

def marked (name : String) : Nat → String
  | 0 => name
  | n + 1 => "right_" ++ marked name n

def Remarks (taken : List String) (name next : String) : Prop :=
  name ∈ taken ∧ next = "right_" ++ name

lemma length_marked (name : String) (n : Nat) :
    (marked name n).length = 6 * n + name.length := by
  induction n with
  | zero => rw [marked, Nat.mul_zero, Nat.zero_add]
  | succ n ih =>
    have hmark : "right_".length = 6 := rfl
    rw [marked, String.length_append, hmark, ih]
    omega

lemma marked_mark (name : String) (n : Nat) :
    marked ("right_" ++ name) n = marked name (n + 1) := by
  induction n with
  | zero => rfl
  | succ n ih =>
    rw [marked, ih]
    rfl

lemma marked_succ_ne (name : String) (n : Nat) : marked name (n + 1) ≠ name := by
  intro h
  have hlen := congrArg String.length h
  rw [length_marked] at hlen
  omega

lemma freshName_eq_marked (taken : List String) (name : String) :
    ∃ n, freshName taken name = marked name n ∧ IsLeast {n | marked name n ∉ taken} n := by
  fun_induction freshName taken name with
  | case1 taken name hmem ih =>
    obtain ⟨n, hname, hfree, hleast⟩ := ih
    rw [marked_mark] at hname
    rw [Set.mem_ofPred_eq, marked_mark, List.mem_erase_of_ne (marked_succ_ne name n)] at hfree
    refine ⟨n + 1, hname, hfree, fun m hm => ?_⟩
    cases m with
    | zero => exact absurd hmem hm
    | succ m =>
      have hm' : marked ("right_" ++ name) m ∉ taken.erase name := by
        rw [marked_mark]
        exact fun h => hm (List.mem_of_mem_erase h)
      exact Nat.succ_le_succ (hleast hm')
  | case2 taken name hfree => exact ⟨0, rfl, hfree, fun _ _ => Nat.zero_le _⟩

lemma wellFounded_remarks (taken : List String) :
    WellFounded fun next name => Remarks taken name next := by
  -- Names grow with each turn, and the lengths of those that are taken bound those that go on.
  have hmeasure := (measure fun name : String => (taken.map String.length).sum + 1 - name.length).wf
  refine Subrelation.wf ?_ hmeasure
  rintro next name ⟨hmem, rfl⟩
  have hle : name.length ≤ (taken.map String.length).sum :=
    List.le_sum_of_mem (List.mem_map_of_mem hmem)
  have hmark : "right_".length = 6 := rfl
  change _ - ("right_" ++ name).length < _ - name.length
  rw [String.length_append, hmark]
  omega

lemma remarks_freshName (taken : List String) (name : String) :
    Relation.ReflTransGen (Remarks taken) name (freshName taken name) := by
  obtain ⟨n, hname, -, hleast⟩ := freshName_eq_marked taken name
  have hturns : ∀ m ≤ n, Relation.ReflTransGen (Remarks taken) name (marked name m) := by
    intro m hm
    induction m with
    | zero => exact .refl
    | succ m ih =>
      have htaken : marked name m ∈ taken := by
        by_contra hfree
        have hle := hleast hfree
        omega
      exact (ih (by omega)).tail ⟨htaken, rfl⟩
  rw [hname]
  exact hturns n (Nat.le_refl n)

namespace RowWise

variable {keys : List JoinKey} {l r : Row}

def leftCells (keys : List JoinKey) (l : Row) : List (String × Value) :=
  ((keys.map JoinKey.left).eraseDups.map fun c => (c, l.value c)) ++
    l.cells.filter fun cell => cell.1 ∉ keys.map JoinKey.left

def rightCells (keys : List JoinKey) (r : Row) : List (String × Value) :=
  r.cells.filter fun cell => cell.1 ∉ keys.map JoinKey.right

/-- The same cells under free names: each name gets the fewest marks that keep it apart from those
that are taken, and is taken from there on. -/
inductive Renamed : List String → List (String × Value) → List (String × Value) → Prop
  | nil {taken : List String} : Renamed taken [] []
  | cons {taken : List String} {cell : String × Value} {cells renamed : List (String × Value)}
      {n : Nat} (hleast : IsLeast {n | marked cell.1 n ∉ taken} n)
      (hrest : Renamed (taken ++ [marked cell.1 n]) cells renamed) :
      Renamed taken (cell :: cells) ((marked cell.1 n, cell.2) :: renamed)

structure Joined (keys : List JoinKey) (l r row : Row) : Prop where
  cells : ∃ renamed, Renamed (columnsOf (leftCells keys l)) (rightCells keys r) renamed ∧
    row.cells = leftCells keys l ++ renamed
  columns_nodup : row.columns.Nodup
  size : row.size = (keys.map JoinKey.left).eraseDups.length +
    (l.columns.filter fun c => c ∉ keys.map JoinKey.left).length +
      (r.columns.filter fun c => c ∉ keys.map JoinKey.right).length

lemma Renamed.length_eq {taken : List String} {cells renamed : List (String × Value)}
    (h : Renamed taken cells renamed) : renamed.length = cells.length := by
  induction h with
  | nil => rfl
  | cons _ _ ih => rw [List.length_cons, List.length_cons, ih]

lemma cells_insertFresh (row : Row) (cell : String × Value) :
    (insertFresh row cell).cells = row.cells ++ [(freshName row.columns cell.1, cell.2)] := by
  have hnew : (row.columns ++ columnsOf [(freshName row.columns cell.1, cell.2)]).Nodup := by
    refine List.nodup_append.mpr ⟨row.distinct, List.nodup_singleton _, ?_⟩
    rintro c hc _ hname rfl
    rw [columnsOf, List.map_singleton, List.mem_singleton] at hname
    rw [hname] at hc
    exact freshName_not_mem row.columns cell.1 hc
  exact Row.cells_insertAll hnew

lemma renamed_foldl_insertFresh (row : Row) (cells : List (String × Value)) :
    ∃ renamed, Renamed row.columns cells renamed ∧
      (cells.foldl insertFresh row).cells = row.cells ++ renamed := by
  induction cells generalizing row with
  | nil => exact ⟨[], .nil, (List.append_nil _).symm⟩
  | cons cell cells ih =>
    obtain ⟨n, hname, hleast⟩ := freshName_eq_marked row.columns cell.1
    have hcells := cells_insertFresh row cell
    rw [hname] at hcells
    have hcols : (insertFresh row cell).columns = row.columns ++ [marked cell.1 n] := by
      rw [Row.columns, hcells, columnsOf, List.map_append]
      rfl
    obtain ⟨renamed, hrenamed, hrest⟩ := ih (insertFresh row cell)
    rw [hcols] at hrenamed
    refine ⟨_, .cons hleast hrenamed, ?_⟩
    rw [List.foldl_cons, hrest, hcells, List.append_assoc, List.singleton_append]

lemma filter_not_isLeft (keys : List JoinKey) (cells : List (String × Value)) :
    (cells.filter fun cell => !JoinKey.isLeft keys cell.1) =
      cells.filter fun cell => cell.1 ∉ keys.map JoinKey.left := by
  simp only [← JoinKey.isLeft_iff, Bool.not_eq_true, Bool.decide_eq_false]

lemma filter_not_isRight (keys : List JoinKey) (cells : List (String × Value)) :
    (cells.filter fun cell => !JoinKey.isRight keys cell.1) =
      cells.filter fun cell => cell.1 ∉ keys.map JoinKey.right := by
  simp only [← JoinKey.isRight_iff, Bool.not_eq_true, Bool.decide_eq_false]

lemma columnsOf_filter (cells : List (String × Value)) (names : List String) :
    columnsOf (cells.filter fun cell => cell.1 ∉ names) =
      (columnsOf cells).filter fun c => c ∉ names := by
  rw [columnsOf, columnsOf, List.filter_map]
  rfl

lemma cells_leftRow (keys : List JoinKey) (l : Row) : ((Row.insertAll ∅ (keyCells keys l)).insertAll
    (l.cells.filter fun cell => !JoinKey.isLeft keys cell.1)).cells = leftCells keys l := by
  have hkeys : keyCells keys l = (keys.map JoinKey.left).map fun c => (c, l.value c) := by
    rw [List.map_map]
    rfl
  have hcells := Row.cells_insertAll_map (keys.map JoinKey.left) l.value
  have hcols : (Row.insertAll ∅ (keyCells keys l)).columns =
      (keys.map JoinKey.left).eraseDups := by
    rw [Row.columns, hkeys, hcells, columnsOf, List.map_map]
    exact List.map_id _
  have hnew : ((Row.insertAll ∅ (keyCells keys l)).columns ++
      columnsOf (l.cells.filter fun cell => cell.1 ∉ keys.map JoinKey.left)).Nodup := by
    rw [hcols, columnsOf_filter]
    refine List.nodup_append.mpr ⟨Sequence.eraseDups_nodup _, l.distinct.filter _, ?_⟩
    rintro c hc _ hother rfl
    exact of_decide_eq_true (List.mem_filter.mp hother).2 (List.mem_eraseDups.mp hc)
  rw [filter_not_isLeft, Row.cells_insertAll hnew, hkeys, hcells, leftCells]

lemma joined_joinRow (keys : List JoinKey) (l r : Row) : Joined keys l r (joinRow keys l r) := by
  obtain ⟨renamed, hrenamed, hcells⟩ := renamed_foldl_insertFresh
    ((Row.insertAll ∅ (keyCells keys l)).insertAll
      (l.cells.filter fun cell => !JoinKey.isLeft keys cell.1)) (rightCells keys r)
  rw [cells_leftRow] at hcells
  rw [Row.columns, cells_leftRow] at hrenamed
  have hrow : (joinRow keys l r).cells = leftCells keys l ++ renamed := by
    rw [joinRow, filter_not_isRight]
    exact hcells
  refine ⟨⟨renamed, hrenamed, hrow⟩, (joinRow keys l r).distinct, ?_⟩
  have hleft := congrArg List.length (columnsOf_filter l.cells (keys.map JoinKey.left))
  have hright := congrArg List.length (columnsOf_filter r.cells (keys.map JoinKey.right))
  rw [columnsOf, List.length_map] at hleft hright
  rw [Row.size, hrow, List.length_append, hrenamed.length_eq, leftCells, List.length_append,
    List.length_map, rightCells, hleft, hright]
  rfl

theorem join_keeps_cells (left right : Relation) (keys : List JoinKey) :
    (∃ rows, operators.join left right keys = .ok rows ∧
      List.Forall₂ (fun p row => Joined keys p.1 p.2 row) (matched left right keys) rows) ∧
    (∀ taken, WellFounded fun next name => Remarks taken name next) ∧
    ∀ taken name, Relation.ReflTransGen (Remarks taken) name (freshName taken name) ∧
      freshName taken name ∉ taken := by
  refine ⟨⟨_, rfl, ?_⟩, wellFounded_remarks, fun taken name => ?_⟩
  · refine List.forall₂_map_right_iff.mpr (List.forall₂_same.mpr fun p _ => ?_)
    exact joined_joinRow keys p.1 p.2
  · exact ⟨remarks_freshName taken name, freshName_not_mem taken name⟩

end RowWise

end Recombine
