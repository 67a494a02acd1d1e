import Mathlib.Data.List.Induction
import Recombine.Engine.RowWise
import Recombine.Proofs.Sequences

namespace Recombine.Row

lemma find?_map_snd (cells : List (String × Value)) (c : String) :
    ((cells.find? fun cell => cell.1 == c).map Prod.snd).isSome ↔ c ∈ columnsOf cells := by
  simp [List.mem_map, Prod.exists]

lemma get?_isSome_iff (r : Row) (c : String) : (r.get? c).isSome ↔ c ∈ r.columns :=
  find?_map_snd r.cells c

lemma value_of_not_mem {r : Row} {c : String} (h : c ∉ r.columns) : r.value c = .null := by
  rw [← get?_isSome_iff, Bool.not_eq_true, Option.isSome_eq_false_iff] at h
  simp [value, Option.isNone_iff_eq_none.mp h]

lemma value_empty (c : String) : (∅ : Row).value c = .null := rfl

lemma value_insert (r : Row) (column c : String) (v : Value) :
    (r.insert column v).value c = if c = column then v else r.value c := by
  rw [value, get?_insert]
  split <;> rfl

lemma cells_eq (r : Row) : r.cells = r.columns.map fun c => (c, r.value c) := by
  have hvalue : ∀ cell ∈ r.cells, (cell.1, r.value cell.1) = cell := by
    intro cell hcell
    rw [value, get?, Sequence.find?_of_nodup r.distinct hcell, Option.map_some, Option.getD_some]
  rw [columns, columnsOf, List.map_map]
  exact (List.map_id' r.cells).symm.trans
    (List.map_congr_left fun cell hcell => (hvalue cell hcell).symm)

lemma mem_columns_insert {r : Row} {column c : String} {v : Value} :
    c ∈ (r.insert column v).columns ↔ c = column ∨ c ∈ r.columns := by
  rw [columns_insert]
  split
  next h =>
    constructor
    · exact Or.inr
    · rintro (rfl | hc)
      · exact h
      · exact hc
  next h => simp [or_comm]

lemma insertAll_append (r : Row) (cs ds : List (String × Value)) :
    r.insertAll (cs ++ ds) = (r.insertAll cs).insertAll ds := by
  simp only [insertAll, List.foldl_append]

lemma ofList_append (cs ds : List (String × Value)) :
    ofList (cs ++ ds) = (ofList cs).insertAll ds :=
  insertAll_append ∅ cs ds

lemma mem_columns_insertAll {r : Row} {cs : List (String × Value)} {c : String} :
    c ∈ (r.insertAll cs).columns ↔ c ∈ r.columns ∨ c ∈ columnsOf cs := by
  induction cs generalizing r with
  | nil => simp [insertAll]
  | cons cell cs ih =>
    have hcons : c ∈ columnsOf (cell :: cs) ↔ c = cell.1 ∨ c ∈ columnsOf cs := List.mem_cons
    rw [insertAll, List.foldl_cons, ← insertAll, ih, mem_columns_insert, hcons]
    tauto

lemma mem_columns_ofList {cs : List (String × Value)} {c : String} :
    c ∈ (ofList cs).columns ↔ c ∈ columnsOf cs := by
  have h : c ∈ ((∅ : Row).insertAll cs).columns ↔ c ∈ [] ∨ c ∈ columnsOf cs :=
    mem_columns_insertAll
  exact h.trans (or_iff_right List.not_mem_nil)

lemma get?_insertAll_of_not_mem {r : Row} {cs : List (String × Value)} {c : String}
    (hc : ∀ cell ∈ cs, cell.1 ≠ c) : (r.insertAll cs).get? c = r.get? c := by
  induction cs generalizing r with
  | nil => rfl
  | cons cell cs ih =>
    obtain ⟨hne, hcs⟩ := List.forall_mem_cons.mp hc
    rw [insertAll, List.foldl_cons, ← insertAll, ih hcs, get?_insert, if_neg (Ne.symm hne)]

lemma get?_insertAll_of_mem {r : Row} {cs : List (String × Value)} {cell : String × Value}
    (hmem : cell ∈ cs) (hagree : ∀ other ∈ cs, other.1 = cell.1 → other.2 = cell.2) :
    (r.insertAll cs).get? cell.1 = some cell.2 := by
  induction cs generalizing r with
  | nil => cases hmem
  | cons first cs ih =>
    obtain ⟨-, hcs⟩ := List.forall_mem_cons.mp hagree
    rw [insertAll, List.foldl_cons, ← insertAll]
    by_cases hlater : ∀ other ∈ cs, other.1 ≠ cell.1
    · obtain rfl : cell = first :=
        (List.mem_cons.mp hmem).resolve_right fun hin => hlater cell hin rfl
      rw [get?_insertAll_of_not_mem hlater, get?_insert, if_pos rfl]
    · simp only [not_forall, not_not] at hlater
      obtain ⟨other, hother, hname⟩ := hlater
      have hcell : other = cell := Prod.ext hname (hcs other hother hname)
      exact ih (hcell ▸ hother) hcs

lemma value_insertAll_map (r : Row) (names : List String) (f : String → Value) (c : String) :
    (r.insertAll (names.map fun n => (n, f n))).value c = if c ∈ names then f c else r.value c := by
  split
  next hc =>
    have hcell : (c, f c) ∈ names.map fun n => (n, f n) := List.mem_map_of_mem hc
    have hagree : ∀ other ∈ names.map fun n => (n, f n), other.1 = c → other.2 = f c := by
      rintro other hother rfl
      obtain ⟨n, -, rfl⟩ := List.mem_map.mp hother
      rfl
    rw [value, get?_insertAll_of_mem hcell hagree, Option.getD_some]
  next hc =>
    rw [value, get?_insertAll_of_not_mem, value]
    rintro other hother rfl
    obtain ⟨n, hn, rfl⟩ := List.mem_map.mp hother
    exact hc hn

lemma cells_insertAll {r : Row} {cs : List (String × Value)}
    (h : (r.columns ++ columnsOf cs).Nodup) : (r.insertAll cs).cells = r.cells ++ cs := by
  induction cs generalizing r with
  | nil => simp [insertAll]
  | cons cell cs ih =>
    have hnot : cell.1 ∉ r.columns := by
      intro hmem
      exact (List.nodup_append.mp h).2.2 _ hmem _ List.mem_cons_self rfl
    have hcols : (r.insert cell.1 cell.2).columns = r.columns ++ [cell.1] := by
      rw [columns_insert, if_neg hnot]
    have hcells : (r.insert cell.1 cell.2).cells = r.cells ++ [cell] := by
      rw [cells_eq, hcols, List.map_append, List.map_singleton, value_insert, if_pos rfl]
      congr 1
      rw [cells_eq r]
      refine List.map_congr_left fun c hc => ?_
      rw [value_insert, if_neg (fun (heq : c = cell.1) => hnot (heq ▸ hc))]
    rw [insertAll, List.foldl_cons, ← insertAll, ih, hcells, List.append_assoc,
      List.singleton_append]
    rw [hcols, List.append_assoc]
    simpa using h

lemma cells_ofList {cs : List (String × Value)} (h : (columnsOf cs).Nodup) :
    (ofList cs).cells = cs := by
  have h' : ((∅ : Row).columns ++ columnsOf cs).Nodup := h
  exact cells_insertAll h'

lemma columns_insertAll (r : Row) (cs : List (String × Value)) :
    (r.insertAll cs).columns = (r.columns ++ columnsOf cs).eraseDups := by
  induction cs using List.reverseRecOn with
  | nil =>
    have hself : r.columns.eraseDups = r.columns := Sequence.eraseDups_eq_self r.distinct
    rw [columnsOf, List.map_nil, List.append_nil, hself]
    rfl
  | append_singleton cs cell ih =>
    have hone : (r.insertAll cs).insertAll [cell] = (r.insertAll cs).insert cell.1 cell.2 := rfl
    have hcols : columnsOf (cs ++ [cell]) = columnsOf cs ++ [cell.1] := List.map_append
    rw [insertAll_append, hone, columns_insert, ih, hcols, ← List.append_assoc,
      Sequence.eraseDups_concat]
    simp only [List.mem_eraseDups, List.contains_eq_mem, decide_eq_true_iff]

lemma cells_insertAll_map (names : List String) (f : String → Value) :
    ((∅ : Row).insertAll (names.map fun n => (n, f n))).cells =
      names.eraseDups.map fun n => (n, f n) := by
  have hnames : columnsOf (names.map fun n => (n, f n)) = names := by
    rw [columnsOf, List.map_map]
    exact List.map_id names
  have hcols : ((∅ : Row).insertAll (names.map fun n => (n, f n))).columns = names.eraseDups := by
    rw [columns_insertAll, hnames]
    rfl
  rw [cells_eq, hcols]
  refine List.map_congr_left fun n hn => ?_
  rw [value_insertAll_map, if_pos (List.mem_eraseDups.mp hn)]

lemma mem_of_mem_set {column : String} {v : Value} {cells : List (String × Value)}
    {cell : String × Value} (h : cell ∈ set column v cells) :
    cell = (column, v) ∨ cell ∈ cells := by
  induction cells with
  | nil => exact Or.inl (List.mem_singleton.mp h)
  | cons other cells ih =>
    rw [set] at h
    split at h
    next =>
      rcases List.mem_cons.mp h with rfl | h
      · exact Or.inl rfl
      · exact Or.inr (List.mem_cons_of_mem other h)
    next =>
      rcases List.mem_cons.mp h with rfl | h
      · exact Or.inr List.mem_cons_self
      · exact (ih h).imp_right (List.mem_cons_of_mem other)

lemma mem_of_mem_cells_insertAll {r : Row} {cs : List (String × Value)} {cell : String × Value}
    (h : cell ∈ (r.insertAll cs).cells) : cell ∈ r.cells ∨ cell ∈ cs := by
  induction cs generalizing r with
  | nil => exact Or.inl h
  | cons c cs ih =>
    rcases ih h with h | h
    · rcases mem_of_mem_set h with rfl | h
      · exact Or.inr List.mem_cons_self
      · exact Or.inl h
    · exact Or.inr (List.mem_cons_of_mem c h)

lemma mem_of_mem_cells_ofList {cs : List (String × Value)} {cell : String × Value}
    (h : cell ∈ (ofList cs).cells) : cell ∈ cs := by
  have h' : cell ∈ ((∅ : Row).insertAll cs).cells := h
  exact (mem_of_mem_cells_insertAll h').resolve_left List.not_mem_nil

end Recombine.Row
