import Recombine.Proofs.Engine.Joins
import Recombine.Proofs.Numbers.Order
import Recombine.Proofs.Rows

/-! Compared rows: what they hold of the two rows that differ, when a key gives way to a compared
column, and what comes of an exchange of the sides. -/

namespace Recombine

lemma Value.looseEq_comm (a b : Value) : a.looseEq b = b.looseEq a := by
  cases a <;> cases b <;> first | rfl | exact Number.beq_comm _ _ | exact BEq.comm

namespace JoinKey

def swap (k : JoinKey) : JoinKey := ⟨k.right, k.left⟩

lemma map_left_swap (keys : List JoinKey) : (keys.map swap).map left = keys.map right := by
  rw [List.map_map]
  rfl

lemma map_right_swap (keys : List JoinKey) : (keys.map swap).map right = keys.map left := by
  rw [List.map_map]
  rfl

end JoinKey

lemma leftName_ne_rightName (c d : String) : "left_" ++ c ≠ "right_" ++ d := by
  intro h
  have hhead := congrArg (fun s => s.toList.head?) h
  simp at hhead

namespace RowWise

variable {keys : List JoinKey} {l r : Row} {c : String}

def IsCompared (keys : List JoinKey) (l r : Row) (c : String) : Prop :=
  c ∈ l.columns ∧ c ∉ keys.map JoinKey.left ∨ c ∈ r.columns ∧ c ∉ keys.map JoinKey.right

def IsSideName (keys : List JoinKey) (l r : Row) (name : String) : Prop :=
  ∃ c, IsCompared keys l r c ∧ (name = "left_" ++ c ∨ name = "right_" ++ c)

structure Shows (keys : List JoinKey) (l r row : Row) : Prop where
  key : ∀ k ∈ keys, row.get? k.left = some (l.value k.left)
  left : ∀ c, IsCompared keys l r c → row.get? ("left_" ++ c) = some (l.value c)
  right : ∀ c, IsCompared keys l r c → row.get? ("right_" ++ c) = some (r.value c)
  columns : ∀ name ∈ row.columns, name ∈ keys.map JoinKey.left ∨ IsSideName keys l r name

/-- The row holds each compared column with its left and its right value, and those keys whose
names no compared column takes. -/
structure Contrasts (keys : List JoinKey) (l r row : Row) : Prop where
  key : ∀ k ∈ keys, ¬ IsSideName keys l r k.left → row.get? k.left = some (l.value k.left)
  left : ∀ c, IsCompared keys l r c → row.get? ("left_" ++ c) = some (l.value c)
  right : ∀ c, IsCompared keys l r c → row.get? ("right_" ++ c) = some (r.value c)
  columns : ∀ name, name ∈ row.columns ↔ name ∈ keys.map JoinKey.left ∨ IsSideName keys l r name

def KeysStand (keys : List JoinKey) (l r : Row) : Prop :=
  ∀ k ∈ keys, ∀ c, IsCompared keys l r c →
    (k.left = "left_" ++ c → l.value k.left = l.value c) ∧
      (k.left = "right_" ++ c → l.value k.left = r.value c)

def comparedCells (keys : List JoinKey) (l r : Row) : List (String × Value) :=
  (comparedColumns keys l.columns r.columns).flatMap fun c =>
    [("left_" ++ c, l.value c), ("right_" ++ c, r.value c)]

lemma mem_comparedCells {cell : String × Value} : cell ∈ comparedCells keys l r ↔
    ∃ c, IsCompared keys l r c ∧
      (cell = ("left_" ++ c, l.value c) ∨ cell = ("right_" ++ c, r.value c)) := by
  simp only [comparedCells, List.mem_flatMap, mem_comparedColumns, List.mem_cons, List.not_mem_nil,
    or_false, IsCompared]

lemma get?_compareRow_of_mem {cell : String × Value} (hmem : cell ∈ comparedCells keys l r) :
    (compareRow keys l r).get? cell.1 = some cell.2 := by
  refine Row.get?_insertAll_of_mem hmem fun other hother hname => ?_
  obtain ⟨c, -, rfl | rfl⟩ := mem_comparedCells.mp hmem
  · obtain ⟨d, -, rfl | rfl⟩ := mem_comparedCells.mp hother
    · rw [(String.append_right_inj _).mp hname]
    · exact absurd hname.symm (leftName_ne_rightName c d)
  · obtain ⟨d, -, rfl | rfl⟩ := mem_comparedCells.mp hother
    · exact absurd hname (leftName_ne_rightName d c)
    · rw [(String.append_right_inj _).mp hname]

lemma get?_keyCells {k : JoinKey} (hk : k ∈ keys) :
    (Row.insertAll ∅ (keyCells keys l)).get? k.left = some (l.value k.left) := by
  have hcell : (k.left, l.value k.left) ∈ keyCells keys l := List.mem_map_of_mem hk
  refine Row.get?_insertAll_of_mem hcell fun other hother hname => ?_
  obtain ⟨k', -, rfl⟩ := List.mem_map.mp hother
  exact congrArg l.value hname

lemma mem_columns_compareRow {name : String} : name ∈ (compareRow keys l r).columns ↔
    name ∈ keys.map JoinKey.left ∨ IsSideName keys l r name := by
  have hkeys : columnsOf (keyCells keys l) = keys.map JoinKey.left := by
    rw [columnsOf, keyCells, List.map_map]
    rfl
  have hcells : name ∈ columnsOf (comparedCells keys l r) ↔ IsSideName keys l r name := by
    simp only [columnsOf, List.mem_map, mem_comparedCells, IsSideName]
    constructor
    · rintro ⟨_, ⟨c, hc, rfl | rfl⟩, rfl⟩
      · exact ⟨c, hc, Or.inl rfl⟩
      · exact ⟨c, hc, Or.inr rfl⟩
    · rintro ⟨c, hc, rfl | rfl⟩
      · exact ⟨_, ⟨c, hc, Or.inl rfl⟩, rfl⟩
      · exact ⟨_, ⟨c, hc, Or.inr rfl⟩, rfl⟩
  have hnone : name ∉ (∅ : Row).columns := List.not_mem_nil
  rw [compareRow, ← comparedCells, Row.mem_columns_insertAll, Row.mem_columns_insertAll, hkeys,
    hcells, or_iff_right hnone]

lemma contrasts_compareRow (keys : List JoinKey) (l r : Row) :
    Contrasts keys l r (compareRow keys l r) where
  key := by
    intro k hk hapart
    rw [compareRow, ← comparedCells, Row.get?_insertAll_of_not_mem, get?_keyCells hk]
    intro cell hcell hname
    obtain ⟨c, hc, rfl | rfl⟩ := mem_comparedCells.mp hcell
    · exact hapart ⟨c, hc, Or.inl hname.symm⟩
    · exact hapart ⟨c, hc, Or.inr hname.symm⟩
  left := fun c hc => get?_compareRow_of_mem (mem_comparedCells.mpr ⟨c, hc, Or.inl rfl⟩)
  right := fun c hc => get?_compareRow_of_mem (mem_comparedCells.mpr ⟨c, hc, Or.inr rfl⟩)
  columns := fun _ => mem_columns_compareRow

lemma Contrasts.shows_iff {row : Row} (h : Contrasts keys l r row) :
    Shows keys l r row ↔ KeysStand keys l r := by
  constructor
  · intro hshows k hk c hc
    constructor
    · intro hname
      have hkey := hshows.key k hk
      rw [hname, h.left c hc] at hkey
      rw [hname]
      exact (Option.some.inj hkey).symm
    · intro hname
      have hkey := hshows.key k hk
      rw [hname, h.right c hc] at hkey
      rw [hname]
      exact (Option.some.inj hkey).symm
  · intro hsame
    refine ⟨fun k hk => ?_, h.left, h.right, fun name => (h.columns name).mp⟩
    by_cases hside : IsSideName keys l r k.left
    · obtain ⟨c, hc, hname | hname⟩ := hside
      · rw [(hsame k hk c hc).1 hname, hname, h.left c hc]
      · rw [(hsame k hk c hc).2 hname, hname, h.right c hc]
    · exact h.key k hk hside

theorem compare_contrasts (left right : Relation) (keys : List JoinKey) :
    ∃ rows, operators.compare left right keys = .ok rows ∧
      List.Forall₂ (fun p row => Contrasts keys p.1 p.2 row ∧
          (Shows keys p.1 p.2 row ↔ KeysStand keys p.1 p.2))
        ((matched left right keys).filter fun p => Differ keys p.1 p.2) rows := by
  refine ⟨_, rfl, ?_⟩
  simp only [compare, ← differs_iff, Bool.decide_eq_true]
  refine List.forall₂_map_right_iff.mpr (List.forall₂_same.mpr fun p _ => ?_)
  have h := contrasts_compareRow keys p.1 p.2
  exact ⟨h, h.shows_iff⟩

def contrastKey : JoinKey := ⟨"left_v", "left_v"⟩

def contrastRow : Row := .ofList [("left_v", .int 1)]

def contrastOther : Row := .ofList [("left_v", .int 1), ("v", .int 3)]

theorem compare_replaces_key :
    operators.compare [contrastRow] [contrastOther] [contrastKey] =
      .ok [compareRow [contrastKey] contrastRow contrastOther] ∧
    (compareRow [contrastKey] contrastRow contrastOther).cells =
      [("left_v", .null), ("right_v", .int 3)] ∧
    contrastRow.value contrastKey.left = .int 1 ∧
    ¬ Shows [contrastKey] contrastRow contrastOther
      (compareRow [contrastKey] contrastRow contrastOther) := by
  have hcells : (compareRow [contrastKey] contrastRow contrastOther).cells =
      [("left_v", .null), ("right_v", .int 3)] := by
    decide
  refine ⟨by decide, hcells, by decide, fun hshows => ?_⟩
  have hkey := hshows.key contrastKey List.mem_cons_self
  rw [Row.get?, hcells] at hkey
  revert hkey
  decide

section Exchange

def KeysApart (keys : List JoinKey) (l r : Row) : Prop :=
  ∀ k ∈ keys, ¬ IsSideName keys l r k.left ∧ ¬ IsSideName keys l r k.right

structure Mirrors (keys : List JoinKey) (l r row row' : Row) : Prop where
  columns : ∀ name, name ∈ row.columns ∧ name ∉ keys.map JoinKey.left ↔ IsSideName keys l r name
  columns' : ∀ name, name ∈ row'.columns ∧ name ∉ keys.map JoinKey.right ↔ IsSideName keys l r name
  left : ∀ c, IsCompared keys l r c → row.get? ("left_" ++ c) = row'.get? ("right_" ++ c)
  right : ∀ c, IsCompared keys l r c → row.get? ("right_" ++ c) = row'.get? ("left_" ++ c)

lemma isCompared_swap : IsCompared (keys.map JoinKey.swap) r l c ↔ IsCompared keys l r c := by
  rw [IsCompared, JoinKey.map_left_swap, JoinKey.map_right_swap, or_comm, IsCompared]

lemma isSideName_swap {name : String} :
    IsSideName (keys.map JoinKey.swap) r l name ↔ IsSideName keys l r name :=
  exists_congr fun _ => and_congr_left fun _ => isCompared_swap

lemma matches_swap : Matches (keys.map JoinKey.swap) r l ↔ Matches keys l r := by
  rw [Matches, List.forall_mem_map, Matches]
  exact forall₂_congr fun _ _ => eq_comm

lemma differ_swap : Differ (keys.map JoinKey.swap) r l ↔ Differ keys l r := by
  refine exists_congr fun c => and_congr isCompared_swap ?_
  rw [Value.looseEq_comm]

variable {left right : Relation}

lemma places_nodup : (places keys left right).Nodup := by
  refine places_ascending.imp fun {p q} hlex heq => ?_
  subst heq
  rcases Prod.lex_def.mp hlex with hlt | ⟨-, hlt⟩
  · exact lt_irrefl _ hlt
  · exact lt_irrefl _ hlt

lemma places_swap_perm : (places (keys.map JoinKey.swap) right left).Perm
    ((places keys left right).map Prod.swap) := by
  have hnodup : (places keys left right).Nodup := places_nodup
  refine (List.perm_ext_iff_of_nodup places_nodup (hnodup.map Prod.swap_injective)).mpr fun p => ?_
  rw [mem_places, matches_swap, List.mem_map]
  constructor
  · exact fun h => ⟨p.swap, mem_places.mpr h, Prod.swap_swap p⟩
  · rintro ⟨q, hq, rfl⟩
    exact mem_places.mp hq

lemma matched_swap_perm : (matched right left (keys.map JoinKey.swap)).Perm
    ((matched left right keys).map Prod.swap) := by
  rw [matched_eq_map_places, matched_eq_map_places]
  refine (places_swap_perm.map _).trans ?_
  rw [List.map_map, List.map_map]
  exact List.Perm.refl _

lemma compare_swap_perm : (compare right left (keys.map JoinKey.swap)).Perm
    (((matched left right keys).filter fun p => differs keys p.1 p.2).map
      fun p => compareRow (keys.map JoinKey.swap) p.2 p.1) := by
  have hdiffers : ∀ p : Row × Row,
      differs (keys.map JoinKey.swap) p.2 p.1 = differs keys p.1 p.2 := by
    intro p
    rw [Bool.eq_iff_iff, differs_iff, differs_iff, differ_swap]
  have hmatched : (matched right left (keys.map JoinKey.swap)).Perm
      ((matched left right keys).map Prod.swap) := matched_swap_perm
  have hperm := hmatched.filter fun p => differs (keys.map JoinKey.swap) p.1 p.2
  rw [List.filter_map] at hperm
  refine (hperm.map _).trans ?_
  simp only [List.map_map, Function.comp_def, Prod.fst_swap, Prod.snd_swap, hdiffers]
  exact List.Perm.refl _

lemma mirrors_compareRow (h : KeysApart keys l r) :
    Mirrors keys l r (compareRow keys l r) (compareRow (keys.map JoinKey.swap) r l) := by
  have hthere := contrasts_compareRow keys l r
  have hback := contrasts_compareRow (keys.map JoinKey.swap) r l
  have hleft : ∀ name, IsSideName keys l r name → name ∉ keys.map JoinKey.left := by
    intro name hside hkey
    obtain ⟨k, hk, rfl⟩ := List.mem_map.mp hkey
    exact (h k hk).1 hside
  have hright : ∀ name, IsSideName keys l r name → name ∉ keys.map JoinKey.right := by
    intro name hside hkey
    obtain ⟨k, hk, rfl⟩ := List.mem_map.mp hkey
    exact (h k hk).2 hside
  constructor
  · intro name
    rw [hthere.columns, or_and_right, and_not_self_iff, false_or]
    exact and_iff_left_of_imp (hleft name)
  · intro name
    rw [hback.columns, JoinKey.map_left_swap, isSideName_swap, or_and_right, and_not_self_iff,
      false_or]
    exact and_iff_left_of_imp (hright name)
  · intro c hc
    rw [hthere.left c hc, hback.right c (isCompared_swap.mpr hc)]
  · intro c hc
    rw [hthere.right c hc, hback.left c (isCompared_swap.mpr hc)]

theorem compare_mirrors (left right : Relation) (keys : List JoinKey)
    (h : ∀ l ∈ left, ∀ r ∈ right, KeysApart keys l r) :
    ∃ rows rows' mirror, operators.compare left right keys = .ok rows ∧
      operators.compare right left (keys.map JoinKey.swap) = .ok rows' ∧ mirror.Perm rows' ∧
        List.Forall₂ (fun row row' => ∃ l ∈ left, ∃ r ∈ right, Mirrors keys l r row row')
          rows mirror := by
  refine ⟨_, _, _, rfl, rfl, compare_swap_perm.symm, ?_⟩
  refine List.forall₂_map_left_iff.mpr (List.forall₂_map_right_iff.mpr (List.forall₂_same.mpr ?_))
  intro p hp
  obtain ⟨hl, hr, -⟩ := Grouping.mem_matched.mp (List.mem_filter.mp hp).1
  exact ⟨p.1, hl, p.2, hr, mirrors_compareRow (h _ hl _ hr)⟩

def raggedLeft : Relation := [
  .ofList [("id", .int 1), ("v", .int 1)], .ofList [("id", .int 1), ("rid", .text "x")]]

def raggedRight : Relation := [
  .ofList [("rid", .int 1), ("v", .int 1), ("w", .null)], .ofList [("rid", .int 1), ("v", .int 2)],
  .ofList [("rid", .int 1), ("v", .int 2)]]

theorem compare_ragged_mirrors :
    (∀ l ∈ raggedLeft, ∀ r ∈ raggedRight, KeysApart [⟨"id", "rid"⟩] l r) ∧
    (compare raggedLeft raggedRight [⟨"id", "rid"⟩]).length = 5 ∧
    ∃ rows rows' mirror, operators.compare raggedLeft raggedRight [⟨"id", "rid"⟩] = .ok rows ∧
      operators.compare raggedRight raggedLeft [⟨"rid", "id"⟩] = .ok rows' ∧ mirror.Perm rows' ∧
        List.Forall₂ (fun row row' => ∃ l ∈ raggedLeft, ∃ r ∈ raggedRight,
          Mirrors [⟨"id", "rid"⟩] l r row row') rows mirror := by
  have hname : ∀ name ∈ ["id", "rid"], ∀ c, name ≠ "left_" ++ c ∧ name ≠ "right_" ++ c := by
    intro name hname c
    have hchars : name.toList ≠ ("left_" ++ c).toList ∧ name.toList ≠ ("right_" ++ c).toList := by
      rcases List.mem_pair.mp hname with rfl | rfl <;> simp
    exact ⟨fun heq => hchars.1 (congrArg _ heq), fun heq => hchars.2 (congrArg _ heq)⟩
  have hside : ∀ l r, ∀ name ∈ ["id", "rid"], ¬ IsSideName [⟨"id", "rid"⟩] l r name := by
    rintro l r name hmem ⟨c, -, hleft | hright⟩
    · exact (hname name hmem c).1 hleft
    · exact (hname name hmem c).2 hright
  have hapart : ∀ l ∈ raggedLeft, ∀ r ∈ raggedRight, KeysApart [⟨"id", "rid"⟩] l r := by
    intro l _ r _ k hk
    obtain rfl := List.mem_singleton.mp hk
    exact ⟨hside l r _ (by decide), hside l r _ (by decide)⟩
  exact ⟨hapart, by decide, compare_mirrors raggedLeft raggedRight [⟨"id", "rid"⟩] hapart⟩

end Exchange

end RowWise

end Recombine
