import Recombine.Proofs.Engine.GroupedRows
import Recombine.Proofs.Engine.Joins
import Recombine.Proofs.Values.Keys

/-! Rows are joined and grouped by keys, and filtered and compared by loose equality. Among cells
that are comparable the two agree. -/

namespace Recombine

open Tally (keysOf members)

namespace RowWise

def matchesLoosely (keys : List JoinKey) (l r : Row) : Bool :=
  keys.all fun k => (l.value k.left).looseEq (r.value k.right)

def alike (columns : List String) (r s : Row) : Bool :=
  columns.all fun c => (r.value c).looseEq (s.value c)

variable {keys : List JoinKey} {columns : List String} {l r s : Row} {left right rel : Relation}

lemma keyOf_eq_iff_matchesLoosely
    (h : ∀ k ∈ keys, (l.value k.left).Comparable (r.value k.right)) :
    keyOf (keys.map JoinKey.left) l = keyOf (keys.map JoinKey.right) r ↔
      matchesLoosely keys l r = true := by
  rw [keyOf_eq_keyOf_iff, matchesLoosely, List.all_eq_true]
  exact forall₂_congr fun k hk => (h k hk).key_eq_key_iff

lemma keyOf_eq_iff_alike (h : ∀ c ∈ columns, (r.value c).Comparable (s.value c)) :
    keyOf columns r = keyOf columns s ↔ alike columns r s = true := by
  rw [keyOf, keyOf, List.map_inj_left, alike, List.all_eq_true]
  exact forall₂_congr fun c hc => (h c hc).key_eq_key_iff

lemma matched_eq_loosely (h : ∀ l ∈ left, ∀ r ∈ right, ∀ k ∈ keys,
    (l.value k.left).Comparable (r.value k.right)) :
    matched left right keys =
      left.flatMap fun l => (right.filter (matchesLoosely keys l)).map fun r => (l, r) := by
  rw [matched, Grouping.matched_eq]
  refine List.flatMap_congr fun l hl => congrArg _ (List.filter_congr fun r hr => ?_)
  rw [Bool.eq_iff_iff, decide_eq_true_iff]
  exact keyOf_eq_iff_matchesLoosely (h l hl r hr)

lemma differs_iff_keys (h : ∀ c ∈ comparedColumns keys l.columns r.columns,
    (l.value c).Comparable (r.value c)) : differs keys l r = true ↔
      ∃ c ∈ comparedColumns keys l.columns r.columns, (l.value c).key ≠ (r.value c).key := by
  rw [differs, List.any_eq_true]
  refine exists_congr fun c => and_congr_right fun hc => ?_
  rw [Ne, (h c hc).key_eq_key_iff, Bool.not_eq_true, Bool.not_eq_true']

def firstsOf (columns : List String) (rel : Relation) : Relation :=
  (keysOf (keyOf columns) rel).map fun k => (members (keyOf columns) rel k).headD ∅

lemma first_mem {k : List Value.Key} (hk : k ∈ keysOf (keyOf columns) rel) :
    (members (keyOf columns) rel k).headD ∅ ∈ members (keyOf columns) rel k := by
  obtain ⟨first, rest, hmembers⟩ := List.exists_cons_of_ne_nil (Tally.members_ne_nil_iff.mpr hk)
  rw [hmembers]
  exact List.mem_cons_self

lemma firstsOf_subset : firstsOf columns rel ⊆ rel := by
  intro r hr
  obtain ⟨k, hk, rfl⟩ := List.mem_map.mp hr
  exact (Tally.mem_members.mp (first_mem hk)).1

lemma map_keyOf_firstsOf (columns : List String) (rel : Relation) :
    (firstsOf columns rel).map (keyOf columns) = keysOf (keyOf columns) rel := by
  rw [firstsOf, List.map_map]
  exact (List.map_congr_left fun k hk => (Tally.mem_members.mp (first_mem hk)).2).trans
    (List.map_id _)

lemma exists_unique_first (hs : s ∈ rel) :
    ∃! r, r ∈ firstsOf columns rel ∧ keyOf columns r = keyOf columns s := by
  have hkeys := map_keyOf_firstsOf columns rel
  have hk : keyOf columns s ∈ (firstsOf columns rel).map (keyOf columns) := by
    rw [hkeys]
    exact Tally.mem_keysOf.mpr ⟨s, hs, rfl⟩
  obtain ⟨r, hr, hkey⟩ := List.mem_map.mp hk
  refine ⟨r, ⟨hr, hkey⟩, fun r' hr' => ?_⟩
  exact List.inj_on_of_nodup_map (hkeys ▸ Tally.keysOf_nodup) hr'.1 hr (hr'.2.trans hkey.symm)

lemma aggregate_eq_alike {metrics : List Metric}
    (h : ∀ r ∈ rel, ∀ s ∈ rel, ∀ c ∈ columns, (r.value c).Comparable (s.value c)) :
    aggregate rel columns metrics = (firstsOf columns rel).map fun r =>
      groupRow columns metrics (rel.filter (alike columns r)) := by
  rw [aggregate_eq, ← map_keyOf_firstsOf, List.map_map]
  refine List.map_congr_left fun r hr => congrArg (groupRow columns metrics) ?_
  refine List.filter_congr fun s hs => ?_
  rw [Bool.eq_iff_iff, decide_eq_true_iff, ← keyOf_eq_iff_alike (h r (firstsOf_subset hr) s hs)]
  exact eq_comm

/-- Two cells have one key just if they are loosely equal. So the rows that are joined, and those
that are grouped together, are loosely equal in the cells of their keys, while a filter for
equality and a comparison of rows tell cells apart as keys do. -/
theorem keys_agree_loosely :
    (∀ a b : Value, a.Comparable b → (a.key = b.key ↔ a.looseEq b = true)) ∧
    (∀ (left right : Relation) (keys : List JoinKey),
      (∀ l ∈ left, ∀ r ∈ right, ∀ k ∈ keys, (l.value k.left).Comparable (r.value k.right)) →
      operators.join left right keys = .ok (left.flatMap fun l =>
        (right.filter (matchesLoosely keys l)).map (joinRow keys l))) ∧
    (∀ (rel : Relation) (columns : List String) (metrics : List Metric),
      (∀ r ∈ rel, ∀ s ∈ rel, ∀ c ∈ columns, (r.value c).Comparable (s.value c)) →
      ∃ firsts : Relation, firsts ⊆ rel ∧ firsts.Nodup ∧
        (∀ s ∈ rel, ∃! r, r ∈ firsts ∧ alike columns r s = true) ∧
        operators.aggregate rel columns metrics = .ok (firsts.map fun r =>
          groupRow columns metrics (rel.filter (alike columns r)))) ∧
    (∀ (rel : Relation) (column : String) (b : Value),
      (∀ r ∈ rel, (r.value column).Comparable b) →
      operators.filter rel [⟨column, .eq, .scalar b⟩] =
        .ok (rel.filter fun r => (r.value column).key = b.key)) ∧
    (∀ (keys : List JoinKey) (l r : Row),
      (∀ c ∈ comparedColumns keys l.columns r.columns, (l.value c).Comparable (r.value c)) →
      (differs keys l r = true ↔
        ∃ c ∈ comparedColumns keys l.columns r.columns, (l.value c).key ≠ (r.value c).key)) := by
  refine ⟨fun a b h => h.key_eq_key_iff, fun left right keys h => ?_, fun rel columns metrics h => ?_,
    fun rel column b h => ?_, fun keys l r h => differs_iff_keys h⟩
  · change Except.ok (join left right keys) = _
    rw [join, matched_eq_loosely h, List.map_flatMap]
    simp only [List.map_map]
    rfl
  · refine ⟨firstsOf columns rel, firstsOf_subset, ?_, fun s hs => ?_, ?_⟩
    · exact List.Nodup.of_map (keyOf columns) (map_keyOf_firstsOf columns rel ▸ Tally.keysOf_nodup)
    · refine (existsUnique_congr fun r => and_congr_right fun hr => ?_).mp (exists_unique_first hs)
      exact keyOf_eq_iff_alike (h r (firstsOf_subset hr) s hs)
    · exact congrArg Except.ok (aggregate_eq_alike h)
  · change Except.ok (filter rel _) = _
    refine congrArg Except.ok (List.filter_congr fun r hr => ?_)
    rw [Bool.eq_iff_iff, decide_eq_true_iff, (h r hr).key_eq_key_iff, List.all_cons, List.all_nil,
      Bool.and_true]
    rfl

def edgeKeys : Relation :=
  [.ofList [("x", .int 9007199254740992)], .ofList [("x", .float (-0.0))],
    .ofList [("x", .float (1 / 0))], .ofList [("x", .float 0.5)]]

def otherEdgeKeys : Relation :=
  [.ofList [("y", .int 0)], .ofList [("y", .float 9007199254740992)], .ofList [("y", .text "0")],
    .ofList [("y", .float (1 / 0))]]

theorem edgeKeys_agree_loosely :
    ((Value.int 0).key = (Value.float (-0.0)).key ↔
      (Value.int 0).looseEq (.float (-0.0)) = true) ∧
    operators.join edgeKeys otherEdgeKeys [⟨"x", "y"⟩] =
      .ok [.ofList [("x", .int 9007199254740992)], .ofList [("x", .float (-0.0))],
        .ofList [("x", .float (1 / 0))]] ∧
    operators.join edgeKeys otherEdgeKeys [⟨"x", "y"⟩] = .ok (edgeKeys.flatMap fun l =>
      (otherEdgeKeys.filter (matchesLoosely [⟨"x", "y"⟩] l)).map (joinRow [⟨"x", "y"⟩] l)) ∧
    (∃ firsts : Relation, firsts ⊆ edgeKeys ∧
      operators.aggregate edgeKeys ["x"] [] = .ok (firsts.map fun r =>
        groupRow ["x"] [] (edgeKeys.filter (alike ["x"] r)))) ∧
    operators.filter otherEdgeKeys [⟨"y", .eq, .scalar (.float (-0.0))⟩] =
      .ok (otherEdgeKeys.filter fun r => (r.value "y").key = (Value.float (-0.0)).key) ∧
    (differs [] (.ofList [("x", .float 1)]) (.ofList [("x", .int 1)]) = true ↔
      ∃ c ∈ ["x"], ((Row.ofList [("x", .float 1)]).value c).key ≠
        ((Row.ofList [("x", .int 1)]).value c).key) := by
  obtain ⟨hkeys, hjoin, hgroups, hfilter, hdiffers⟩ := keys_agree_loosely
  obtain ⟨firsts, hfirsts, -, -, haggregate⟩ := hgroups edgeKeys ["x"] [] (by decide +kernel)
  refine ⟨hkeys _ _ (by decide +kernel), congrArg Except.ok ?_, hjoin _ _ _ (by decide +kernel),
    ⟨firsts, hfirsts, haggregate⟩, hfilter _ _ _ (by decide +kernel),
    hdiffers [] (.ofList [("x", .float 1)]) (.ofList [("x", .int 1)]) (by decide +kernel)⟩
  decide +kernel

end RowWise

end Recombine
