import Recombine.Engine.Basic
import Recombine.Proofs.Engine.Accumulators
import Recombine.Proofs.Rows
import Recombine.Proofs.Tallies

/-! Aggregated rows: one for each group of rows with equal keys, in the order in which the keys are
first seen. Extrema and exact sums of them, kept under their own names, are the same rows again. -/

namespace Recombine

open Tally (keysOf members)
open Total (HasNoFloat StaysInRange)

namespace RowWise

def metricCell (rows : List Row) (m : Metric) : String × Value :=
  (m.name, Accumulator.aggregate m.aggregation (rows.map (metricValue m)))

def groupRow (groupBy : List String) (metrics : List Metric) (rows : List Row) : Row :=
  let first := rows.headD ∅
  (Row.insertAll ∅ (groupBy.map fun c => (c, first.value c))).insertAll
    (metrics.map (metricCell rows))

variable {rel : Relation} {groupBy : List String} {metrics : List Metric} {m : Metric}
  {rows : List Row} {k : List Value.Key} {c : String}

lemma aggregate_eq (rel : Relation) (groupBy : List String) (metrics : List Metric) :
    aggregate rel groupBy metrics = (keysOf (keyOf groupBy) rel).map fun k =>
      groupRow groupBy metrics (members (keyOf groupBy) rel k) := by
  refine Tally.map_groups fun rows g h => ?_
  have hfirst : rows.headD ∅ = g.1 := by
    rw [List.headD_eq_head?_getD, h.first, Option.getD_some]
  rw [h.results, groupRow, hfirst]
  rfl

lemma value_groupRow_metric (hm : m ∈ metrics)
    (hown : ∀ other ∈ metrics, other.name = m.name → other = m) :
    (groupRow groupBy metrics rows).value m.name =
      Accumulator.aggregate m.aggregation (rows.map (metricValue m)) := by
  have hagree : ∀ cell ∈ metrics.map (metricCell rows), cell.1 = (metricCell rows m).1 →
      cell.2 = (metricCell rows m).2 := by
    intro cell hcell hname
    obtain ⟨other, hother, rfl⟩ := List.mem_map.mp hcell
    rw [hown other hother hname]
  rw [Row.value, groupRow]
  exact congrArg (·.getD .null) (Row.get?_insertAll_of_mem (List.mem_map_of_mem hm) hagree)

lemma value_groupRow_group (hc : c ∈ groupBy) (hmetrics : ∀ m ∈ metrics, m.name ≠ c) :
    (groupRow groupBy metrics rows).value c = (rows.headD ∅).value c := by
  have hother : ∀ cell ∈ metrics.map (metricCell rows), cell.1 ≠ c :=
    List.forall_mem_map.mpr hmetrics
  rw [groupRow, Row.value, Row.get?_insertAll_of_not_mem hother, ← Row.value,
    Row.value_insertAll_map, if_pos hc]

lemma counts_groupRow (hm : m ∈ metrics) (hcount : m.aggregation = .count)
    (hown : ∀ other ∈ metrics, other.name = m.name → other = m) :
    (groupRow groupBy metrics rows).value m.name = .int (Int64.ofNat rows.length) := by
  rw [value_groupRow_metric hm hown, hcount, Accumulator.aggregate_count, List.length_map]

lemma sum_length_members (key : Row → List Value.Key) (rel : Relation) :
    ((keysOf key rel).map fun k => (members key rel k).length).sum = rel.length := by
  rw [← List.length_flatMap]
  exact (Tally.flatMap_members_perm key rel).length_eq

lemma sum_integers_counts {counts : List Nat} (h : counts.sum < 2 ^ 63) :
    (Value.integers (counts.map fun n => .int (Int64.ofNat n))).sum = counts.sum := by
  induction counts with
  | nil => rfl
  | cons n counts ih =>
    rw [List.sum_cons] at h
    have hn : (Int64.ofNat n).toInt = n := Int64.toInt_ofNat_of_lt (by omega)
    have hrest := ih (by omega)
    have hfirst : (Value.int (Int64.ofNat n)).integer? = some (n : Int) := congrArg some hn
    rw [List.map_cons, Value.integers, List.filterMap_cons_some hfirst, List.sum_cons,
      ← Value.integers, hrest, List.sum_cons, Int.natCast_add]

theorem aggregate_groups (rel : Relation) (groupBy : List String) (metrics : List Metric) :
    ∃ (keys : List (List Value.Key)) (rows : Relation),
    operators.aggregate rel groupBy metrics = .ok rows ∧
    rows = keys.map (fun k => groupRow groupBy metrics (members (keyOf groupBy) rel k)) ∧
    (∀ k, k ∈ keys ↔ ∃ r ∈ rel, keyOf groupBy r = k) ∧
    keys.Pairwise (fun k l => (rel.findIdx fun r => keyOf groupBy r = k) <
      rel.findIdx fun r => keyOf groupBy r = l) ∧
    (∀ r ∈ rel, ∃! k, k ∈ keys ∧ r ∈ members (keyOf groupBy) rel k) ∧
    (keys.flatMap (members (keyOf groupBy) rel)).Perm rel ∧
    (∀ m ∈ metrics, m.aggregation = .count → (∀ other ∈ metrics, other.name = m.name → other = m) →
      (∃ counts : List Nat, counts.sum = rel.length ∧
        rows.map (·.value m.name) = counts.map fun n => .int (Int64.ofNat n)) ∧
      (rel.length < 2 ^ 63 →
        (Value.integers (rows.map (·.value m.name))).sum = rel.length)) ∧
    (rows = [] ↔ rel = []) := by
  refine ⟨keysOf (keyOf groupBy) rel, _, congrArg Except.ok (aggregate_eq rel groupBy metrics), rfl,
    fun _ => Tally.mem_keysOf, Tally.keysOf_ascending _ _, fun _ => Tally.exists_unique_key,
    Tally.flatMap_members_perm _ _, fun m hm hcount hown => ?_, ?_⟩
  · have hsizes := sum_length_members (keyOf groupBy) rel
    have hcells : ((keysOf (keyOf groupBy) rel).map fun k =>
        groupRow groupBy metrics (members (keyOf groupBy) rel k)).map (·.value m.name) =
          ((keysOf (keyOf groupBy) rel).map fun k => (members (keyOf groupBy) rel k).length).map
            fun n => .int (Int64.ofNat n) := by
      rw [List.map_map, List.map_map]
      exact List.map_congr_left fun k _ => counts_groupRow hm hcount hown
    refine ⟨⟨_, hsizes, hcells⟩, fun hlt => ?_⟩
    rw [hcells, sum_integers_counts (hsizes ▸ hlt), hsizes]
  · rw [List.map_eq_nil_iff, Tally.keysOf_eq_nil_iff]

def looseKeys : Relation :=
  [.ofList [("x", .null), ("v", .int 1)], .ofList [("x", .float 1), ("v", .int 2)],
    .ofList [("v", .int 3)], .ofList [("x", .int 1), ("w", .text "b")]]

def countAndSum : List Metric := [⟨"rows", .count, none⟩, ⟨"v", .sum, some "v"⟩]

theorem aggregate_looseKeys :
    operators.aggregate looseKeys ["x"] countAndSum =
      .ok [.ofList [("x", .null), ("rows", .int 2), ("v", .int 4)],
        .ofList [("x", .float 1), ("rows", .int 2), ("v", .int 2)]] ∧
    (Value.integers ((aggregate looseKeys ["x"] countAndSum).map (·.value "rows"))).sum =
      looseKeys.length := by
  have hrows : aggregate looseKeys ["x"] countAndSum =
      [.ofList [("x", .null), ("rows", .int 2), ("v", .int 4)],
        .ofList [("x", .float 1), ("rows", .int 2), ("v", .int 2)]] := by
    decide +kernel
  obtain ⟨keys, rows, hok, -, -, -, -, -, hcounts, -⟩ :=
    aggregate_groups looseKeys ["x"] countAndSum
  obtain ⟨-, hsum⟩ := hcounts ⟨"rows", .count, none⟩ List.mem_cons_self rfl (by decide)
  refine ⟨congrArg Except.ok hrows, ?_⟩
  rw [Except.ok.inj hok]
  exact hsum (by decide)

structure KeepsColumns (rel : Relation) (groupBy : List String) (metrics : List Metric) :
    Prop where
  names : (metrics.map Metric.name).Nodup
  apart : ∀ m ∈ metrics, m.name ∉ groupBy
  source : ∀ m ∈ metrics, m.source = some m.name
  aggregations : ∀ m ∈ metrics, m.aggregation = .min ∨ m.aggregation = .max ∨
    m.aggregation = .sum ∧ HasNoFloat (rel.map (·.value m.name)) ∧
      ∀ k ∈ keysOf (keyOf groupBy) rel,
        StaysInRange ((members (keyOf groupBy) rel k).map (·.value m.name))

lemma KeepsColumns.eq_of_name (h : KeepsColumns rel groupBy metrics) {other : Metric}
    (hm : m ∈ metrics) (hother : other ∈ metrics) (hname : other.name = m.name) : other = m :=
  List.inj_on_of_nodup_map h.names hother hm hname

lemma KeepsColumns.metricValue_eq (h : KeepsColumns rel groupBy metrics) (hm : m ∈ metrics)
    (r : Row) : metricValue m r = r.value m.name := by
  rw [metricValue, h.source m hm]
  rfl

lemma KeepsColumns.isExact (h : KeepsColumns rel groupBy metrics) (hm : m ∈ metrics)
    (hk : k ∈ keysOf (keyOf groupBy) rel) : Accumulator.IsExact m.aggregation
      ((members (keyOf groupBy) rel k).map (metricValue m)) := by
  rw [List.map_congr_left fun r _ => h.metricValue_eq hm r]
  refine (h.aggregations m hm).imp_right (Or.imp_right ?_)
  rintro ⟨hsum, hfloat, hstays⟩
  have hsub : (members (keyOf groupBy) rel k).map (·.value m.name) ⊆ rel.map (·.value m.name) :=
    List.map_subset _ (List.filter_subset_self _)
  exact ⟨hsum, fun x hx => hfloat x (hsub hx), hstays k hk⟩

lemma KeepsColumns.cells_groupRow (h : KeepsColumns rel groupBy metrics) (rows : List Row) :
    (groupRow groupBy metrics rows).cells =
      (groupBy.eraseDups.map fun c => (c, (rows.headD ∅).value c)) ++
        metrics.map (metricCell rows) := by
  have hcolumns : (Row.insertAll ∅ (groupBy.map fun c => (c, (rows.headD ∅).value c))).columns =
      groupBy.eraseDups := by
    rw [Row.columns, Row.cells_insertAll_map, columnsOf, List.map_map]
    exact List.map_id _
  have hnames : columnsOf (metrics.map (metricCell rows)) = metrics.map Metric.name := by
    rw [columnsOf, List.map_map]
    rfl
  rw [groupRow, Row.cells_insertAll, Row.cells_insertAll_map]
  rw [hcolumns, hnames]
  refine List.nodup_append.mpr ⟨Sequence.eraseDups_nodup _, h.names, fun c hc d hd heq => ?_⟩
  obtain ⟨m, hm, rfl⟩ := List.mem_map.mp hd
  exact h.apart m hm (heq ▸ List.mem_eraseDups.mp hc)

lemma KeepsColumns.value_group (h : KeepsColumns rel groupBy metrics) (hc : c ∈ groupBy) :
    (groupRow groupBy metrics rows).value c = (rows.headD ∅).value c :=
  value_groupRow_group hc fun m hm heq => h.apart m hm (heq ▸ hc)

lemma KeepsColumns.keyOf_groupRow (h : KeepsColumns rel groupBy metrics)
    (hk : k ∈ keysOf (keyOf groupBy) rel) :
    keyOf groupBy (groupRow groupBy metrics (members (keyOf groupBy) rel k)) = k := by
  obtain ⟨first, rest, hmembers⟩ := List.exists_cons_of_ne_nil (Tally.members_ne_nil_iff.mpr hk)
  have hfirst : first ∈ members (keyOf groupBy) rel k := hmembers ▸ List.mem_cons_self
  refine Eq.trans ?_ (Tally.mem_members.mp hfirst).2
  rw [hmembers]
  exact List.map_congr_left fun c hc => congrArg Value.key (h.value_group hc)

lemma KeepsColumns.groupRow_singleton (h : KeepsColumns rel groupBy metrics)
    (hk : k ∈ keysOf (keyOf groupBy) rel) :
    let row := groupRow groupBy metrics (members (keyOf groupBy) rel k)
    groupRow groupBy metrics [row] = row := by
  intro row
  refine Row.ext ((h.cells_groupRow [row]).trans (Eq.symm ((h.cells_groupRow _).trans ?_)))
  congr 1
  · exact List.map_congr_left fun c hc =>
      congrArg (Prod.mk c) (h.value_group (List.mem_eraseDups.mp hc)).symm
  · refine List.map_congr_left fun m hm => congrArg (Prod.mk m.name) ?_
    have hcell : metricValue m row = Accumulator.aggregate m.aggregation
        ((members (keyOf groupBy) rel k).map (metricValue m)) := by
      rw [h.metricValue_eq hm]
      exact value_groupRow_metric hm fun other => h.eq_of_name hm
    rw [List.map_singleton, hcell, (h.isExact hm hk).aggregate_singleton]

lemma aggregate_of_nodup (h : (rel.map (keyOf groupBy)).Nodup) :
    aggregate rel groupBy metrics = rel.map fun r => groupRow groupBy metrics [r] := by
  rw [aggregate_eq, Tally.keysOf_of_nodup h, List.map_map]
  exact List.map_congr_left fun r hr =>
    congrArg (groupRow groupBy metrics) (Tally.members_of_nodup h hr)

theorem aggregate_again (rel : Relation) (groupBy : List String) (metrics : List Metric)
    (h : KeepsColumns rel groupBy metrics) :
    ∃ rows, operators.aggregate rel groupBy metrics = .ok rows ∧
      operators.aggregate rows groupBy metrics = .ok rows := by
  refine ⟨_, rfl, congrArg Except.ok ?_⟩
  have hkeys : (aggregate rel groupBy metrics).map (keyOf groupBy) =
      keysOf (keyOf groupBy) rel := by
    rw [aggregate_eq, List.map_map]
    exact (List.map_congr_left fun k hk => h.keyOf_groupRow hk).trans (List.map_id _)
  rw [aggregate_of_nodup (hkeys ▸ Tally.keysOf_nodup), aggregate_eq, List.map_map]
  exact List.map_congr_left fun k hk => h.groupRow_singleton hk

def sumAndGreatest : List Metric := [⟨"v", .sum, some "v"⟩, ⟨"w", .max, some "w"⟩]

theorem aggregate_looseKeys_again : KeepsColumns looseKeys ["x"] sumAndGreatest ∧
    ∃ rows, operators.aggregate looseKeys ["x"] sumAndGreatest = .ok rows ∧
      operators.aggregate rows ["x"] sumAndGreatest = .ok rows := by
  have hcells : looseKeys.map (·.value "v") = [.int 1, .int 2, .int 3, .null] := by
    decide +kernel
  have hfloat : HasNoFloat (looseKeys.map (·.value "v")) := by
    rw [hcells]
    exact fun x => by simp
  have hstays : ∀ k ∈ keysOf (keyOf ["x"]) looseKeys,
      StaysInRange ((members (keyOf ["x"]) looseKeys k).map (·.value "v")) := by
    decide +kernel
  have hkeeps : KeepsColumns looseKeys ["x"] sumAndGreatest := by
    refine ⟨by decide, by decide, by decide, fun m hm => ?_⟩
    rcases List.mem_cons.mp hm with rfl | hm
    · exact Or.inr (Or.inr ⟨rfl, hfloat, hstays⟩)
    · rw [List.mem_singleton.mp hm]
      exact Or.inr (Or.inl rfl)
  exact ⟨hkeeps, aggregate_again _ _ _ hkeeps⟩

end RowWise

end Recombine
