import Mathlib.Order.Bounds.Basic
import Recombine.Proofs.Graph.Countdown

/-! The layer of a vertex is the length of the longest path to it. -/

namespace Recombine.Graph

open Relation

variable {arcs : List Arc} {vs us : List String} {u v : String} {k n : ℕ}

inductive PathTo (arcs : List Arc) (vs : List String) : ℕ → String → Prop
  | start {v : String} (hv : v ∈ vs) : PathTo arcs vs 0 v
  | arc {n : ℕ} {u v : String} (hpath : PathTo arcs vs n u) (h : Leads arcs vs u v) :
      PathTo arcs vs (n + 1) v

def Layering.Puts (l : Layering) (k : ℕ) (v : String) : Prop :=
  ∃ layer, l.layers[k]? = some layer ∧ v ∈ layer

lemma PathTo.mem (h : PathTo arcs vs n v) : v ∈ vs := by
  cases h with
  | start hv => exact hv
  | arc _ h => exact h.2.2

lemma puts_peel_of_no_sources (hnone : sources arcs vs = []) : ¬ (peel arcs vs).Puts k v := by
  rintro ⟨layer, hlayer, -⟩
  rw [peel, if_pos hnone] at hlayer
  cases hlayer

lemma puts_peel_zero (hsome : sources arcs vs ≠ []) :
    (peel arcs vs).Puts 0 v ↔ v ∈ sources arcs vs := by
  rw [peel, if_neg hsome]
  simp [Layering.Puts]

lemma puts_peel_succ (hsome : sources arcs vs ≠ []) :
    (peel arcs vs).Puts (k + 1) v ↔ (peel arcs (without vs (sources arcs vs))).Puts k v := by
  conv_lhs => rw [peel, if_neg hsome]
  simp [Layering.Puts]

lemma mem_of_puts (h : (peel arcs vs).Puts k v) : v ∈ vs := by
  obtain ⟨layer, hlayer, hv⟩ := h
  exact (sublist_of_mem_layers layer (List.mem_of_getElem? hlayer)).subset hv

lemma puts_iff_mem_flatten {l : Layering} : (∃ k, l.Puts k v) ↔ v ∈ l.layers.flatten := by
  rw [List.mem_flatten]
  constructor
  · rintro ⟨k, layer, hlayer, hv⟩
    exact ⟨layer, List.mem_of_getElem? hlayer, hv⟩
  · rintro ⟨layer, hlayer, hv⟩
    obtain ⟨k, hk⟩ := List.mem_iff_getElem?.mp hlayer
    exact ⟨k, layer, hk, hv⟩

lemma puts_or_unplaced (hv : v ∈ vs) :
    (∃ k, (peel arcs vs).Puts k v) ∨ v ∈ (peel arcs vs).unplaced := by
  rw [puts_iff_mem_flatten, ← List.mem_append]
  exact flatten_perm.symm.subset hv

lemma not_unplaced_of_puts (hvs : vs.Nodup) (h : (peel arcs vs).Puts k v) :
    v ∉ (peel arcs vs).unplaced := by
  have hnodup : ((peel arcs vs).layers.flatten ++ (peel arcs vs).unplaced).Nodup :=
    flatten_perm.symm.nodup hvs
  exact List.disjoint_of_nodup_append hnodup (puts_iff_mem_flatten.mp ⟨k, h⟩)

lemma exists_arc_of_puts (h : (peel arcs vs).Puts (k + 1) v) :
    ∃ u, (peel arcs vs).Puts k u ∧ (u, v) ∈ arcs := by
  induction vs using peel.induct arcs generalizing k with
  | case1 vs hnone => exact absurd h (puts_peel_of_no_sources hnone)
  | case2 vs hsome ih =>
    rw [puts_peel_succ hsome] at h
    cases k with
    | zero =>
      obtain ⟨hv, hwait⟩ := mem_without_iff.mp (mem_of_puts h)
      have hlast : sources arcs (without vs (sources arcs vs)) ≠ [] :=
        fun hnone => puts_peel_of_no_sources hnone h
      have hfree := (mem_sources_iff.mp ((puts_peel_zero hlast).mp h)).2
      rw [mem_sources_iff, not_and] at hwait
      obtain ⟨u, hu⟩ := not_forall.mp (hwait hv)
      obtain ⟨hmem, ha⟩ := Classical.not_imp.mp hu
      rw [not_not] at ha
      refine ⟨u, (puts_peel_zero hsome).mpr ?_, ha⟩
      by_contra hlater
      exact hfree u (mem_without_iff.mpr ⟨hmem, hlater⟩) ha
    | succ k =>
      obtain ⟨u, hu, ha⟩ := ih h
      exact ⟨u, (puts_peel_succ hsome).mpr hu, ha⟩

lemma pathTo_of_puts (h : (peel arcs vs).Puts k v) : PathTo arcs vs k v := by
  induction k generalizing v with
  | zero => exact .start (mem_of_puts h)
  | succ k ih =>
    obtain ⟨u, hu, ha⟩ := exists_arc_of_puts h
    exact .arc (ih hu) ⟨ha, mem_of_puts hu, mem_of_puts h⟩

lemma le_of_pathTo (hvs : vs.Nodup) (hpath : PathTo arcs vs n v) (h : (peel arcs vs).Puts k v) :
    n ≤ k := by
  induction hpath generalizing k with
  | start => exact Nat.zero_le k
  | @arc n u v hpath ha ih =>
    -- A vertex behind a cycle could not lead to one with a layer.
    have hu : u ∉ (peel arcs vs).unplaced := by
      intro hu
      obtain ⟨c, hc, hcu⟩ := mem_unplaced_iff.mp hu
      exact not_unplaced_of_puts hvs h (mem_unplaced_iff.mpr ⟨c, hc, hcu.tail ha⟩)
    obtain ⟨j, hj⟩ := (puts_or_unplaced hpath.mem).resolve_right hu
    have hlt : j < k := by
      obtain ⟨_, hlayer, hu⟩ := hj
      obtain ⟨_, hlayer', hv⟩ := h
      exact lt_of_arc ha.1 hlayer hu hlayer' hv
    exact Nat.succ_le_of_lt (Nat.lt_of_le_of_lt (ih hj) hlt)

lemma puts_peel_iff (hvs : vs.Nodup) : (peel arcs vs).Puts k v ↔
    v ∈ vs ∧ v ∉ (peel arcs vs).unplaced ∧ IsGreatest {n | PathTo arcs vs n v} k := by
  have hlongest {j : ℕ} (h : (peel arcs vs).Puts j v) : IsGreatest {n | PathTo arcs vs n v} j :=
    ⟨pathTo_of_puts h, fun _ hpath => le_of_pathTo hvs hpath h⟩
  constructor
  · intro h
    exact ⟨mem_of_puts h, not_unplaced_of_puts hvs h, hlongest h⟩
  · rintro ⟨hv, hplaced, hk⟩
    obtain ⟨j, hj⟩ := (puts_or_unplaced hv).resolve_right hplaced
    rwa [hk.unique (hlongest hj)]

lemma layers_ne_nil : ∀ layer ∈ (peel arcs vs).layers, layer ≠ [] := by
  induction vs using peel.induct arcs with
  | case1 vs hnone =>
    rw [peel, if_pos hnone]
    simp
  | case2 vs hsome ih =>
    rw [peel, if_neg hsome]
    exact List.forall_mem_cons.mpr ⟨hsome, ih⟩

lemma unplaced_sublist : (peel arcs vs).unplaced.Sublist vs := by
  induction vs using peel.induct arcs with
  | case1 vs hnone =>
    rw [peel, if_pos hnone]
  | case2 vs hsome ih =>
    rw [peel, if_neg hsome]
    exact ih.trans List.filter_sublist

structure Layering.Exact (l : Layering) (vertices : List String) (arcs : List Arc) : Prop where
  nodup : (l.layers.flatten ++ l.unplaced).Nodup
  mem_iff : ∀ v, v ∈ l.layers.flatten ++ l.unplaced ↔ v ∈ vertices
  unplaced_iff : ∀ v, v ∈ l.unplaced ↔
    ∃ c, TransGen (Leads arcs vertices) c c ∧ ReflTransGen (Leads arcs vertices) c v
  puts_iff : ∀ k v, l.Puts k v ↔
    v ∈ vertices ∧ v ∉ l.unplaced ∧ IsGreatest {n | PathTo arcs vertices n v} k
  layers_ne_nil : ∀ layer ∈ l.layers, layer ≠ []
  layers_ascending : ∀ layer ∈ l.layers, layer.Pairwise (· < ·)
  unplaced_ascending : l.unplaced.Pairwise (· < ·)

lemma pathTo_congr (h : ∀ v, v ∈ vs ↔ v ∈ us) : PathTo arcs vs n v ↔ PathTo arcs us n v := by
  have hmono {vs us : List String} (hsub : ∀ v, v ∈ vs → v ∈ us) (hpath : PathTo arcs vs n v) :
      PathTo arcs us n v := by
    induction hpath with
    | start hv => exact .start (hsub _ hv)
    | arc _ ha ih => exact .arc ih ⟨ha.1, hsub _ ha.2.1, hsub _ ha.2.2⟩
  exact ⟨hmono fun v => (h v).mp, hmono fun v => (h v).mpr⟩

lemma leads_congr (h : ∀ v, v ∈ vs ↔ v ∈ us) : Leads arcs vs = Leads arcs us := by
  funext u v
  simp only [Leads, h]

lemma exact_layering (vertices : List String) (arcs : List Arc) :
    (layering vertices arcs).Exact vertices arcs := by
  have hmem : ∀ v, v ∈ (KeyMap.ofKeys vertices).keys ↔ v ∈ vertices :=
    fun _ => KeyMap.mem_keys_ofKeys
  have hkeys := (KeyMap.ofKeys vertices).keys_ascending
  have hnodup := (KeyMap.ofKeys vertices).keys_nodup
  rw [layering_eq]
  refine ⟨flatten_perm.symm.nodup hnodup, fun v => ?_, fun v => ?_, fun k v => ?_,
    layers_ne_nil, fun layer hlayer => ?_, hkeys.sublist unplaced_sublist⟩
  · rw [flatten_perm.mem_iff, hmem]
  · rw [mem_unplaced_iff, leads_congr hmem]
  · rw [puts_peel_iff hnodup, hmem]
    simp only [pathTo_congr hmem]
  · exact hkeys.sublist (sublist_of_mem_layers layer hlayer)

/-- Counting off arcs ends with the layers, and never takes more arcs from a vertex than it has. -/
theorem layering_exact (vertices : List String) (arcs : List Arc) :
    (∃ c, (Countdown.start vertices arcs).Reaches c ∧ c.step = none ∧
      c.result = layering vertices arcs) ∧
    (∀ c, (Countdown.start vertices arcs).Reaches c →
      ∀ v n, c.counts.get? v = some n → 0 ≤ n) ∧
    (layering vertices arcs).Exact vertices arcs := by
  refine ⟨?_, fun c hreach v n hn => ?_, exact_layering vertices arcs⟩
  · obtain ⟨hreach, hstop⟩ := (Countdown.start vertices arcs).reaches_run
    exact ⟨_, hreach, hstop, rfl⟩
  · have hsound := Countdown.sound_start.reaches hreach
    have hv := hsound.counts v (hsound.keys ▸ KeyMap.mem_keys_iff.mpr ⟨n, hn⟩)
    cases hn.symm.trans hv
    exact Int.natCast_nonneg _

end Recombine.Graph
