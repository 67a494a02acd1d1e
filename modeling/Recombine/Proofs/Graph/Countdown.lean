import Mathlib.Data.List.Count
import Mathlib.Logic.Relation
import Recombine.Proofs.Graph.Layers

/-! Counting off arcs peels a graph. While it is under way, the count of a vertex is the number of
arcs to it from vertices that have no layer yet, and of those still to be counted off. -/

namespace Recombine.Graph

open Relation

variable {arcs : List Arc} {vs us vertices : List String} {u v : String}

def endsOf (arcs : List Arc) (vs : List String) (u : String) : List String :=
  (arcs.filter fun a => a.1 == u && vs.contains a.2).map Prod.snd

lemma inDegree_split (hsub : us ⊆ vs) :
    inDegree arcs vs v = inDegree arcs us v + inDegree arcs (without vs us) v := by
  rw [inDegree, List.countP_eq_countP_filter_add arcs _ fun a => us.contains a.1,
    List.countP_filter, List.countP_filter]
  congr 1
  · apply List.countP_congr
    intro a _
    simp only [Bool.and_eq_true, List.contains_eq_mem, decide_eq_true_eq]
    exact ⟨fun h => ⟨h.1.1, h.2⟩, fun h => ⟨⟨h.1, hsub h.2⟩, h.2⟩⟩
  · apply List.countP_congr
    intro a _
    simp [mem_without_iff, and_assoc]

lemma endsOf_subset : endsOf arcs vs u ⊆ vs := by
  intro v hv
  obtain ⟨a, ha, rfl⟩ := List.mem_map.mp hv
  simpa using (Bool.and_eq_true_iff.mp (List.mem_filter.mp ha).2).2

lemma count_endsOf (hv : v ∈ vs) : (endsOf arcs vs u).count v = inDegree arcs [u] v := by
  rw [endsOf, List.count, List.countP_map, List.countP_filter]
  apply List.countP_congr
  intro a _
  simp only [Function.comp_apply, Bool.and_eq_true, beq_iff_eq, List.contains_eq_mem,
    decide_eq_true_eq, List.mem_singleton]
  constructor
  · rintro ⟨rfl, hu, -⟩
    exact ⟨rfl, hu⟩
  · rintro ⟨rfl, hu⟩
    exact ⟨rfl, hu, hv⟩

lemma count_flatMap_endsOf (hnodup : us.Nodup) (hv : v ∈ vs) :
    (us.flatMap (endsOf arcs vs)).count v = inDegree arcs us v := by
  induction us with
  | nil => simp [inDegree]
  | cons u us ih =>
    obtain ⟨hu, hnodup⟩ := List.nodup_cons.mp hnodup
    have hrest : without (u :: us) [u] = us := by
      rw [without, List.filter_cons_of_neg (by simp), List.filter_eq_self]
      intro w hw
      have hne : w ≠ u := fun heq => hu (heq ▸ hw)
      simpa using hne
    rw [List.flatMap_cons, List.count_append, ih hnodup, count_endsOf hv,
      inDegree_split (List.cons_subset_cons u (List.nil_subset us)), hrest]

lemma inDegree_concat {a : Arc} : inDegree (arcs ++ [a]) vs v =
    inDegree arcs vs v + if a.2 = v ∧ a.1 ∈ vs then 1 else 0 := by
  rw [inDegree, List.countP_append, List.countP_singleton]
  simp [inDegree]

lemma endsOf_concat {a : Arc} : endsOf (arcs ++ [a]) vs u =
    endsOf arcs vs u ++ if a.1 = u ∧ a.2 ∈ vs then [a.2] else [] := by
  rw [endsOf, List.filter_append, List.map_append, List.filter_singleton]
  split
  next h => simp [endsOf, h]
  next h =>
    have hfalse : (a.1 == u && vs.contains a.2) = false := by
      simpa [Bool.and_eq_true] using h
    rw [hfalse]
    rfl

namespace Countdown

variable {c d : Countdown} {a : Arc}

lemma addArc_of_known {n : Int} (hu : a.1 ∈ c.counts.keys) (hv : c.counts.get? a.2 = some n) :
    c.addArc a =
      { c with
        counts := c.counts.insert a.2 (n + 1)
        successors := c.successors.insert a.1 (c.targets a.1 ++ [a.2]) } := by
  rw [addArc, if_pos (KeyMap.contains_iff.mpr hu), hv]

lemma addArc_of_unknown (h : a.1 ∉ c.counts.keys ∨ a.2 ∉ c.counts.keys) : c.addArc a = c := by
  rw [addArc]
  split
  next hu =>
    have hv := h.resolve_left (not_not_intro (KeyMap.contains_iff.mp hu))
    split
    next => rfl
    next n hn => exact absurd (KeyMap.mem_keys_iff.mpr ⟨n, hn⟩) hv
  next => rfl

structure Counted (arcs : List Arc) (vs : List String) (c : Countdown) : Prop where
  keys : c.counts.keys = vs
  counts : ∀ v ∈ vs, c.counts.get? v = some ↑(inDegree arcs vs v)
  targets : ∀ u ∈ vs, c.targets u = endsOf arcs vs u
  pending : c.pending = []
  layers : c.layers = []

lemma counted_ofVertices : Counted [] (KeyMap.ofKeys vertices).keys (ofVertices vertices) where
  keys := KeyMap.keys_map _ _
  counts v hv := by
    obtain ⟨a, ha⟩ := KeyMap.mem_keys_iff.mp hv
    rw [ofVertices, KeyMap.get?_map, ha]
    rfl
  targets _ _ := rfl
  pending := rfl
  layers := rfl

lemma Counted.addArc (h : c.Counted arcs vs) : (c.addArc a).Counted (arcs ++ [a]) vs := by
  by_cases hknown : a.1 ∈ vs ∧ a.2 ∈ vs
  case pos =>
    obtain ⟨hu, hv⟩ := hknown
    rw [addArc_of_known (h.keys ▸ hu) (h.counts a.2 hv)]
    refine ⟨?_, fun v hv => ?_, fun u hu => ?_, h.pending, h.layers⟩
    · rw [KeyMap.keys_insert_of_mem (h.keys ▸ hv), h.keys]
    · rw [KeyMap.get?_insert, inDegree_concat, h.counts v hv]
      by_cases heq : v = a.2 <;> simp [heq, hu, Ne.symm]
    · rw [Countdown.targets, KeyMap.get?_insert, endsOf_concat, ← h.targets u hu]
      by_cases heq : u = a.1 <;> simp [heq, hv, Ne.symm, Countdown.targets]
  case neg =>
    rw [addArc_of_unknown (by rw [h.keys]; tauto)]
    refine ⟨h.keys, fun v hv => ?_, fun u hu => ?_, h.pending, h.layers⟩
    · have hnone : ¬ (a.2 = v ∧ a.1 ∈ vs) := fun ha => hknown ⟨ha.2, ha.1 ▸ hv⟩
      rw [inDegree_concat, if_neg hnone, h.counts v hv, Nat.add_zero]
    · have hnone : ¬ (a.1 = u ∧ a.2 ∈ vs) := fun ha => hknown ⟨ha.1 ▸ hu, ha.2⟩
      rw [endsOf_concat, if_neg hnone, h.targets u hu, List.append_nil]

lemma counted_foldl : (arcs.foldl addArc (ofVertices vertices)).Counted arcs
    (KeyMap.ofKeys vertices).keys := by
  induction arcs using List.reverseRecOn with
  | nil => exact counted_ofVertices
  | append_singleton arcs a ih =>
    rw [List.foldl_append]
    exact ih.addArc

structure Sound (arcs : List Arc) (vs : List String) (c : Countdown) : Prop where
  keys : c.counts.keys = vs
  targets : ∀ u ∈ vs, c.targets u = endsOf arcs vs u
  pending : c.pending ⊆ vs
  placed : ∀ v ∈ c.layers.flatten, v ∈ vs ∧ c.counts.get? v = some 0
  counts : ∀ v ∈ vs,
    c.counts.get? v = some ↑(inDegree arcs c.result.unplaced v + c.pending.count v)
  ready : ∀ v, v ∈ c.ready.keys ↔ v ∈ c.result.unplaced ∧ c.counts.get? v = some 0
  peel : peel arcs vs = ⟨c.layers ++ (peel arcs c.result.unplaced).layers,
    (peel arcs c.result.unplaced).unplaced⟩

lemma mem_result_unplaced : v ∈ c.result.unplaced ↔ v ∈ c.counts.keys ∧ v ∉ c.layers.flatten :=
  mem_without_iff

lemma mem_ready_release : v ∈ c.release.ready.keys ↔ c.counts.get? v = some 0 := by
  rw [release, KeyMap.keys_map, KeyMap.mem_keys_iff]
  simp [KeyMap.get?_filter_eq_some_iff]

lemma sound_start : (start vertices arcs).Sound arcs (KeyMap.ofKeys vertices).keys := by
  have h : (arcs.foldl addArc (ofVertices vertices)).Counted arcs _ := counted_foldl
  have hall : (start vertices arcs).result.unplaced = (KeyMap.ofKeys vertices).keys := by
    rw [← h.keys, result]
    simp [start, release, h.layers]
  refine ⟨h.keys, h.targets, ?_, ?_, ?_, ?_, ?_⟩
  · intro v hv
    rw [start, release, h.pending] at hv
    cases hv
  · intro v hv
    rw [start, release, h.layers] at hv
    cases hv
  · intro v hv
    rw [hall, start, release, h.pending]
    exact h.counts v hv
  · intro v
    rw [hall, start, mem_ready_release]
    refine ⟨fun hv => ⟨?_, hv⟩, fun hv => hv.2⟩
    rw [← h.keys]
    exact KeyMap.mem_keys_iff.mpr ⟨0, hv⟩
  · rw [hall, start, release, h.layers]
    rfl

lemma layers_countOff : (c.countOff v).layers = c.layers := by
  rw [countOff]
  split <;> rfl

lemma targets_countOff : (c.countOff v).targets = c.targets := by
  rw [countOff]
  split <;> rfl

lemma keys_countOff : (c.countOff v).counts.keys = c.counts.keys := by
  rw [countOff]
  split
  next => rfl
  next n hn => exact KeyMap.keys_insert_of_mem (KeyMap.mem_keys_iff.mpr ⟨n, hn⟩)

lemma result_countOff : (c.countOff v).result = c.result := by
  rw [result, result, layers_countOff, keys_countOff]

lemma counts_countOff {n : Int} (hn : c.counts.get? v = some n) :
    (c.countOff v).counts.get? u = if u = v then some (n - 1) else c.counts.get? u := by
  rw [countOff, hn]
  exact KeyMap.get?_insert _ _ _ _

lemma mem_ready_countOff {n : Int} (hn : c.counts.get? v = some n) :
    u ∈ (c.countOff v).ready.keys ↔ (u = v ∧ n - 1 = 0) ∨ u ∈ c.ready.keys := by
  rw [countOff, hn]
  by_cases hzero : n - 1 = 0 <;> simp [hzero, KeyMap.mem_keys_insert]

lemma Sound.countOff {rest : List String} (h : c.Sound arcs vs) (hpending : c.pending = v :: rest) :
    ({ c with pending := rest }.countOff v).Sound arcs vs := by
  have hv : v ∈ vs := h.pending (hpending ▸ List.mem_cons_self)
  have hn : c.counts.get? v = some ↑(inDegree arcs c.result.unplaced v + (rest.count v + 1)) := by
    rw [h.counts v hv, hpending, List.count_cons_self]
  have hcounts (w : String) := counts_countOff (c := { c with pending := rest }) (u := w) hn
  -- One more arc to it is to be counted off, so it has neither a layer nor been ready.
  have hpos : c.counts.get? v ≠ some 0 := by
    rw [hn, Ne, Option.some.injEq]
    omega
  have hopen : v ∈ c.result.unplaced :=
    mem_result_unplaced.mpr ⟨h.keys ▸ hv, fun hmem => hpos (h.placed v hmem).2⟩
  refine ⟨?_, ?_, ?_, fun w hw => ?_, fun w hw => ?_, fun w => ?_, ?_⟩
  · rw [keys_countOff, h.keys]
  · rw [targets_countOff]
    exact h.targets
  · rw [countOff_pending]
    exact fun w hw => h.pending (hpending ▸ List.mem_cons_of_mem v hw)
  · rw [layers_countOff] at hw
    obtain ⟨hmem, hzero⟩ := h.placed w hw
    have hne : w ≠ v := fun heq => hpos (heq ▸ hzero)
    rw [hcounts, if_neg hne]
    exact ⟨hmem, hzero⟩
  · rw [hcounts, result_countOff, countOff_pending]
    split
    next heq =>
      have hpred : (↑(inDegree arcs c.result.unplaced v + (rest.count v + 1)) : Int) - 1 =
          ↑(inDegree arcs c.result.unplaced v + rest.count v) := by omega
      rw [heq, hpred]
      rfl
    next hne =>
      rw [h.counts w hw, hpending, List.count_cons_of_ne (Ne.symm hne)]
      rfl
  · rw [hcounts, result_countOff, mem_ready_countOff (c := { c with pending := rest }) hn]
    split
    next heq =>
      have hnew : v ∉ c.ready.keys := fun hmem => hpos ((h.ready v).mp hmem).2
      rw [heq, Option.some.injEq, or_iff_left hnew]
      exact and_congr_left fun _ => iff_of_true rfl hopen
    next hne =>
      simp only [hne, false_and, false_or]
      exact h.ready w
  · rw [result_countOff, layers_countOff]
    exact h.peel

lemma unplaced_nextLayer :
    c.nextLayer.result.unplaced = without c.result.unplaced c.ready.keys := by
  rw [result, result, without, List.filter_filter]
  apply List.filter_congr
  intro v _
  simp [nextLayer, Bool.and_comm]

lemma Sound.ready_eq_sources (h : c.Sound arcs vs) (hpending : c.pending = []) :
    c.ready.keys = sources arcs c.result.unplaced := by
  have hkeys : c.result.unplaced.Pairwise (· < ·) := (KeyMap.keys_ascending _).filter _
  apply KeyMap.eq_of_ascending (KeyMap.keys_ascending _) (hkeys.filter _)
  intro v
  rw [h.ready, List.mem_filter]
  refine and_congr_right fun hv => ?_
  rw [h.counts v (h.keys ▸ (mem_result_unplaced.mp hv).1), hpending]
  simp

lemma Sound.pending_nextLayer (h : c.Sound arcs vs) :
    c.nextLayer.pending = c.ready.keys.flatMap (endsOf arcs vs) := by
  apply List.flatMap_congr
  intro u hu
  exact h.targets u (h.keys ▸ (mem_result_unplaced.mp ((h.ready u).mp hu).1).1)

lemma Sound.nextLayer (h : c.Sound arcs vs) (hpending : c.pending = [])
    (hready : c.ready.isEmpty = false) : c.nextLayer.Sound arcs vs := by
  have hsources := h.ready_eq_sources hpending
  have hsub : c.ready.keys ⊆ c.result.unplaced := fun v hv => ((h.ready v).mp hv).1
  refine ⟨h.keys, h.targets, ?_, fun v hv => ?_, fun v hv => ?_, fun v => ?_, ?_⟩
  · intro v hv
    rw [h.pending_nextLayer] at hv
    obtain ⟨u, -, hv⟩ := List.mem_flatMap.mp hv
    exact endsOf_subset hv
  · rw [Countdown.nextLayer, List.flatten_append, List.flatten_singleton] at hv
    rcases List.mem_append.mp hv with hv | hv
    · exact h.placed v hv
    · exact ⟨h.keys ▸ (mem_result_unplaced.mp (hsub hv)).1, ((h.ready v).mp hv).2⟩
  · have hcount := h.counts v hv
    rw [hpending, inDegree_split hsub, List.count_nil, Nat.add_zero, Nat.add_comm] at hcount
    rw [unplaced_nextLayer, h.pending_nextLayer, count_flatMap_endsOf c.ready.keys_nodup hv]
    exact hcount
  · rw [unplaced_nextLayer, mem_without_iff]
    refine iff_of_false List.not_mem_nil ?_
    rintro ⟨⟨hv, hnot⟩, hzero⟩
    exact hnot ((h.ready v).mpr ⟨hv, hzero⟩)
  · have hsome : sources arcs c.result.unplaced ≠ [] := by
      rw [← hsources]
      simpa [KeyMap.keys, KeyMap.isEmpty] using hready
    rw [h.peel, unplaced_nextLayer, hsources]
    conv_lhs => rw [Graph.peel, if_neg hsome]
    rw [Countdown.nextLayer, hsources, List.append_assoc]
    rfl

lemma Sound.step (h : c.Sound arcs vs) (hstep : c.step = some d) : d.Sound arcs vs := by
  rw [Countdown.step] at hstep
  split at hstep
  next v rest hpending =>
    cases hstep
    exact h.countOff hpending
  next hpending =>
    split at hstep
    next => cases hstep
    next hready =>
      cases hstep
      exact h.nextLayer hpending (by simpa using hready)

abbrev Reaches : Countdown → Countdown → Prop := ReflTransGen fun c d => c.step = some d

lemma Sound.reaches (h : c.Sound arcs vs) (hreach : c.Reaches d) : d.Sound arcs vs := by
  induction hreach with
  | refl => exact h
  | tail _ hstep ih => exact ih.step hstep

lemma reaches_run (c : Countdown) : c.Reaches c.run ∧ c.run.step = none := by
  induction c using run.induct with
  | case1 c hstop =>
    rw [run]
    split
    next => exact ⟨ReflTransGen.refl, hstop⟩
    next d hstep => cases hstop.symm.trans hstep
  | case2 c d hstep ih =>
    have hrun : c.run = d.run := by
      rw [run]
      split
      next hstop => cases hstop.symm.trans hstep
      next d' hstep' => cases hstep.symm.trans hstep'; rfl
    rw [hrun]
    exact ⟨ReflTransGen.head hstep ih.1, ih.2⟩

lemma Sound.result_of_halted (h : c.Sound arcs vs) (hstop : c.step = none) :
    c.result = Graph.peel arcs vs := by
  rw [Countdown.step] at hstop
  split at hstop
  next => cases hstop
  next hpending =>
    split at hstop
    next hready =>
      have hnone : sources arcs c.result.unplaced = [] := by
        rw [← h.ready_eq_sources hpending]
        simpa [KeyMap.keys, KeyMap.isEmpty] using hready
      rw [h.peel, Graph.peel, if_pos hnone, List.append_nil]
      rfl
    next => cases hstop

end Countdown

lemma layering_eq : layering vertices arcs = peel arcs (KeyMap.ofKeys vertices).keys := by
  obtain ⟨hreach, hstop⟩ := (Countdown.start vertices arcs).reaches_run
  exact (Countdown.sound_start.reaches hreach).result_of_halted hstop

end Recombine.Graph
