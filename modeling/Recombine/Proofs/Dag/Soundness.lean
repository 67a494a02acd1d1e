import Recombine.Proofs.Dag.WellFormed

namespace Recombine

namespace Dag

lemma mem_operands_iff {es : List Edge} {id : String} :
    id ∈ Edge.operands es ↔ ∃ e ∈ es, e.source = id := by
  simp only [Edge.operands, List.mem_map, (List.mergeSort_perm es _).mem_iff]

structure Sound (d : Dag) : Prop where
  ascending : d.nodes.Pairwise fun m n => m.id < n.id
  ends : ∀ e ∈ d.edges, e.source ∈ d.nodeIds ∧ e.target ∈ d.nodeIds
  posts : ∀ n ∈ d.nodes, n.action.isPost = true →
    ∃ e ∈ d.edges, n.inputs = [e.source] ∧ e.target = n.id
  acyclic : Graph.Acyclic (d.edges.map Edge.arc)

structure IsOrder (d : Dag) (ids : List String) : Prop where
  perm : ids.Perm d.nodeIds
  inOrder : Graph.InOrder (d.edges.map Edge.arc) [] ids

variable {d : Dag}

lemma Sound.ids (h : d.Sound) : d.nodeIds.Nodup := nodeIds_nodup h.ascending

lemma Sound.keys_nodeIds (h : d.Sound) : (KeyMap.ofKeys d.nodeIds).keys = d.nodeIds :=
  KeyMap.keys_ofKeys_of_ascending (List.pairwise_map.mpr h.ascending)

lemma Sound.arc_ends (h : d.Sound) :
    ∀ a ∈ d.edges.map Edge.arc, a.1 ∈ d.nodeIds ∧ a.2 ∈ d.nodeIds := by
  intro a ha
  obtain ⟨e, he, rfl⟩ := List.mem_map.mp ha
  exact h.ends e he

lemma Sound.unplaced_eq_nil (h : d.Sound) :
    (Graph.peel (d.edges.map Edge.arc) d.nodeIds).unplaced = [] :=
  (Graph.unplaced_eq_nil_iff_acyclic h.arc_ends).mpr h.acyclic

lemma Sound.layers_eq (h : d.Sound) :
    d.layers = (Graph.peel (d.edges.map Edge.arc) d.nodeIds).layers := by
  rw [layers, layering, Graph.layering_eq, h.keys_nodeIds]

lemma Sound.layers_isOrder (h : d.Sound) : d.IsOrder d.layers.flatten := by
  rw [h.layers_eq]
  constructor
  · rw [← List.append_nil (List.flatten _), ← h.unplaced_eq_nil]
    exact Graph.flatten_perm
  · apply Graph.layers_inOrder
    intro v _ u ha
    exact Or.inl (h.arc_ends (u, v) ha).1

lemma layers_ascending (d : Dag) : ∀ layer ∈ d.layers, layer.Pairwise (· < ·) := by
  intro layer hlayer
  rw [layers, layering, Graph.layering_eq] at hlayer
  exact (KeyMap.keys_ascending _).sublist (Graph.sublist_of_mem_layers layer hlayer)

lemma mem_terminals_iff {id : String} :
    id ∈ d.terminals ↔ id ∈ d.nodeIds ∧ ∀ e ∈ d.edges, e.source ≠ id := by
  simp [terminals, List.mem_filter]

lemma IsOrder.last_mem_terminals {before : List String} {last : String} (hids : d.nodeIds.Nodup)
    (hends : ∀ e ∈ d.edges, e.target ∈ d.nodeIds) (h : d.IsOrder (before ++ [last])) :
    last ∈ d.terminals := by
  rw [mem_terminals_iff]
  refine ⟨h.perm.mem_iff.mp (List.mem_append_right _ List.mem_cons_self), fun e he hsource => ?_⟩
  obtain ⟨front, back, hsplit⟩ := List.append_of_mem (h.perm.mem_iff.mpr (hends e he))
  have horder := h.inOrder
  rw [hsplit] at horder
  have hfront : e.source ∈ front :=
    (horder.mem_of_arc (List.mem_map_of_mem he)).resolve_left List.not_mem_nil
  have hback : e.source ∈ e.target :: back := by
    have hlast := congrArg List.getLast? hsplit
    rw [List.getLast?_concat, List.getLast?_append_of_ne_nil _ (List.cons_ne_nil _ _)] at hlast
    rw [hsource]
    exact List.mem_of_getLast? hlast.symm
  have hnodup := h.perm.nodup_iff.mpr hids
  rw [hsplit, List.nodup_append'] at hnodup
  exact hnodup.2.2 hfront hback

lemma Sound.terminals_ne_nil (h : d.Sound) (hne : d.nodes ≠ []) : d.terminals ≠ [] := by
  have horder := h.layers_isOrder
  rcases List.eq_nil_or_concat d.layers.flatten with hnil | ⟨before, last, hlast⟩
  · have hperm := horder.perm
    rw [hnil, List.nil_perm] at hperm
    exact absurd (List.map_eq_nil_iff.mp hperm) hne
  · rw [hlast, List.concat_eq_append] at horder
    exact List.ne_nil_of_mem (horder.last_mem_terminals h.ids fun e he => (h.ends e he).2)

end Dag

lemma Plan.WellFormed.sound {p : Plan} (w : p.WellFormed) : p.dag.Sound := by
  obtain ⟨hdraft, -, hacyclic⟩ := Plan.wellFormed_iff.mp w
  refine ⟨p.dag_nodes_ascending, fun e he => ?_, fun n hn hpost => ?_,
    (Plan.acyclic_congr (Plan.dag_edges_perm hdraft)).mpr hacyclic⟩
  · exact Dag.checkEdge_eq_ok.mp (Plan.checkEdge_dag hdraft e he)
  · rcases (Plan.mem_dag_nodes_iff hdraft).mp hn with
      ⟨s, -, rfl⟩ | ⟨g, -, rfl⟩ | ⟨op, hop, rfl⟩
    · cases hpost
    · cases hpost
    · refine ⟨p.postEdge op, ?_, rfl, rfl⟩
      rw [(Plan.dag_edges_perm hdraft).mem_iff]
      exact Plan.mem_edges_iff.mpr (Or.inr ⟨op, hop, rfl⟩)

end Recombine
