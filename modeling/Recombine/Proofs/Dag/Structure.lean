import Recombine.Proofs.Dag.Rearrangement
import Recombine.Proofs.Dag.Soundness

namespace Recombine

namespace Edge

def NotAfter (e f : Edge) : Prop :=
  e.source < f.source ∨ e.source = f.source ∧
    (e.target < f.target ∨ e.target = f.target ∧ e.role.getD "" ≤ f.role.getD "")

def OperandNotAfter (e f : Edge) : Prop := e.rank < f.rank ∨ e.rank = f.rank ∧ e.source ≤ f.source

end Edge

structure Dag.Canonical (d : Dag) : Prop where
  nodes : d.nodes.Pairwise fun m n => m.id < n.id
  lookup : ∀ id n, d.node? id = some n ↔ n ∈ d.nodes ∧ n.id = id
  edges : d.edges.Pairwise Edge.NotAfter
  edges_nodup : d.edges.Nodup
  ends : ∀ e ∈ d.edges, e.source ∈ d.nodeIds ∧ e.target ∈ d.nodeIds
  scans : ∀ n ∈ d.nodes, n.action.isScan = true → d.inbound n.id = [] ∧ n.inputs = []
  combines : ∀ n ∈ d.nodes, n.action.isCombine = true → d.inbound n.id ≠ [] ∧
    n.inputs = Edge.operands (d.inbound n.id) ∧
    ∃ es : List Edge, es.Perm (d.inbound n.id) ∧ es.Pairwise Edge.OperandNotAfter ∧
      n.inputs = es.map Edge.source
  posts : ∀ n ∈ d.nodes, n.action.isPost = true → ∃ e, d.inbound n.id = [e] ∧
    n.inputs = [e.source] ∧ ∃ m ∈ d.nodes, m.id = e.source ∧ m.action.isCombine = true
  layers_perm : d.layers.flatten.Perm d.nodeIds
  upward : ∀ e ∈ d.edges, ∀ (k l : Nat) (lower upper : List String), d.layers[k]? = some lower →
    e.source ∈ lower → d.layers[l]? = some upper → e.target ∈ upper → k < l
  first_layer : d.nodes ≠ [] → d.layers[0]? = some d.scanIds
  scanIds : d.scanIds.Pairwise (· < ·)

section Orders

lemma isLE_then_iff {o o' : Ordering} :
    (o.then o').isLE = true ↔ o = .lt ∨ o = .eq ∧ o'.isLE = true := by
  cases o <;> simp

lemma isLE_compare_iff {k l : String} : (compare k l).isLE = true ↔ k ≤ l := by
  rw [← String.not_lt, ← compare_eq_gt_iff, Ordering.isLE_iff_ne_gt]

lemma precedes_iff {e f : Edge} : e.precedes f = true ↔ e.NotAfter f := by
  rw [Edge.precedes, isLE_then_iff, isLE_then_iff, isLE_compare_iff, compare_eq_lt_iff,
    compare_eq_lt_iff, Std.LawfulEqCmp.compare_eq_iff_eq, Std.LawfulEqCmp.compare_eq_iff_eq]
  rfl

lemma isOperandBefore_iff {e f : Edge} : e.isOperandBefore f = true ↔ e.OperandNotAfter f := by
  rw [Edge.isOperandBefore, isLE_then_iff, isLE_compare_iff, Nat.compare_eq_lt, Nat.compare_eq_eq]
  rfl

lemma pairwise_operandNotAfter (es : List Edge) :
    (es.mergeSort Edge.isOperandBefore).Pairwise Edge.OperandNotAfter :=
  (Sequence.pairwise_mergeSort compareKeys Edge.operandKey es).imp isOperandBefore_iff.mp

lemma Edge.operands_of_pairwise {es fs : List Edge} (hperm : es.Perm fs)
    (h : fs.Pairwise OperandNotAfter) : operands es = fs.map source := by
  have hsorted := h.imp isOperandBefore_iff.mpr
  rw [operands_of_perm hperm, operands, List.mergeSort_of_pairwise hsorted]

def compareEdges : Edge → Edge → Ordering :=
  compareLex (compareOn Edge.source)
    (compareLex (compareOn Edge.target) (compareOn fun e => e.role.getD ""))

instance : Std.TransCmp compareEdges :=
  inferInstanceAs (Std.TransCmp (compareLex (compareOn Edge.source)
    (compareLex (compareOn Edge.target) (compareOn fun e => e.role.getD ""))))

lemma pairwise_notAfter (es : List Edge) : (es.mergeSort Edge.precedes).Pairwise Edge.NotAfter :=
  (Sequence.pairwise_mergeSort compareEdges id es).imp precedes_iff.mp

end Orders

section Kinds

variable {p : Plan} {n : Node}

lemma PostOp.isPost_action (op : PostOp) : op.action.isPost = true := by
  rw [PostOp.action]
  cases op.kind <;> rfl

lemma not_isScan_of_isPost {a : Action} (h : a.isPost = true) : ¬ a.isScan = true := by
  intro ha
  rw [Action.isPost, ha] at h
  cases h

lemma not_isCombine_of_isPost {a : Action} (h : a.isPost = true) : ¬ a.isCombine = true := by
  intro ha
  rw [Action.isPost, ha, Bool.or_true] at h
  cases h

lemma Plan.exists_scan (h : p.Drafted) (hn : n ∈ p.dag.nodes) (ha : n.action.isScan = true) :
    ∃ s ∈ p.scans, s.node = n := by
  rcases (mem_dag_nodes_iff h).mp hn with hscan | ⟨g, -, rfl⟩ | ⟨op, -, rfl⟩
  · exact hscan
  · cases ha
  · exact absurd ha (not_isScan_of_isPost op.isPost_action)

lemma Plan.exists_group (h : p.Drafted) (hn : n ∈ p.dag.nodes) (ha : n.action.isCombine = true) :
    ∃ g ∈ p.groups, p.groupNode g = n := by
  rcases (mem_dag_nodes_iff h).mp hn with ⟨s, -, rfl⟩ | hgroup | ⟨op, -, rfl⟩
  · cases ha
  · exact hgroup
  · exact absurd ha (not_isCombine_of_isPost op.isPost_action)

lemma Plan.exists_postOp (h : p.Drafted) (hn : n ∈ p.dag.nodes) (ha : n.action.isPost = true) :
    ∃ op ∈ p.postOps, p.postNode op = n := by
  rcases (mem_dag_nodes_iff h).mp hn with ⟨s, -, rfl⟩ | ⟨g, -, rfl⟩ | hop
  · cases ha
  · cases ha
  · exact hop

end Kinds

section Layers

variable {d : Dag}

lemma Dag.Sound.upward (h : d.Sound) {e : Edge} (he : e ∈ d.edges) {k l : Nat}
    {lower upper : List String} (hk : d.layers[k]? = some lower) (hsource : e.source ∈ lower)
    (hl : d.layers[l]? = some upper) (htarget : e.target ∈ upper) : k < l := by
  have ha : (e.source, e.target) ∈ d.edges.map Edge.arc := List.mem_map_of_mem he
  rw [h.layers_eq] at hk hl
  exact Graph.lt_of_arc ha hk hsource hl htarget

lemma Dag.Sound.inDegree_eq_zero_iff (h : d.Sound) {id : String} :
    Graph.inDegree (d.edges.map Edge.arc) d.nodeIds id = 0 ↔ d.inbound id = [] := by
  rw [Graph.inDegree_eq_zero_iff, Dag.inbound, List.filter_eq_nil_iff]
  constructor
  · intro hfree e he htarget
    apply hfree e.source (h.ends e he).1
    rw [← beq_iff_eq.mp htarget]
    exact List.mem_map_of_mem he
  · intro hnone source _ ha
    obtain ⟨e, he, heq⟩ := List.mem_map.mp ha
    cases heq
    exact hnone e he (beq_self_eq_true _)

lemma Dag.Sound.sources_eq (h : d.Sound)
    (hscans : ∀ n ∈ d.nodes, d.inbound n.id = [] ↔ n.action.isScan = true) :
    Graph.sources (d.edges.map Edge.arc) d.nodeIds = d.scanIds := by
  rw [Graph.sources]
  nth_rewrite 2 [Dag.nodeIds]
  rw [List.filter_map, Dag.scanIds]
  congr 1
  refine List.filter_congr fun n hn => ?_
  rw [Bool.eq_iff_iff, Function.comp_apply, beq_iff_eq, h.inDegree_eq_zero_iff, hscans n hn]

lemma Dag.Sound.first_layer (h : d.Sound)
    (hscans : ∀ n ∈ d.nodes, d.inbound n.id = [] ↔ n.action.isScan = true) (hne : d.nodes ≠ []) :
    d.layers[0]? = some d.scanIds := by
  have hids : d.nodeIds ≠ [] := fun hnil => hne (List.map_eq_nil_iff.mp hnil)
  rw [h.layers_eq, Graph.head_layers h.unplaced_eq_nil hids, h.sources_eq hscans]

lemma Dag.Sound.scanIds_ne_nil (h : d.Sound)
    (hscans : ∀ n ∈ d.nodes, d.inbound n.id = [] ↔ n.action.isScan = true) (hne : d.nodes ≠ []) :
    d.scanIds ≠ [] := by
  rw [← h.sources_eq hscans]
  exact Graph.sources_ne_nil h.unplaced_eq_nil fun hnil => hne (List.map_eq_nil_iff.mp hnil)

end Layers

namespace Plan

variable {p : Plan} {d : Dag} {n : Node}

lemma inbound_of_scan (h : p.Drafted) (hn : n ∈ p.dag.nodes) (ha : n.action.isScan = true) :
    p.dag.inbound n.id = [] ∧ n.inputs = [] := by
  obtain ⟨s, hs, rfl⟩ := exists_scan h hn ha
  exact ⟨inbound_scanNode h hs, rfl⟩

lemma inbound_of_combine (h : p.Drafted) (hn : n ∈ p.dag.nodes) (ha : n.action.isCombine = true) :
    p.dag.inbound n.id ≠ [] ∧ n.inputs = Edge.operands (p.dag.inbound n.id) := by
  obtain ⟨g, hg, rfl⟩ := exists_group h hn ha
  have hperm : (p.dag.inbound (p.groupNode g).id).Perm (g.inputs.map (p.inputEdge g)) :=
    inbound_groupNode h hg
  constructor
  · intro hnil
    rw [hnil, List.nil_perm, List.map_eq_nil_iff] at hperm
    exact (h.resolves g hg).nonempty hperm
  · exact (operands_of_perm hperm).symm

lemma inbound_of_post (h : p.Drafted) (hn : n ∈ p.dag.nodes) (ha : n.action.isPost = true) :
    ∃ e, p.dag.inbound n.id = [e] ∧ n.inputs = [e.source] ∧
      ∃ m ∈ p.dag.nodes, m.id = e.source ∧ m.action.isCombine = true := by
  obtain ⟨op, hop, rfl⟩ := exists_postOp h hn ha
  obtain ⟨source, hsource⟩ := h.targets op hop
  obtain ⟨g, hg, rfl⟩ := exists_group_of_targetNode? hsource
  refine ⟨p.postEdge op, inbound_postNode h hop, rfl, p.groupNode g, ?_, ?_, rfl⟩
  · exact groupNode_mem_dag h hg
  · rw [postEdge, postSource, hsource]
    rfl

lemma inbound_eq_nil_iff (h : p.Drafted) (hn : n ∈ p.dag.nodes) :
    p.dag.inbound n.id = [] ↔ n.action.isScan = true := by
  refine ⟨fun hnil => ?_, fun ha => (inbound_of_scan h hn ha).1⟩
  cases hscan : n.action.isScan with
  | true => rfl
  | false =>
    cases hcombine : n.action.isCombine with
    | true => exact absurd hnil (inbound_of_combine h hn hcombine).1
    | false =>
      have hpost : n.action.isPost = true := by simp [Action.isPost, hscan, hcombine]
      obtain ⟨e, he, -⟩ := inbound_of_post h hn hpost
      cases hnil.symm.trans he

lemma scanIds_perm (h : p.Drafted) : p.dag.scanIds.Perm (p.scans.map Scan.id) := by
  have hgroups : (p.groups.map p.groupNode).filter (fun n => n.action.isScan) = [] := by
    rw [List.filter_map, List.map_eq_nil_iff]
    exact List.filter_eq_nil_iff.mpr fun _ _ ha => nomatch ha
  have hposts : (p.postOps.map p.postNode).filter (fun n => n.action.isScan) = [] := by
    rw [List.filter_map, List.map_eq_nil_iff]
    exact List.filter_eq_nil_iff.mpr fun op _ ha => not_isScan_of_isPost op.isPost_action ha
  have hscans : (p.scans.map Scan.node).filter (fun n => n.action.isScan) =
      p.scans.map Scan.node :=
    List.filter_eq_self.mpr fun n hn => by
      obtain ⟨s, -, rfl⟩ := List.mem_map.mp hn
      rfl
  have hnodes : p.nodes.filter (fun n => n.action.isScan) = p.scans.map Scan.node := by
    rw [nodes, List.filter_append, List.filter_append, hscans, hgroups, hposts, List.append_nil,
      List.append_nil]
  have hperm := ((dag_nodes_perm h).filter fun n => n.action.isScan).map Node.id
  rwa [hnodes, List.map_map] at hperm

lemma nodes_ne_nil_iff (w : p.WellFormed) : p.dag.nodes ≠ [] ↔ p.scans ≠ [] := by
  have hdraft := (wellFormed_iff.mp w).1
  constructor
  · intro hne hnil
    have hscans := scanIds_perm hdraft
    rw [hnil, List.map_nil, List.perm_nil] at hscans
    exact w.sound.scanIds_ne_nil (fun n hn => inbound_eq_nil_iff hdraft hn) hne hscans
  · intro hne hnil
    have hperm := dag_nodes_perm hdraft
    rw [hnil, List.nil_perm, nodes, List.append_eq_nil_iff, List.append_eq_nil_iff] at hperm
    exact hne (List.map_eq_nil_iff.mp hperm.1.1)

theorem compile_canonical (hcompile : p.compile = .ok d) :
    d.Canonical ∧ d.scanIds.Perm (p.scans.map Scan.id) := by
  obtain ⟨w, rfl⟩ := compile_eq_ok.mp hcompile
  have hdraft := (wellFormed_iff.mp w).1
  have hsound := w.sound
  refine ⟨?_, scanIds_perm hdraft⟩
  exact {
    nodes := p.dag_nodes_ascending
    lookup := fun id n => Dag.node?_eq_some_iff p.dag_nodes_ascending
    edges := pairwise_notAfter _
    edges_nodup := (dag_edges_perm hdraft).nodup_iff.mpr (List.Nodup.of_map _ hdraft.edgeIds)
    ends := hsound.ends
    scans := fun n hn ha => inbound_of_scan hdraft hn ha
    combines := by
      intro n hn ha
      obtain ⟨hne, hinputs⟩ := inbound_of_combine hdraft hn ha
      exact ⟨hne, hinputs, _, List.mergeSort_perm _ _, pairwise_operandNotAfter _, hinputs⟩
    posts := fun n hn ha => inbound_of_post hdraft hn ha
    layers_perm := hsound.layers_isOrder.perm
    upward := fun e he k l lower upper hk hsource hl htarget =>
      hsound.upward he hk hsource hl htarget
    first_layer := hsound.first_layer fun n hn => inbound_eq_nil_iff hdraft hn
    scanIds := by
      apply List.pairwise_map.mpr
      exact p.dag_nodes_ascending.filter _ }

def joinOfUnion : Plan where
  scans := [{ id := "a", source := "x" }, { id := "combine_a", source := "y" }]
  groups := [
    { id := "j", combination := .join, keys := [{ left := "n", right := "n" }],
      inputs := [{ ref := "a", role := some "right" }, { ref := "first", role := some "left" }] },
    { id := "u", combination := .union,
      inputs := [{ ref := "combine_a" }, { ref := "a" }, { ref := "a", role := some "again" }] }]
  postOps := [{ id := "first", target := "u", kind := .limit, limit := some 2 }]

lemma joinOfUnion_wellFormed : joinOfUnion.WellFormed := by decide +kernel

theorem compile_joinOfUnion_canonical : joinOfUnion.compile = .ok joinOfUnion.dag ∧
    joinOfUnion.dag.Canonical ∧ joinOfUnion.dag.scanIds.Perm ["a", "combine_a"] := by
  have hcompile : joinOfUnion.compile = .ok joinOfUnion.dag :=
    compile_eq_ok.mpr ⟨joinOfUnion_wellFormed, rfl⟩
  exact ⟨hcompile, compile_canonical hcompile⟩

end Plan

end Recombine
