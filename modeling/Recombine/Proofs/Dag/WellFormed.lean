import Recombine.Proofs.Dag.Checks

/-! Well-formed plans are exactly those that compile. -/

namespace Recombine

open Attempt

namespace Plan

structure WellFormed (p : Plan) : Prop where
  ids : p.nodeIds.Nodup
  nonempty : ∀ g ∈ p.groups, g.inputs ≠ []
  refs : ∀ g ∈ p.groups, ∀ i ∈ g.inputs, i.ref ∈ p.nodeIds ∨
    i.ref ∈ p.groups.map Group.id ∨ i.ref ∈ p.postOps.map PostOp.id
  sides : ∀ g ∈ p.groups, g.combination.isKeyed = true → g.HasSides
  edgeIds : (p.edges.map Edge.id).Nodup
  targets : ∀ op ∈ p.postOps, op.target ∈ p.groups.map Group.id ∨
    op.target ∈ p.groups.map fun g => Group.nodeId g.id
  scanColumns : ∀ s ∈ p.scans, s.schema.names.Nodup
  postColumns : ∀ op ∈ p.postOps, op.schema.names.Nodup
  acyclic : Graph.Acyclic (p.edges.map Edge.arc)

variable {p : Plan}

lemma wellFormed_iff : p.WellFormed ↔ p.Drafted ∧ ((∀ s ∈ p.scans, s.schema.names.Nodup) ∧
    ∀ op ∈ p.postOps, op.schema.names.Nodup) ∧ Graph.Acyclic (p.edges.map Edge.arc) := by
  constructor
  · intro h
    refine ⟨⟨fun g hg => ⟨h.nonempty g hg, fun i hi => ?_, h.sides g hg⟩, fun op hop => ?_, h.ids,
      h.edgeIds⟩, ⟨h.scanColumns, h.postColumns⟩, h.acyclic⟩
    · exact inputNode?_isSome_iff.mpr (h.refs g hg i hi)
    · exact targetNode?_isSome_iff.mpr (h.targets op hop)
  · rintro ⟨⟨hresolves, htargets, hids, hedges⟩, ⟨hscans, hposts⟩, hacyclic⟩
    refine ⟨hids, fun g hg => (hresolves g hg).nonempty, fun g hg i hi => ?_,
      fun g hg => (hresolves g hg).sides, hedges, fun op hop => ?_, hscans, hposts, hacyclic⟩
    · exact inputNode?_isSome_iff.mp ((hresolves g hg).known i hi)
    · exact targetNode?_isSome_iff.mp (htargets op hop)

lemma wellFormed_iff_unplaced : p.WellFormed ↔ p.nodeIds.Nodup ∧
    (∀ g ∈ p.groups, g.inputs ≠ []) ∧
    (∀ g ∈ p.groups, ∀ i ∈ g.inputs, i.ref ∈ p.nodeIds ∨ i.ref ∈ p.groups.map Group.id ∨
      i.ref ∈ p.postOps.map PostOp.id) ∧
    (∀ g ∈ p.groups, g.combination.isKeyed = true → g.HasSides) ∧
    (p.edges.map Edge.id).Nodup ∧
    (∀ op ∈ p.postOps, op.target ∈ p.groups.map Group.id ∨
      op.target ∈ p.groups.map fun g => Group.nodeId g.id) ∧
    (∀ s ∈ p.scans, s.schema.names.Nodup) ∧ (∀ op ∈ p.postOps, op.schema.names.Nodup) ∧
    (Graph.peel (p.edges.map Edge.arc) p.nodeIds).unplaced = [] := by
  have hacyclic (hrefs : ∀ g ∈ p.groups, ∀ i ∈ g.inputs, i.ref ∈ p.nodeIds ∨
      i.ref ∈ p.groups.map Group.id ∨ i.ref ∈ p.postOps.map PostOp.id)
      (htargets : ∀ op ∈ p.postOps, op.target ∈ p.groups.map Group.id ∨
        op.target ∈ p.groups.map fun g => Group.nodeId g.id) :
      (Graph.peel (p.edges.map Edge.arc) p.nodeIds).unplaced = [] ↔
        Graph.Acyclic (p.edges.map Edge.arc) := by
    apply Graph.unplaced_eq_nil_iff_acyclic
    simp only [List.forall_mem_map]
    intro e he
    exact ends_mem_nodeIds (fun g hg i hi => inputNode?_isSome_iff.mpr (hrefs g hg i hi))
      (fun op hop => targetNode?_isSome_iff.mpr (htargets op hop)) he
  constructor
  · intro h
    exact ⟨h.ids, h.nonempty, h.refs, h.sides, h.edgeIds, h.targets, h.scanColumns, h.postColumns,
      (hacyclic h.refs h.targets).mpr h.acyclic⟩
  · rintro ⟨hids, hnonempty, hrefs, hsides, hedges, htargets, hscans, hposts, hplaced⟩
    exact ⟨hids, hnonempty, hrefs, hsides, hedges, htargets, hscans, hposts,
      (hacyclic hrefs htargets).mp hplaced⟩

instance (p : Plan) : Decidable p.WellFormed := decidable_of_iff _ wellFormed_iff_unplaced.symm

lemma checkEdge_dag (h : p.Drafted) : ∀ e ∈ p.dag.edges, p.dag.checkEdge e = .ok () := by
  intro e he
  rw [Dag.checkEdge_eq_ok, (dag_nodeIds_perm h).mem_iff, (dag_nodeIds_perm h).mem_iff]
  exact ends_mem_nodeIds (fun g hg => (h.resolves g hg).known) h.targets
    ((dag_edges_perm h).mem_iff.mp he)

lemma hasInput_of_isPost (h : p.Drafted) {n : Node} (hn : n ∈ p.dag.nodes)
    (hpost : n.action.isPost = true) : p.dag.hasCombineInput n.id = true := by
  rcases (mem_dag_nodes_iff h).mp hn with
    ⟨s, -, rfl⟩ | ⟨g, -, rfl⟩ | ⟨op, hop, rfl⟩
  · cases hpost
  · cases hpost
  · exact hasCombineInput_postNode h hop

lemma checkNode_dag_iff (h : p.Drafted) : (∀ n ∈ p.dag.nodes, p.dag.checkNode n = .ok ()) ↔
    (∀ s ∈ p.scans, s.schema.names.Nodup) ∧ ∀ op ∈ p.postOps, op.schema.names.Nodup := by
  have hcolumns : (∀ n ∈ p.dag.nodes, p.dag.checkNode n = .ok ()) ↔
      ∀ n ∈ p.nodes, n.schema.names.Nodup := by
    simp only [← (dag_nodes_perm h).mem_iff, Dag.checkNode_eq_ok]
    exact forall₂_congr fun n hn => and_iff_left (hasInput_of_isPost h hn)
  simp only [hcolumns, mem_nodes_iff]
  constructor
  · intro hall
    refine ⟨fun s hs => ?_, fun op hop => ?_⟩
    · exact hall s.node (Or.inl ⟨s, hs, rfl⟩)
    · exact hall (p.postNode op) (Or.inr (Or.inr ⟨op, hop, rfl⟩))
  · rintro ⟨hscans, hposts⟩ n (⟨s, hs, rfl⟩ | ⟨g, -, rfl⟩ | ⟨op, hop, rfl⟩)
    · exact hscans s hs
    · exact columns_groupNode h hscans hposts g
    · exact hposts op hop

lemma acyclic_congr {es fs : List Edge} (h : es.Perm fs) :
    Graph.Acyclic (es.map Edge.arc) ↔ Graph.Acyclic (fs.map Edge.arc) := by
  simp only [Graph.Acyclic, (h.map Edge.arc).mem_iff]

lemma checkAcyclic_dag_iff (h : p.Drafted) :
    p.dag.checkAcyclic = .ok () ↔ Graph.Acyclic (p.edges.map Edge.arc) := by
  rw [← acyclic_congr (dag_edges_perm h)]
  exact Dag.checkAcyclic_eq_ok fun e he => Dag.checkEdge_eq_ok.mp (checkEdge_dag h e he)

lemma compile_eq (p : Plan) :
    p.compile = p.draft >>= fun d => d.dag.check >>= fun () => .ok d.dag := rfl

theorem compile_eq_ok {d : Dag} : p.compile = .ok d ↔ p.WellFormed ∧ d = p.dag := by
  rw [compile_eq, bind_eq_ok, wellFormed_iff]
  constructor
  · rintro ⟨c, hc, hd⟩
    obtain ⟨hdraft, rfl⟩ := draft_eq_ok.mp hc
    obtain ⟨⟨⟩, hcheck, hd⟩ := bind_eq_ok.mp hd
    obtain ⟨-, hnodes, hacyclic⟩ := Dag.check_eq_ok.mp hcheck
    cases hd
    have hnodes := (checkNode_dag_iff hdraft).mp hnodes
    have hacyclic := (checkAcyclic_dag_iff hdraft).mp hacyclic
    exact ⟨⟨hdraft, hnodes, hacyclic⟩, rfl⟩
  · rintro ⟨⟨hdraft, hnodes, hacyclic⟩, rfl⟩
    refine ⟨_, draft_eq_ok.mpr ⟨hdraft, rfl⟩, bind_eq_ok.mpr ⟨(), ?_, rfl⟩⟩
    exact Dag.check_eq_ok.mpr ⟨checkEdge_dag hdraft, (checkNode_dag_iff hdraft).mpr hnodes,
      (checkAcyclic_dag_iff hdraft).mpr hacyclic⟩

end Plan

def PlanError.OfInputs : PlanError → Prop
  | .unknownReference .. | .emptyGroup _ | .ambiguousRoles .. => True
  | _ => False

def PlanError.OfDraft : PlanError → Prop
  | .unknownReference .. | .unknownGroup .. | .emptyGroup _ | .duplicateNode _ | .duplicateEdge _
  | .ambiguousRoles .. => True
  | _ => False

def PlanError.OfCheck : PlanError → Prop
  | .duplicateColumn .. | .cycle _ => True
  | _ => False

def PlanError.Occurs : PlanError → Prop
  | .danglingEdge .. | .invalidPostInput _ | .serialization _ => False
  | _ => True

lemma PlanError.OfInputs.ofDraft : ∀ {e : PlanError}, e.OfInputs → e.OfDraft := by
  rintro (_ | _) h <;> first | exact trivial | cases h

lemma PlanError.OfDraft.occurs : ∀ {e : PlanError}, e.OfDraft → e.Occurs := by
  rintro (_ | _) h <;> first | exact trivial | cases h

lemma PlanError.OfCheck.occurs : ∀ {e : PlanError}, e.OfCheck → e.Occurs := by
  rintro (_ | _) h <;> first | exact trivial | cases h

section Faults

variable {p : Plan}

lemma raises_addNode (d : Draft) (n : Node) : Raises PlanError.OfDraft (d.addNode n) := by
  rw [Draft.addNode]
  split
  · exact raises_error trivial
  · exact raises_ok _

lemma raises_addEdge (d : Draft) (e : Edge) : Raises PlanError.OfDraft (d.addEdge e) := by
  rw [Draft.addEdge]
  split
  · exact raises_error trivial
  · exact raises_ok _

lemma raises_resolveInput (p : Plan) (g : Group) (i : Input) :
    Raises PlanError.OfInputs (Resolved.resolveInput p g i) := by
  rw [Resolved.resolveInput]
  split
  · exact raises_ok _
  · exact raises_error trivial

lemma raises_checkSides (node : String) (es : List Edge) :
    Raises PlanError.OfInputs (checkSides node es) := by
  rw [checkSides]
  split
  · exact raises_error trivial
  · exact raises_ok _

lemma raises_ofGroup (p : Plan) (g : Group) :
    Raises PlanError.OfInputs (Resolved.ofGroup p g) := by
  rw [ofGroup_eq]
  refine Raises.bind ?_ fun _ _ => (raises_mapM fun i _ => raises_resolveInput p g i).bind
    fun es _ => Raises.bind ?_ fun _ _ => raises_ok _
  · split
    · exact raises_error trivial
    · exact raises_ok _
  · split
    · exact raises_checkSides _ es
    · exact raises_ok _

lemma raises_addPostOp (p : Plan) (d : Draft) (op : PostOp) :
    Raises PlanError.OfDraft (d.addPostOp p op) := by
  rw [Draft.addPostOp]
  split
  · exact (raises_addNode d _).bind fun c _ => raises_addEdge c _
  · exact raises_error trivial

lemma raises_draft (p : Plan) : Raises PlanError.OfDraft p.draft := by
  refine (raises_foldlM (fun d s => raises_addNode d _) p.scans {}).bind fun a _ => ?_
  refine (raises_mapM fun g _ => (raises_ofGroup p g).imp fun _ he => he.ofDraft).bind
    fun rs _ => ?_
  refine (raises_foldlM (fun d r => ?_) rs a).bind fun b _ => ?_
  · exact (raises_addNode d _).bind fun c _ => raises_foldlM raises_addEdge r.edges c
  · exact raises_foldlM (raises_addPostOp p) p.postOps b

lemma raises_check (h : p.Drafted) : Raises PlanError.OfCheck p.dag.check := by
  refine Raises.bind ?_ fun _ _ => Raises.bind ?_ fun _ _ => ?_
  · intro e he
    obtain ⟨edge, hedge, he⟩ := forM_eq_error he
    rw [Plan.checkEdge_dag h edge hedge] at he
    cases he
  · intro e he
    obtain ⟨n, hn, he⟩ := forM_eq_error he
    have hinput := Plan.hasInput_of_isPost h hn
    rw [Dag.checkNode] at he
    split at he
    next => exact raises_error trivial e he
    next =>
      cases hpost : n.action.isPost with
      | true => simp [hpost, hinput hpost] at he
      | false => simp [hpost] at he
  · rw [Dag.checkAcyclic]
    split
    · exact raises_error trivial
    · exact raises_ok _

lemma raises_compile (p : Plan) : Raises PlanError.Occurs p.compile := by
  rw [Plan.compile_eq]
  refine ((raises_draft p).imp fun _ he => he.occurs).bind fun d hd => ?_
  obtain ⟨hdraft, rfl⟩ := Plan.draft_eq_ok.mp hd
  exact ((raises_check hdraft).imp fun _ he => he.occurs).bind fun _ _ => raises_ok _

end Faults

theorem Plan.compiles_iff_wellFormed (p : Plan) : ((∃ d, p.compile = .ok d) ↔ p.WellFormed) ∧
    (∀ edge node, p.compile ≠ .error (.danglingEdge edge node)) ∧
    (∀ node, p.compile ≠ .error (.invalidPostInput node)) ∧
    ∀ reason, p.compile ≠ .error (.serialization reason) := by
  refine ⟨?_, fun edge node he => ?_, fun node he => ?_, fun reason he => ?_⟩
  · simp only [compile_eq_ok, exists_and_left, exists_eq, and_true]
  · exact raises_compile p _ he
  · exact raises_compile p _ he
  · exact raises_compile p _ he

def Plan.unionOfTwo : Plan where
  scans := [{ id := "a", source := "x" }, { id := "b", source := "y" }]
  groups := [{ id := "u", combination := .union, inputs := [{ ref := "a" }, { ref := "b" }] }]

lemma Plan.unionOfTwo_wellFormed : unionOfTwo.WellFormed := by decide +kernel

end Recombine
