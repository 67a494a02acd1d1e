import Recombine.Proofs.Dag.Resolution
import Recombine.Proofs.Graph.Countdown

namespace Recombine

open Attempt Relation

lemma Schema.repeatedAfter_eq_none_iff {seen ns : List String} :
    Schema.repeatedAfter seen ns = none ↔ ns.Nodup ∧ ∀ n ∈ ns, n ∉ seen := by
  induction ns generalizing seen with
  | nil => simp [Schema.repeatedAfter]
  | cons n ns ih =>
    rw [Schema.repeatedAfter, List.nodup_cons, List.forall_mem_cons]
    split
    next h => exact iff_of_false (fun h => nomatch h) (fun hn => hn.2.1 h)
    next h =>
      rw [ih]
      constructor
      · rintro ⟨hns, hseen⟩
        have hn : n ∉ ns := fun hmem => hseen n hmem List.mem_cons_self
        exact ⟨⟨hn, hns⟩, h, fun m hm hmem => hseen m hm (List.mem_cons_of_mem n hmem)⟩
      · rintro ⟨⟨hn, hns⟩, -, hseen⟩
        refine ⟨hns, fun m hm hmem => ?_⟩
        rcases List.mem_cons.mp hmem with rfl | hmem
        · exact hn hm
        · exact hseen m hm hmem

lemma Schema.repeated?_eq_none_iff {s : Schema} : s.repeated? = none ↔ s.names.Nodup := by
  rw [Schema.repeated?, Schema.repeatedAfter_eq_none_iff]
  exact and_iff_left fun _ _ => List.not_mem_nil

section Inherited

variable {schemas : KeyMap Schema} {links : KeyMap String} {id : String}

lemma inheritedSchema_of_declared {schema : Schema} (h : schemas.get? id = some schema) :
    inheritedSchema schemas links id = schema := by
  rw [inheritedSchema, h]

lemma inheritedSchema_of_link {next : String} (h : schemas.get? id = none)
    (hnext : links.get? id = some next) :
    inheritedSchema schemas links id = inheritedSchema schemas (links.erase id) next := by
  rw [inheritedSchema, h]
  dsimp only
  split
  next next' hnext' => rw [Option.some.inj (hnext'.symm.trans hnext)]
  next hnone => cases hnone.symm.trans hnext

lemma inheritedSchema_of_end (h : schemas.get? id = none) (hnone : links.get? id = none) :
    inheritedSchema schemas links id = [] := by
  rw [inheritedSchema, h]
  dsimp only
  split
  next next hnext => cases hnext.symm.trans hnone
  next => rfl

lemma inheritedSchema_declared (schemas : KeyMap Schema) (links : KeyMap String) (id : String) :
    inheritedSchema schemas links id = [] ∨
      ∃ k, schemas.get? k = some (inheritedSchema schemas links id) := by
  induction links, id using inheritedSchema.induct schemas with
  | case1 links id schema h => exact Or.inr ⟨id, by rw [inheritedSchema_of_declared h, h]⟩
  | case2 links id h next hnext ih =>
    rw [inheritedSchema_of_link h hnext]
    exact ih
  | case3 links id h hnone => exact Or.inl (inheritedSchema_of_end h hnone)

end Inherited

lemma compare_eq_lt_iff {k l : String} : compare k l = .lt ↔ k < l := compareOfLessAndEq_eq_lt

lemma compare_eq_gt_iff {k l : String} : compare k l = .gt ↔ l < k := by
  rw [Std.OrientedCmp.gt_iff_lt, compare_eq_lt_iff]

namespace Dag

variable {d : Dag}

lemma node?_eq_some_iff (h : d.nodes.Pairwise fun m n => m.id < n.id) {id : String} {n : Node} :
    d.node? id = some n ↔ n ∈ d.nodes ∧ n.id = id := by
  have hbisected : Bisected (fun n : Node => compare n.id id) d.nodes := by
    refine h.imp fun {m n} hmn => ?_
    dsimp only
    rw [compare_eq_lt_iff, compare_eq_gt_iff]
    by_cases hid : m.id < id
    · exact Or.inl hid
    · exact Or.inr (Std.lt_of_le_of_lt (String.not_lt.mp hid) hmn)
  rw [node?, bisect_eq_some_iff hbisected, Std.LawfulEqCmp.compare_eq_iff_eq]

lemma nodeIds_nodup (h : d.nodes.Pairwise fun m n => m.id < n.id) : d.nodeIds.Nodup :=
  KeyMap.nodup_of_ascending (List.pairwise_map.mpr h)

lemma checkEdge_eq_ok {e : Edge} :
    d.checkEdge e = .ok () ↔ e.source ∈ d.nodeIds ∧ e.target ∈ d.nodeIds := by
  have hfind : [e.source, e.target].find? (fun id => !d.nodeIds.contains id) = none ↔
      e.source ∈ d.nodeIds ∧ e.target ∈ d.nodeIds := by
    simp [List.find?_eq_none]
  rw [checkEdge, ← hfind]
  cases [e.source, e.target].find? fun id => !d.nodeIds.contains id with
  | none => simp
  | some id => simp

lemma checkNode_eq_ok {n : Node} : d.checkNode n = .ok () ↔
    n.schema.names.Nodup ∧ (n.action.isPost = true → d.hasCombineInput n.id = true) := by
  rw [checkNode, ← Schema.repeated?_eq_none_iff]
  split
  next h => simp [h]
  next h => cases n.action.isPost <;> cases d.hasCombineInput n.id <;> simp [h]

lemma checkAcyclic_eq_ok (h : ∀ e ∈ d.edges, e.source ∈ d.nodeIds ∧ e.target ∈ d.nodeIds) :
    d.checkAcyclic = .ok () ↔ Graph.Acyclic (d.edges.map Edge.arc) := by
  have hends : ∀ a ∈ d.edges.map Edge.arc, a.1 ∈ (KeyMap.ofKeys d.nodeIds).keys ∧
      a.2 ∈ (KeyMap.ofKeys d.nodeIds).keys := by
    intro a ha
    obtain ⟨e, he, rfl⟩ := List.mem_map.mp ha
    rw [KeyMap.mem_keys_ofKeys, KeyMap.mem_keys_ofKeys]
    exact h e he
  rw [← Graph.unplaced_eq_nil_iff_acyclic hends, checkAcyclic, layering, Graph.layering_eq]
  split
  next h => simp [h]
  next h => simp [h]

lemma check_eq_ok : d.check = .ok () ↔
    (∀ e ∈ d.edges, d.checkEdge e = .ok ()) ∧ (∀ n ∈ d.nodes, d.checkNode n = .ok ()) ∧
      d.checkAcyclic = .ok () := by
  rw [← forM_eq_ok, ← forM_eq_ok, check, bind_eq_ok]
  simp only [bind_eq_ok]
  constructor
  · rintro ⟨⟨⟩, hedges, ⟨⟩, hnodes, hacyclic⟩
    exact ⟨hedges, hnodes, hacyclic⟩
  · rintro ⟨hedges, hnodes, hacyclic⟩
    exact ⟨(), hedges, (), hnodes, hacyclic⟩

end Dag

lemma groupNodeId_ne_postNodeId (g op : String) : Group.nodeId g ≠ PostOp.nodeId op := by
  intro h
  have hhead := congrArg (fun s => s.toList.head?) h
  simp [Group.nodeId, PostOp.nodeId, String.toList_append] at hhead

namespace Plan

variable {p : Plan}

def dag (p : Plan) : Dag := (Draft.extend {} p.nodes p.edges).dag

lemma values_ofList_perm {α : Type} {f : α → String} {as : List α} (h : (as.map f).Nodup) :
    (KeyMap.ofList (as.map fun a => (f a, a))).values.Perm as := by
  have hkeys : ((as.map fun a => (f a, a)).map Prod.fst).Nodup := by
    rw [List.map_map]
    exact h
  have hperm := (KeyMap.entries_ofList_perm hkeys).map Prod.snd
  have hid : (as.map fun a => (f a, a)).map Prod.snd = as := by
    rw [List.map_map]
    exact List.map_id as
  rwa [hid] at hperm

lemma dag_nodes_ascending (p : Plan) : p.dag.nodes.Pairwise fun m n => m.id < n.id := by
  have hkeys : ∀ e ∈ (Draft.extend {} p.nodes p.edges).nodes.entries, e.1 = e.2.id := by
    intro e he
    obtain ⟨n, -, rfl⟩ := List.mem_map.mp (KeyMap.mem_of_mem_entries_ofList he)
    rfl
  refine List.pairwise_map.mpr ((KeyMap.ascending _).imp_of_mem fun {e f} he hf hlt => ?_)
  rwa [← hkeys e he, ← hkeys f hf]

lemma dag_nodes_perm (h : p.Drafted) : p.dag.nodes.Perm p.nodes := by
  apply values_ofList_perm
  rw [p.map_id_nodes]
  exact h.ids

lemma dag_edges_perm (h : p.Drafted) : p.dag.edges.Perm p.edges :=
  (List.mergeSort_perm _ _).trans (values_ofList_perm h.edgeIds)

lemma dag_nodeIds_perm (h : p.Drafted) : p.dag.nodeIds.Perm p.nodeIds := by
  rw [← p.map_id_nodes]
  exact (dag_nodes_perm h).map Node.id

lemma hasGroup_iff {id : String} : p.hasGroup id = true ↔ id ∈ p.groups.map Group.id := by
  simp [hasGroup, List.any_eq_true, List.mem_map]

lemma hasPostOp_iff {id : String} : p.hasPostOp id = true ↔ id ∈ p.postOps.map PostOp.id := by
  simp [hasPostOp, List.any_eq_true, List.mem_map]

lemma mem_nodeIds_iff {id : String} : id ∈ p.nodeIds ↔ (∃ s ∈ p.scans, s.id = id) ∨
    (∃ g ∈ p.groups, Group.nodeId g.id = id) ∨ ∃ op ∈ p.postOps, PostOp.nodeId op.id = id := by
  simp only [nodeIds, List.mem_append, List.mem_map, or_assoc]

lemma inputNode?_isSome_iff {ref : String} : (∃ source, p.inputNode? ref = some source) ↔
    ref ∈ p.nodeIds ∨ ref ∈ p.groups.map Group.id ∨ ref ∈ p.postOps.map PostOp.id := by
  rw [← hasGroup_iff, ← hasPostOp_iff, inputNode?]
  split_ifs <;> simp [*]

lemma mem_nodeIds_of_inputNode? {ref source : String} (h : p.inputNode? ref = some source) :
    source ∈ p.nodeIds := by
  rw [inputNode?] at h
  split_ifs at h with hnode hgroup hop
  · cases h
    exact hnode
  · cases h
    obtain ⟨g, hg, rfl⟩ := List.mem_map.mp (hasGroup_iff.mp hgroup)
    exact mem_nodeIds_iff.mpr (Or.inr (Or.inl ⟨g, hg, rfl⟩))
  · cases h
    obtain ⟨op, hmem, rfl⟩ := List.mem_map.mp (hasPostOp_iff.mp hop)
    exact mem_nodeIds_iff.mpr (Or.inr (Or.inr ⟨op, hmem, rfl⟩))

lemma targetNode?_isSome_iff {target : String} : (∃ source, p.targetNode? target = some source) ↔
    target ∈ p.groups.map Group.id ∨ target ∈ p.groups.map fun g => Group.nodeId g.id := by
  rw [← hasGroup_iff, targetNode?]
  split_ifs <;> simp [*]

lemma exists_group_of_targetNode? {target source : String}
    (h : p.targetNode? target = some source) : ∃ g ∈ p.groups, Group.nodeId g.id = source := by
  rw [targetNode?] at h
  split_ifs at h with hgroup hnode
  · cases h
    obtain ⟨g, hg, rfl⟩ := List.mem_map.mp (hasGroup_iff.mp hgroup)
    exact ⟨g, hg, rfl⟩
  · cases h
    obtain ⟨g, hg, rfl⟩ := List.mem_map.mp hnode
    exact ⟨g, hg, rfl⟩

lemma mem_edges_iff {e : Edge} : e ∈ p.edges ↔
    (∃ g ∈ p.groups, ∃ i ∈ g.inputs, p.inputEdge g i = e) ∨
      ∃ op ∈ p.postOps, p.postEdge op = e := by
  simp only [edges, List.mem_append, List.mem_flatMap, List.mem_map]

lemma mem_nodes_iff {n : Node} : n ∈ p.nodes ↔ (∃ s ∈ p.scans, s.node = n) ∨
    (∃ g ∈ p.groups, p.groupNode g = n) ∨ ∃ op ∈ p.postOps, p.postNode op = n := by
  simp only [nodes, List.mem_append, List.mem_map, or_assoc]

lemma mem_dag_nodes_iff (h : p.Drafted) {n : Node} : n ∈ p.dag.nodes ↔
    (∃ s ∈ p.scans, s.node = n) ∨ (∃ g ∈ p.groups, p.groupNode g = n) ∨
      ∃ op ∈ p.postOps, p.postNode op = n := (dag_nodes_perm h).mem_iff.trans mem_nodes_iff

lemma groupNode_mem_dag (h : p.Drafted) {g : Group} (hg : g ∈ p.groups) :
    p.groupNode g ∈ p.dag.nodes := (mem_dag_nodes_iff h).mpr (Or.inr (Or.inl ⟨g, hg, rfl⟩))

lemma source_inputEdge_mem {g : Group} {i : Input}
    (h : ∃ source, p.inputNode? i.ref = some source) : (p.inputEdge g i).source ∈ p.nodeIds := by
  obtain ⟨source, hsource⟩ := h
  rw [inputEdge, hsource]
  exact mem_nodeIds_of_inputNode? hsource

lemma source_postEdge_mem {op : PostOp} (h : ∃ source, p.targetNode? op.target = some source) :
    (p.postEdge op).source ∈ p.nodeIds := by
  obtain ⟨source, hsource⟩ := h
  obtain ⟨g, hg, rfl⟩ := exists_group_of_targetNode? hsource
  rw [postEdge, postSource, hsource]
  exact mem_nodeIds_iff.mpr (Or.inr (Or.inl ⟨g, hg, rfl⟩))

lemma ends_mem_nodeIds
    (hinputs : ∀ g ∈ p.groups, ∀ i ∈ g.inputs, ∃ source, p.inputNode? i.ref = some source)
    (htargets : ∀ op ∈ p.postOps, ∃ source, p.targetNode? op.target = some source) {e : Edge}
    (he : e ∈ p.edges) : e.source ∈ p.nodeIds ∧ e.target ∈ p.nodeIds := by
  rcases mem_edges_iff.mp he with ⟨g, hg, i, hi, rfl⟩ | ⟨op, hop, rfl⟩
  · refine ⟨source_inputEdge_mem (hinputs g hg i hi), ?_⟩
    exact mem_nodeIds_iff.mpr (Or.inr (Or.inl ⟨g, hg, rfl⟩))
  · refine ⟨source_postEdge_mem (htargets op hop), ?_⟩
    exact mem_nodeIds_iff.mpr (Or.inr (Or.inr ⟨op, hop, rfl⟩))

lemma postIds_nodup (h : p.Drafted) : (p.postOps.map fun op => PostOp.nodeId op.id).Nodup :=
  (List.nodup_append'.mp h.ids).2.1

lemma groupIds_nodup (h : p.Drafted) : (p.groups.map fun g => Group.nodeId g.id).Nodup :=
  (List.nodup_append'.mp (List.nodup_append'.mp h.ids).1).2.1

lemma scanId_ne_groupNodeId (h : p.nodeIds.Nodup) {s : Scan} {g : Group} (hs : s ∈ p.scans)
    (hg : g ∈ p.groups) : s.id ≠ Group.nodeId g.id := by
  obtain ⟨-, -, hgroups⟩ := List.nodup_append'.mp (List.nodup_append'.mp h).1
  intro heq
  exact hgroups (List.mem_map_of_mem hs) (heq ▸ List.mem_map_of_mem hg)

lemma inbound_scanNode (h : p.Drafted) {s : Scan} (hs : s ∈ p.scans) :
    p.dag.inbound s.id = [] := by
  obtain ⟨hfront, -, hposts⟩ := List.nodup_append'.mp h.ids
  obtain ⟨-, -, hgroups⟩ := List.nodup_append'.mp hfront
  have hid : s.id ∈ p.scans.map Scan.id := List.mem_map_of_mem hs
  rw [Dag.inbound, List.filter_eq_nil_iff]
  intro e he htarget
  rw [(dag_edges_perm h).mem_iff, mem_edges_iff] at he
  rw [← beq_iff_eq.mp htarget] at hid
  rcases he with ⟨g, hg, i, -, rfl⟩ | ⟨op, hop, rfl⟩
  · exact hgroups hid (List.mem_map_of_mem hg)
  · exact hposts (List.mem_append_left _ hid) (List.mem_map_of_mem hop)

lemma inbound_nodup (h : p.Drafted) (id : String) : (p.dag.inbound id).Nodup :=
  ((dag_edges_perm h).nodup_iff.mpr (List.Nodup.of_map _ h.edgeIds)).filter _

lemma inbound_groupNode (h : p.Drafted) {g : Group} (hg : g ∈ p.groups) :
    (p.dag.inbound (Group.nodeId g.id)).Perm (g.inputs.map (p.inputEdge g)) := by
  have hedges : (g.inputs.map (p.inputEdge g)).Nodup := by
    have hall := (List.nodup_append'.mp (List.Nodup.of_map _ h.edgeIds)).1
    exact (List.nodup_flatMap.mp hall).1 g hg
  rw [List.perm_ext_iff_of_nodup (inbound_nodup h _) hedges]
  intro e
  rw [Dag.inbound, List.mem_filter, (dag_edges_perm h).mem_iff, beq_iff_eq, mem_edges_iff,
    List.mem_map]
  constructor
  · rintro ⟨⟨g', hg', i, hi, rfl⟩ | ⟨op, -, rfl⟩, htarget⟩
    · obtain rfl := List.inj_on_of_nodup_map (groupIds_nodup h) hg' hg htarget
      exact ⟨i, hi, rfl⟩
    · exact absurd htarget.symm (groupNodeId_ne_postNodeId g.id op.id)
  · rintro ⟨i, hi, rfl⟩
    exact ⟨Or.inl ⟨g, hg, i, hi, rfl⟩, rfl⟩

lemma inbound_postNode (h : p.Drafted) {op : PostOp} (hop : op ∈ p.postOps) :
    p.dag.inbound (PostOp.nodeId op.id) = [p.postEdge op] := by
  have hmem : ∀ e, e ∈ p.dag.inbound (PostOp.nodeId op.id) ↔ e ∈ [p.postEdge op] := by
    intro e
    rw [Dag.inbound, List.mem_filter, (dag_edges_perm h).mem_iff, beq_iff_eq, mem_edges_iff,
      List.mem_singleton]
    constructor
    · rintro ⟨⟨g, -, i, -, rfl⟩ | ⟨op', hop', rfl⟩, htarget⟩
      · exact absurd htarget (groupNodeId_ne_postNodeId g.id op.id)
      · rw [List.inj_on_of_nodup_map (postIds_nodup h) hop' hop htarget]
    · rintro rfl
      exact ⟨Or.inr ⟨op, hop, rfl⟩, rfl⟩
  exact List.perm_singleton.mp
    ((List.perm_ext_iff_of_nodup (inbound_nodup h _) (List.nodup_singleton _)).mpr hmem)

lemma node?_of_mem (h : p.Drafted) {n : Node} (hn : n ∈ p.nodes) : p.dag.node? n.id = some n := by
  rw [Dag.node?_eq_some_iff p.dag_nodes_ascending]
  exact ⟨(dag_nodes_perm h).mem_iff.mpr hn, rfl⟩

lemma hasCombineInput_postNode (h : p.Drafted) {op : PostOp} (hop : op ∈ p.postOps) :
    p.dag.hasCombineInput (PostOp.nodeId op.id) = true := by
  obtain ⟨source, hsource⟩ := h.targets op hop
  obtain ⟨g, hg, rfl⟩ := exists_group_of_targetNode? hsource
  have hnode := node?_of_mem h (mem_nodes_iff.mpr (Or.inr (Or.inl ⟨g, hg, rfl⟩)))
  rw [Dag.hasCombineInput, inbound_postNode h hop]
  dsimp only [postEdge, postSource]
  rw [hsource, Option.getD_some]
  rw [show Group.nodeId g.id = (p.groupNode g).id from rfl, hnode]
  rfl

lemma schemas_keys_nodup (h : p.nodeIds.Nodup) :
    ((p.scans.map (fun s => (s.id, s.schema)) ++
      p.postOps.map fun op => (PostOp.nodeId op.id, op.schema)).map Prod.fst).Nodup := by
  rw [List.map_append, List.map_map, List.map_map]
  exact h.sublist ((List.sublist_append_left _ _).append (List.Sublist.refl _))

def Declares (p : Plan) (id : String) (schema : Schema) : Prop :=
  (∃ s ∈ p.scans, s.id = id ∧ s.schema = schema) ∨
    ∃ op ∈ p.postOps, PostOp.nodeId op.id = id ∧ op.schema = schema

lemma get?_schemas_iff (h : p.nodeIds.Nodup) {id : String} {schema : Schema} :
    p.schemas.get? id = some schema ↔ p.Declares id schema := by
  rw [schemas, KeyMap.get?_ofList_eq_some_iff (schemas_keys_nodup h), Declares]
  simp

lemma columns_groupNode (h : p.Drafted) (hscans : ∀ s ∈ p.scans, s.schema.names.Nodup)
    (hposts : ∀ op ∈ p.postOps, op.schema.names.Nodup) (g : Group) :
    (p.groupNode g).schema.names.Nodup := by
  rw [groupNode, Resolved.node]
  rcases inheritedSchema_declared p.schemas p.links (p.resolve g).nodeId with hnil | ⟨k, hk⟩
  · rw [hnil]
    exact List.nodup_nil
  · rcases (get?_schemas_iff h.ids).mp hk with ⟨s, hs, -, hschema⟩ | ⟨op, hop, -, hschema⟩
    · rw [← hschema]
      exact hscans s hs
    · rw [← hschema]
      exact hposts op hop

end Plan

end Recombine
