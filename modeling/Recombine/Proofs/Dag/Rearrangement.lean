import Recombine.Proofs.Dag.WellFormed

namespace Recombine

section Operands

def Edge.operandKey (e : Edge) : Nat × String := (e.rank, e.source)

def compareKeys : Nat × String → Nat × String → Ordering :=
  compareLex (compareOn Prod.fst) (compareOn Prod.snd)

instance : Std.TransCmp compareKeys :=
  inferInstanceAs (Std.TransCmp (compareLex (compareOn Prod.fst) (compareOn Prod.snd)))

lemma eq_of_compareKeys {k l : Nat × String} (h : compareKeys k l = .eq) : k = l := by
  obtain ⟨hrank, hsource⟩ := Ordering.then_eq_eq.mp h
  exact Prod.ext (Std.LawfulEqCmp.eq_of_compare hrank) (Std.LawfulEqCmp.eq_of_compare hsource)

lemma sorted_operandKeys (es : List Edge) :
    ((es.mergeSort Edge.isOperandBefore).map Edge.operandKey).Pairwise
      fun k l => (compareKeys k l).isLE = true := by
  rw [List.pairwise_map]
  exact Sequence.pairwise_mergeSort compareKeys Edge.operandKey es

lemma operands_of_perm {es fs : List Edge} (h : es.Perm fs) :
    Edge.operands es = Edge.operands fs := by
  have hkeys : (es.mergeSort Edge.isOperandBefore).map Edge.operandKey =
      (fs.mergeSort Edge.isOperandBefore).map Edge.operandKey := by
    refine List.Perm.eq_of_pairwise ?_ (sorted_operandKeys es) (sorted_operandKeys fs) ?_
    · intro k l _ _ hkl hlk
      exact eq_of_compareKeys (Std.OrientedCmp.isLE_antisymm hkl hlk)
    · exact (((List.mergeSort_perm es _).trans h).trans (List.mergeSort_perm fs _).symm).map _
  have hsources := congrArg (List.map Prod.snd) hkeys
  rwa [List.map_map, List.map_map] at hsources

end Operands

structure Group.Rearranged (g h : Group) : Prop where
  id : g.id = h.id
  combination : g.combination = h.combination
  keys : g.keys = h.keys
  inputs : g.inputs.Perm h.inputs

structure Plan.Rearranged (p q : Plan) : Prop where
  scans : p.scans.Perm q.scans
  groups : ∃ gs, p.groups.Perm gs ∧ List.Forall₂ Group.Rearranged gs q.groups
  postOps : p.postOps.Perm q.postOps

lemma Group.Rearranged.symm {g h : Group} (r : g.Rearranged h) : h.Rearranged g :=
  ⟨r.id.symm, r.combination.symm, r.keys.symm, r.inputs.symm⟩

namespace Plan.Rearranged

variable {p q : Plan} {α : Type}

lemma symm (h : p.Rearranged q) : q.Rearranged p := by
  obtain ⟨gs, hperm, hgs⟩ := h.groups
  obtain ⟨hs, hhs, hback⟩ := List.perm_comp_forall₂ hperm hgs
  refine ⟨h.scans.symm, ⟨hs, hback.symm, List.Forall₂.flip ?_⟩, h.postOps.symm⟩
  exact hhs.imp fun _ _ r => Group.Rearranged.symm r

lemma map_groups (h : p.Rearranged q) {f f' : Group → α}
    (hf : ∀ g g', g.Rearranged g' → f g = f' g') : (p.groups.map f).Perm (q.groups.map f') := by
  obtain ⟨gs, hperm, hgs⟩ := h.groups
  have heq : gs.map f = q.groups.map f' := by
    rw [← List.forall₂_eq_eq_eq, List.forall₂_map_left_iff, List.forall₂_map_right_iff]
    exact hgs.imp hf
  rw [← heq]
  exact hperm.map f

lemma flatMap_groups (h : p.Rearranged q) {f f' : Group → List α}
    (hf : ∀ g g', g.Rearranged g' → (f g).Perm (f' g')) :
    (p.groups.flatMap f).Perm (q.groups.flatMap f') := by
  obtain ⟨gs, hperm, hgs⟩ := h.groups
  exact (hperm.flatMap_right f).trans (Sequence.flatMap_perm hgs hf)

lemma exists_group (h : p.Rearranged q) {g' : Group} (hg' : g' ∈ q.groups) :
    ∃ g ∈ p.groups, g.Rearranged g' := by
  obtain ⟨gs, hperm, hgs⟩ := h.groups
  obtain ⟨g, hg, r⟩ := Sequence.exists_of_mem_right hgs hg'
  exact ⟨g, hperm.mem_iff.mpr hg, r⟩

lemma groupIds (h : p.Rearranged q) : (p.groups.map Group.id).Perm (q.groups.map Group.id) :=
  h.map_groups fun _ _ r => r.id

lemma groupNodeIds (h : p.Rearranged q) :
    (p.groups.map fun g => Group.nodeId g.id).Perm (q.groups.map fun g => Group.nodeId g.id) :=
  h.map_groups fun _ _ r => congrArg Group.nodeId r.id

lemma nodeIds (h : p.Rearranged q) : p.nodeIds.Perm q.nodeIds :=
  ((h.scans.map _).append h.groupNodeIds).append (h.postOps.map _)

lemma hasGroup_eq (h : p.Rearranged q) (id : String) : p.hasGroup id = q.hasGroup id := by
  rw [Bool.eq_iff_iff, hasGroup_iff, hasGroup_iff, h.groupIds.mem_iff]

lemma hasPostOp_eq (h : p.Rearranged q) (id : String) : p.hasPostOp id = q.hasPostOp id := by
  rw [Bool.eq_iff_iff, hasPostOp_iff, hasPostOp_iff, (h.postOps.map PostOp.id).mem_iff]

lemma inputNode?_eq (h : p.Rearranged q) : p.inputNode? = q.inputNode? := by
  funext ref
  simp only [inputNode?, h.nodeIds.mem_iff, h.hasGroup_eq, h.hasPostOp_eq]

lemma targetNode?_eq (h : p.Rearranged q) : p.targetNode? = q.targetNode? := by
  funext target
  simp only [targetNode?, h.hasGroup_eq, h.groupNodeIds.mem_iff]

lemma groupEdges (h : p.Rearranged q) {g g' : Group} (r : g.Rearranged g') :
    (g.inputs.map (p.inputEdge g)).Perm (g'.inputs.map (q.inputEdge g')) := by
  have hedge : p.inputEdge g = q.inputEdge g' := by
    funext i
    rw [inputEdge, inputEdge, h.inputNode?_eq, r.id]
  rw [hedge]
  exact r.inputs.map _

lemma postEdge_eq (h : p.Rearranged q) : p.postEdge = q.postEdge := by
  funext op
  rw [postEdge, postEdge, postSource, postSource, h.targetNode?_eq]

lemma edges (h : p.Rearranged q) : p.edges.Perm q.edges := by
  apply List.Perm.append
  · exact h.flatMap_groups fun _ _ r => h.groupEdges r
  · rw [h.postEdge_eq]
    exact h.postOps.map _

lemma wellFormed (h : p.Rearranged q) (w : p.WellFormed) : q.WellFormed where
  ids := h.nodeIds.nodup_iff.mp w.ids
  nonempty := by
    intro g' hg' hnil
    obtain ⟨g, hg, r⟩ := h.exists_group hg'
    apply w.nonempty g hg
    have hinputs := r.inputs
    rwa [hnil, List.perm_nil] at hinputs
  refs := by
    intro g' hg' i hi
    obtain ⟨g, hg, r⟩ := h.exists_group hg'
    have hknown := w.refs g hg i (r.inputs.mem_iff.mpr hi)
    rwa [h.nodeIds.mem_iff, h.groupIds.mem_iff, (h.postOps.map PostOp.id).mem_iff] at hknown
  sides := by
    intro g' hg' hkeyed rank hrank
    obtain ⟨g, hg, r⟩ := h.exists_group hg'
    rw [← r.combination] at hkeyed
    rw [← r.inputs.countP_eq]
    exact w.sides g hg hkeyed rank hrank
  edgeIds := (h.edges.map Edge.id).nodup_iff.mp w.edgeIds
  targets := by
    intro op hop
    have htarget := w.targets op (h.postOps.mem_iff.mpr hop)
    rwa [h.groupIds.mem_iff, h.groupNodeIds.mem_iff] at htarget
  scanColumns := fun s hs => w.scanColumns s (h.scans.mem_iff.mpr hs)
  postColumns := fun op hop => w.postColumns op (h.postOps.mem_iff.mpr hop)
  acyclic := (acyclic_congr h.edges).mp w.acyclic

def link (r : Resolved) : Option (String × String) :=
  r.operands.head?.map fun first => (r.nodeId, first)

lemma schemas_eq (h : p.Rearranged q) (hids : p.nodeIds.Nodup) : p.schemas = q.schemas :=
  KeyMap.ofList_congr (schemas_keys_nodup hids) ((h.scans.map _).append (h.postOps.map _))

lemma operands_eq (h : p.Rearranged q) {g g' : Group} (r : g.Rearranged g') :
    (p.resolve g).operands = (q.resolve g').operands := operands_of_perm (h.groupEdges r)

lemma nodeId_eq {g g' : Group} (r : g.Rearranged g') :
    (p.resolve g).nodeId = (q.resolve g').nodeId := congrArg Group.nodeId r.id

lemma links_keys_nodup (hids : p.nodeIds.Nodup) :
    (((p.groups.map p.resolve).filterMap link).map Prod.fst).Nodup := by
  have hkeys : ((p.groups.map p.resolve).map Resolved.nodeId).Nodup := by
    rw [List.map_map]
    exact (List.nodup_append'.mp (List.nodup_append'.mp hids).1).2.1
  refine hkeys.sublist (Sequence.map_filterMap_sublist fun r l hl => ?_)
  obtain ⟨first, -, rfl⟩ := Option.map_eq_some_iff.mp hl
  rfl

lemma links_eq (h : p.Rearranged q) (hids : p.nodeIds.Nodup) : p.links = q.links := by
  have hlink : ∀ g g', g.Rearranged g' → link (p.resolve g) = link (q.resolve g') := by
    intro g g' r
    rw [link, link, h.operands_eq r, nodeId_eq r]
  have hperm := (h.map_groups hlink).filterMap id
  rw [List.filterMap_map, List.filterMap_map] at hperm
  apply KeyMap.ofList_congr (links_keys_nodup hids)
  rw [List.filterMap_map, List.filterMap_map]
  exact hperm

lemma groupNode_eq (h : p.Rearranged q) (hids : p.nodeIds.Nodup) {g g' : Group}
    (r : g.Rearranged g') : p.groupNode g = q.groupNode g' := by
  have hgroup : Action.combine g.combination g.keys = Action.combine g'.combination g'.keys := by
    rw [r.combination, r.keys]
  rw [groupNode, groupNode, Resolved.node, Resolved.node, h.schemas_eq hids, h.links_eq hids,
    nodeId_eq r (q := q), h.operands_eq r]
  dsimp only [resolve]
  rw [hgroup]

lemma postNode_eq (h : p.Rearranged q) : p.postNode = q.postNode := by
  funext op
  rw [postNode, postNode, postSource, postSource, h.targetNode?_eq]

lemma nodes (h : p.Rearranged q) (hids : p.nodeIds.Nodup) : p.nodes.Perm q.nodes := by
  apply List.Perm.append
  · exact (h.scans.map Scan.node).append (h.map_groups fun _ _ r => h.groupNode_eq hids r)
  · rw [h.postNode_eq]
    exact h.postOps.map _

lemma extend_congr {ns ms : List Node} {es fs : List Edge} (hids : (ns.map Node.id).Nodup)
    (hedges : (es.map Edge.id).Nodup) (hns : ns.Perm ms) (hes : es.Perm fs) :
    Draft.extend {} ns es = Draft.extend {} ms fs := by
  have hkeys : ∀ {α : Type} (f : α → String) (as : List α),
      (as.map fun a => (f a, a)).map Prod.fst = as.map f := fun f as => List.map_map
  rw [Draft.extend, Draft.extend, Draft.mk.injEq]
  constructor
  · exact KeyMap.ofList_congr (hkeys Node.id ns ▸ hids) (hns.map _)
  · exact KeyMap.ofList_congr (hkeys Edge.id es ▸ hedges) (hes.map _)

lemma dag_eq (h : p.Rearranged q) (w : p.WellFormed) : p.dag = q.dag := by
  have hids := w.ids
  rw [← p.map_id_nodes] at hids
  rw [dag, dag, extend_congr hids w.edgeIds (h.nodes w.ids) h.edges]

end Plan.Rearranged

theorem Plan.compile_rearranged {p q : Plan} (h : p.Rearranged q) :
    ((∃ d, p.compile = .ok d) ↔ ∃ d, q.compile = .ok d) ∧
      ∀ c d, p.compile = .ok c → q.compile = .ok d →
        c = d ∧ c.contentHash = d.contentHash ∧ c.id = d.id := by
  simp only [compile_eq_ok]
  refine ⟨?_, ?_⟩
  · constructor
    · rintro ⟨_, w, -⟩
      exact ⟨_, h.wellFormed w, rfl⟩
    · rintro ⟨_, w, -⟩
      exact ⟨_, h.symm.wellFormed w, rfl⟩
  · rintro c d ⟨w, rfl⟩ ⟨-, rfl⟩
    rw [h.dag_eq w]
    exact ⟨rfl, rfl, rfl⟩

def Plan.unionOfTwoSwapped : Plan where
  scans := [{ id := "b", source := "y" }, { id := "a", source := "x" }]
  groups := [{ id := "u", combination := .union, inputs := [{ ref := "b" }, { ref := "a" }] }]

theorem Plan.compile_unionOfTwo_swapped : unionOfTwo.Rearranged unionOfTwoSwapped ∧
    ∃ d, unionOfTwo.compile = .ok d ∧ unionOfTwoSwapped.compile = .ok d := by
  have r : unionOfTwo.Rearranged unionOfTwoSwapped := by
    refine ⟨List.Perm.swap _ _ _, ⟨_, List.Perm.refl _, ?_⟩, List.Perm.refl _⟩
    exact List.Forall₂.cons ⟨rfl, rfl, rfl, List.Perm.swap _ _ _⟩ List.Forall₂.nil
  obtain ⟨hiff, heq⟩ := compile_rearranged r
  have hok : unionOfTwo.compile = .ok unionOfTwo.dag :=
    compile_eq_ok.mpr ⟨unionOfTwo_wellFormed, rfl⟩
  obtain ⟨d, hd⟩ := hiff.mp ⟨_, hok⟩
  obtain ⟨rfl, -, -⟩ := heq _ d hok hd
  exact ⟨r, _, hok, hd⟩

end Recombine
