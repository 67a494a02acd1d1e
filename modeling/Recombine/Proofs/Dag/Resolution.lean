import Recombine.Proofs.Dag.Drafts

/-! The nodes and edges of a plan. They make up its draft if the references of the plan are known,
its pairs have two sides and all ids differ. -/

namespace Recombine

open Attempt

def Scan.node (s : Scan) : Node :=
  { id := s.id, inputs := [], schema := s.schema, action := .scan s.source }

def Resolved.node (schemas : KeyMap Schema) (links : KeyMap String) (r : Resolved) : Node where
  id := r.nodeId
  inputs := r.operands
  schema := inheritedSchema schemas links r.nodeId
  action := .combine r.group.combination r.group.keys

def PostOp.node (op : PostOp) (source : String) : Node where
  id := PostOp.nodeId op.id
  inputs := [source]
  schema := op.schema
  action := op.action
  metadata := op.metadata

def Group.HasSides (g : Group) : Prop :=
  ∀ rank < 2, g.inputs.countP (fun i => roleRank i.role == rank) ≤ 1

instance (g : Group) : Decidable g.HasSides :=
  inferInstanceAs (Decidable (∀ rank < 2, g.inputs.countP (fun i => roleRank i.role == rank) ≤ 1))

namespace Plan

variable (p : Plan)

def inputEdge (g : Group) (i : Input) : Edge where
  source := (p.inputNode? i.ref).getD i.ref
  target := Group.nodeId g.id
  role := i.role

def resolve (g : Group) : Resolved := ⟨g, g.inputs.map (p.inputEdge g)⟩

def links : KeyMap String := Resolved.firstOperands (p.groups.map p.resolve)

def groupNode (g : Group) : Node := (p.resolve g).node p.schemas p.links

def postSource (op : PostOp) : String := (p.targetNode? op.target).getD op.target

def postNode (op : PostOp) : Node := op.node (p.postSource op)

def postEdge (op : PostOp) : Edge := { source := p.postSource op, target := PostOp.nodeId op.id }

def nodes : List Node :=
  p.scans.map Scan.node ++ p.groups.map p.groupNode ++ p.postOps.map p.postNode

def edges : List Edge :=
  (p.groups.flatMap fun g => g.inputs.map (p.inputEdge g)) ++ p.postOps.map p.postEdge

structure Resolves (g : Group) : Prop where
  nonempty : g.inputs ≠ []
  known : ∀ i ∈ g.inputs, ∃ source, p.inputNode? i.ref = some source
  sides : g.combination.isKeyed = true → g.HasSides

end Plan

variable {p : Plan} {g : Group} {d d' : Draft}

lemma resolveInput_eq_ok {i : Input} {e : Edge} : Resolved.resolveInput p g i = .ok e ↔
    (∃ source, p.inputNode? i.ref = some source) ∧ p.inputEdge g i = e := by
  rw [Resolved.resolveInput, Plan.inputEdge]
  cases p.inputNode? i.ref with
  | none => simp
  | some source => simp

lemma repeatedSide?_eq_none_iff {rank : Nat} {es : List Edge} :
    repeatedSide? rank es = none ↔ es.countP (fun e => e.rank == rank) ≤ 1 := by
  rw [repeatedSide?, List.getElem?_eq_none_iff, List.countP_eq_length_filter]

lemma checkSides_eq_ok {node : String} {es : List Edge} :
    checkSides node es = .ok () ↔ ∀ rank < 2, es.countP (fun e => e.rank == rank) ≤ 1 := by
  have hranks : (∀ rank < 2, es.countP (fun e => e.rank == rank) ≤ 1) ↔
      repeatedSide? 0 es = none ∧ repeatedSide? 1 es = none := by
    rw [repeatedSide?_eq_none_iff, repeatedSide?_eq_none_iff]
    constructor
    · intro h
      exact ⟨h 0 (by omega), h 1 (by omega)⟩
    · rintro ⟨hleft, hright⟩ rank hrank
      obtain rfl | rfl : rank = 0 ∨ rank = 1 := by omega
      · exact hleft
      · exact hright
  rw [checkSides, hranks, ← Option.or_eq_none_iff]
  split
  next h => simp [h]
  next h => simp [h]

lemma checkSides_resolve {node : String} :
    checkSides node (g.inputs.map (p.inputEdge g)) = .ok () ↔ g.HasSides := by
  rw [checkSides_eq_ok, Group.HasSides]
  simp only [List.countP_map]
  rfl

lemma bind_check_eq_ok {α : Type} {c : Bool} {x : Except PlanError Unit}
    {f : Unit → Except PlanError α} {a : α} :
    ((if c then x else .ok ()) >>= f) = .ok a ↔ (c = true → x = .ok ()) ∧ f () = .ok a := by
  rw [bind_eq_ok]
  constructor
  · rintro ⟨⟨⟩, hx, hf⟩
    exact ⟨fun hc => by rwa [if_pos hc] at hx, hf⟩
  · rintro ⟨hx, hf⟩
    refine ⟨(), ?_, hf⟩
    split
    next hc => exact hx hc
    next => rfl

lemma ofGroup_eq (p : Plan) (g : Group) : Resolved.ofGroup p g =
    ((if g.inputs.isEmpty then .error (.emptyGroup g.id) else .ok ()) >>= fun () =>
      g.inputs.mapM (Resolved.resolveInput p g) >>= fun es =>
        (if g.combination.isKeyed then checkSides (Group.nodeId g.id) es else .ok ()) >>= fun () =>
          .ok ⟨g, es⟩) := by
  rw [Resolved.ofGroup]
  cases g.inputs.isEmpty with
  | true => rfl
  | false =>
    cases g.combination.isKeyed with
    | true => rfl
    | false => rfl

lemma ofGroup_eq_ok {r : Resolved} :
    Resolved.ofGroup p g = .ok r ↔ p.Resolves g ∧ p.resolve g = r := by
  have hinputs : ∀ es, g.inputs.mapM (Resolved.resolveInput p g) = .ok es ↔
      (∀ i ∈ g.inputs, ∃ source, p.inputNode? i.ref = some source) ∧
        g.inputs.map (p.inputEdge g) = es :=
    fun es => mapM_eq_ok_map fun i e => resolveInput_eq_ok
  rw [ofGroup_eq, bind_check_eq_ok, bind_eq_ok]
  simp only [hinputs, bind_check_eq_ok, Except.ok.injEq]
  constructor
  · rintro ⟨hne, es, ⟨hknown, rfl⟩, hsides, hr⟩
    refine ⟨⟨fun hnil => ?_, hknown, fun hkeyed => checkSides_resolve.mp (hsides hkeyed)⟩, hr⟩
    rw [hnil] at hne
    cases hne rfl
  · rintro ⟨⟨hne, hknown, hsides⟩, hr⟩
    refine ⟨fun hnil => ?_, _, ⟨hknown, rfl⟩, ?_, hr⟩
    · exact absurd (List.isEmpty_iff.mp hnil) hne
    · exact fun hkeyed => checkSides_resolve.mpr (hsides hkeyed)

lemma foldlM_addEdge_eq_ok {es : List Edge} :
    es.foldlM Draft.addEdge d = .ok d' ↔ d.Extends [] es d' := by
  have hstep : ∀ (d : Draft) (e : Edge) (d' : Draft),
      d.addEdge e = .ok d' ↔ True ∧ d.Extends [] [e] d' :=
    fun d e d' => Draft.addEdge_eq_ok.trans (and_iff_right trivial).symm
  rw [Draft.foldlM_eq_ok hstep, List.flatMap_singleton', List.flatMap_eq_nil_iff.mpr fun _ _ => rfl]
  exact and_iff_right fun _ _ => trivial

lemma addGroup_eq_ok {r : Resolved} {schemas : KeyMap Schema} {links : KeyMap String} :
    Draft.addGroup schemas links d r = .ok d' ↔ d.Extends [r.node schemas links] r.edges d' := by
  simp only [Draft.addGroup, bind_eq_ok, foldlM_addEdge_eq_ok, Draft.addNode_eq_ok]
  exact Draft.extends_node_iff.symm

lemma addPostOp_eq_ok {op : PostOp} : d.addPostOp p op = .ok d' ↔
    (∃ source, p.targetNode? op.target = some source) ∧
      d.Extends [p.postNode op] [p.postEdge op] d' := by
  rw [Draft.addPostOp, Plan.postNode, Plan.postEdge, Plan.postSource]
  cases p.targetNode? op.target with
  | none => exact iff_of_false (fun h => nomatch h) (fun h => nomatch h.1)
  | some source =>
    rw [and_iff_right ⟨source, rfl⟩]
    simp only [bind_eq_ok, Draft.addNode_eq_ok, Draft.addEdge_eq_ok]
    exact Draft.extends_node_iff.symm

lemma foldlM_addScan_eq_ok {ss : List Scan} :
    ss.foldlM Draft.addScan d = .ok d' ↔ d.Extends (ss.map Scan.node) [] d' := by
  have hstep : ∀ (d : Draft) (s : Scan) (d' : Draft),
      d.addScan s = .ok d' ↔ True ∧ d.Extends [s.node] [] d' :=
    fun d s d' => Draft.addNode_eq_ok.trans (and_iff_right trivial).symm
  rw [Draft.foldlM_eq_ok hstep, ← List.map_eq_flatMap, List.flatMap_eq_nil_iff.mpr fun _ _ => rfl]
  exact and_iff_right fun _ _ => trivial

lemma foldlM_addGroup_eq_ok {rs : List Resolved} {schemas : KeyMap Schema} {links : KeyMap String} :
    rs.foldlM (Draft.addGroup schemas links) d = .ok d' ↔
      d.Extends (rs.map (Resolved.node schemas links)) (rs.flatMap Resolved.edges) d' := by
  have hstep : ∀ (d : Draft) (r : Resolved) (d' : Draft),
      Draft.addGroup schemas links d r = .ok d' ↔
        True ∧ d.Extends [r.node schemas links] r.edges d' :=
    fun d r d' => addGroup_eq_ok.trans (and_iff_right trivial).symm
  rw [Draft.foldlM_eq_ok hstep, ← List.map_eq_flatMap]
  exact and_iff_right fun _ _ => trivial

lemma foldlM_addPostOp_eq_ok {ops : List PostOp} :
    ops.foldlM (Draft.addPostOp p) d = .ok d' ↔
      (∀ op ∈ ops, ∃ source, p.targetNode? op.target = some source) ∧
        d.Extends (ops.map p.postNode) (ops.map p.postEdge) d' := by
  have hstep : ∀ (d : Draft) (op : PostOp) (d' : Draft), d.addPostOp p op = .ok d' ↔
      (∃ source, p.targetNode? op.target = some source) ∧
        d.Extends [p.postNode op] [p.postEdge op] d' := fun d op d' => addPostOp_eq_ok
  rw [Draft.foldlM_eq_ok hstep, ← List.map_eq_flatMap, ← List.map_eq_flatMap]

lemma extends_plan_iff : d.Extends p.nodes p.edges d' ↔
    ∃ a, d.Extends (p.scans.map Scan.node) [] a ∧
      ∃ b, a.Extends ((p.groups.map p.resolve).map (Resolved.node p.schemas p.links))
          ((p.groups.map p.resolve).flatMap Resolved.edges) b ∧
        b.Extends (p.postOps.map p.postNode) (p.postOps.map p.postEdge) d' := by
  have hscans : ∀ b, d.Extends (p.scans.map Scan.node ++ p.groups.map p.groupNode)
      (p.groups.flatMap fun g => g.inputs.map (p.inputEdge g)) b ↔
        ∃ a, d.Extends (p.scans.map Scan.node) [] a ∧ a.Extends (p.groups.map p.groupNode)
          (p.groups.flatMap fun g => g.inputs.map (p.inputEdge g)) b := by
    intro b
    rw [← Draft.extends_append_iff, List.nil_append]
  rw [List.map_map, List.flatMap_map, Plan.nodes, Plan.edges, Draft.extends_append_iff]
  simp only [hscans]
  constructor
  · rintro ⟨b, ⟨a, ha, hb⟩, hd'⟩
    exact ⟨a, ha, b, hb, hd'⟩
  · rintro ⟨a, ha, b, hb, hd'⟩
    exact ⟨b, ⟨a, ha, hb⟩, hd'⟩

lemma extends_empty_iff {ns : List Node} {es : List Edge} :
    Draft.Extends {} ns es d ↔
      (ns.map Node.id).Nodup ∧ (es.map Edge.id).Nodup ∧ d = Draft.extend {} ns es := by
  constructor
  · rintro ⟨hns, hes, hd⟩
    exact ⟨KeyMap.fresh_empty_iff.mp hns, KeyMap.fresh_empty_iff.mp hes, hd⟩
  · rintro ⟨hns, hes, hd⟩
    exact ⟨KeyMap.fresh_empty_iff.mpr hns, KeyMap.fresh_empty_iff.mpr hes, hd⟩

lemma Plan.map_id_nodes (p : Plan) : p.nodes.map Node.id = p.nodeIds := by
  simp only [Plan.nodes, Plan.nodeIds, List.map_append, List.map_map]
  rfl

namespace Plan

structure Drafted (p : Plan) : Prop where
  resolves : ∀ g ∈ p.groups, p.Resolves g
  targets : ∀ op ∈ p.postOps, ∃ source, p.targetNode? op.target = some source
  ids : p.nodeIds.Nodup
  edgeIds : (p.edges.map Edge.id).Nodup

theorem draft_eq_ok : p.draft = .ok d ↔ p.Drafted ∧ d = Draft.extend {} p.nodes p.edges := by
  have hgroups : ∀ rs, p.groups.mapM (Resolved.ofGroup p) = .ok rs ↔
      (∀ g ∈ p.groups, p.Resolves g) ∧ p.groups.map p.resolve = rs :=
    fun rs => mapM_eq_ok_map fun g r => ofGroup_eq_ok
  simp only [Plan.draft, bind_eq_ok, foldlM_addScan_eq_ok, hgroups, foldlM_addGroup_eq_ok,
    foldlM_addPostOp_eq_ok]
  constructor
  · rintro ⟨a, ha, _, ⟨hresolves, rfl⟩, b, hb, htargets, hd⟩
    have hall := extends_plan_iff.mpr ⟨a, ha, b, hb, hd⟩
    rw [extends_empty_iff, p.map_id_nodes] at hall
    exact ⟨⟨hresolves, htargets, hall.1, hall.2.1⟩, hall.2.2⟩
  · rintro ⟨⟨hresolves, htargets, hids, hedges⟩, hd⟩
    rw [← p.map_id_nodes] at hids
    obtain ⟨a, ha, b, hb, hd⟩ := extends_plan_iff.mp (extends_empty_iff.mpr ⟨hids, hedges, hd⟩)
    exact ⟨a, ha, _, ⟨hresolves, rfl⟩, b, hb, htargets, hd⟩

end Plan

end Recombine
