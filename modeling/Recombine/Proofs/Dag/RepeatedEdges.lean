import Recombine.Proofs.Dag.WellFormed

/-! Edges that are refused as repeated. An edge is known by a text that joins the ids of its nodes
and its role, so a plan is also refused if two different edges have one text. -/

namespace Recombine

open Attempt

attribute [ext] Edge

namespace Edge

def suffix (e : Edge) : String := e.role.elim "" fun role => ":" ++ role

/-- An id goes on where the text of the other edge goes on to its target or to its role. -/
inductive Blurs (e f : Edge) : Prop
  | source {rest : String} (h : f.source = e.source ++ "->" ++ rest)
  | target {role rest : String} (hsource : f.source = e.source) (hrole : e.role = some role)
      (h : f.target = e.target ++ ":" ++ rest)

variable {e f : Edge}

lemma id_eq (e : Edge) : e.id = e.source ++ "->" ++ (e.target ++ e.suffix) := by
  rw [id, suffix]
  cases e.role <;> simp [String.append_assoc]

lemma append_append_ne {s t u : String} (h : t ≠ "") : s ++ t ++ u ≠ s := by
  intro heq
  have hlength := congrArg String.length heq
  simp only [String.length_append] at hlength
  exact h (String.length_eq_zero_iff.mp (by omega))

lemma Blurs.ne (h : e.Blurs f) : e ≠ f := by
  rintro rfl
  cases h with
  | source h => exact append_append_ne (by decide) h.symm
  | target hsource hrole h => exact append_append_ne (by decide) h.symm

lemma suffix_inj (h : e.suffix = f.suffix) : e.role = f.role := by
  rw [suffix, suffix] at h
  cases he : e.role <;> cases hf : f.role <;> simp_all

lemma eq_append_of_toList {s t : String} (sep : String) {cs : List Char}
    (h : s.toList = t.toList ++ (sep.toList ++ cs)) : s = t ++ sep ++ String.ofList cs := by
  apply String.toList_injective
  simp [h]

lemma arrow_append_inj {mid cs ds : List Char}
    (h : "->".toList ++ cs = mid ++ ("->".toList ++ ds)) :
    mid = [] ∧ cs = ds ∨ ∃ rest, mid = "->".toList ++ rest := by
  rw [show "->".toList = ['-', '>'] by decide] at h ⊢
  match mid with
  | [] => simp_all
  | [c] => simp at h
  | c :: c' :: rest =>
    simp only [List.cons_append, List.nil_append, List.cons.injEq] at h
    obtain ⟨rfl, rfl, -⟩ := h
    exact Or.inr ⟨rest, rfl⟩

lemma split_id {s s' t t' : String} (h : s ++ "->" ++ t = s' ++ "->" ++ t') :
    s = s' ∧ t = t' ∨ (∃ rest, s' = s ++ "->" ++ rest) ∨ ∃ rest, s = s' ++ "->" ++ rest := by
  have hchars := congrArg String.toList h
  simp only [String.toList_append, List.append_assoc] at hchars
  rcases List.append_eq_append_iff.mp hchars with ⟨mid, hs, hback⟩ | ⟨mid, hs, hback⟩
  · rcases arrow_append_inj hback with ⟨rfl, ht⟩ | ⟨rest, rfl⟩
    · rw [List.append_nil] at hs
      exact Or.inl ⟨String.toList_injective hs.symm, String.toList_injective ht⟩
    · exact Or.inr (Or.inl ⟨_, eq_append_of_toList "->" hs⟩)
  · rcases arrow_append_inj hback with ⟨rfl, ht⟩ | ⟨rest, rfl⟩
    · rw [List.append_nil] at hs
      exact Or.inl ⟨String.toList_injective hs, String.toList_injective ht.symm⟩
    · exact Or.inr (Or.inr ⟨_, eq_append_of_toList "->" hs⟩)

lemma blurs_of_target (hsource : e.source = f.source) (hne : e.target ≠ f.target)
    (h : e.target ++ e.suffix = f.target ++ f.suffix) {mid : List Char}
    (hmid : f.target.toList = e.target.toList ++ mid) : e.Blurs f := by
  have hchars := congrArg String.toList h
  rw [String.toList_append, String.toList_append, hmid, List.append_assoc,
    List.append_cancel_left_eq] at hchars
  match mid with
  | [] =>
    rw [List.append_nil] at hmid
    exact absurd (String.toList_injective hmid.symm) hne
  | c :: rest =>
    cases hrole : e.role with
    | none => simp [suffix, hrole] at hchars
    | some role =>
      obtain ⟨rfl, -⟩ : ':' = c ∧ role.toList = rest ++ f.suffix.toList := by
        simpa [suffix, hrole] using hchars
      exact .target hsource.symm hrole (eq_append_of_toList ":" hmid)

lemma blurs_of_id_eq (h : e.id = f.id) (hne : e ≠ f) : e.Blurs f ∨ f.Blurs e := by
  rw [id_eq, id_eq] at h
  rcases split_id h with ⟨hsource, htarget⟩ | ⟨rest, hrest⟩ | ⟨rest, hrest⟩
  · have htargets : e.target ≠ f.target := by
      intro heq
      rw [heq, String.append_right_inj] at htarget
      exact hne (Edge.ext hsource heq (suffix_inj htarget))
    have hchars := congrArg String.toList htarget
    rw [String.toList_append, String.toList_append] at hchars
    rcases List.append_eq_append_iff.mp hchars with ⟨mid, hmid, -⟩ | ⟨mid, hmid, -⟩
    · exact Or.inl (blurs_of_target hsource htargets htarget hmid)
    · exact Or.inr (blurs_of_target hsource.symm htargets.symm htarget.symm hmid)
  · exact Or.inl (.source hrest)
  · exact Or.inr (.source hrest)

end Edge

namespace Draft

variable {d : Draft} {n : Node} {es fs : List Edge} {t : String}

def addAll (d : Draft) (n : Node) (es : List Edge) : Except PlanError Draft :=
  d.addNode n >>= fun d => es.foldlM addEdge d

lemma addNode_ne_duplicateEdge : d.addNode n ≠ .error (.duplicateEdge t) := by
  rw [addNode]
  split <;> simp

lemma addEdge_eq_error {e : Edge} (h : d.addEdge e = .error (.duplicateEdge t)) :
    t ∈ d.edges.keys ∧ e.id = t := by
  rw [addEdge] at h
  split at h
  next hmem =>
    cases h
    exact ⟨KeyMap.contains_iff.mp hmem, rfl⟩
  next => cases h

lemma addAll_eq_error (h : d.addAll n es = .error (.duplicateEdge t)) : n.id ∉ d.nodes.keys ∧
    ∃ before e after, es = before ++ e :: after ∧ e.id = t ∧
      (t ∈ d.edges.keys ∨ ∃ f ∈ before, f.id = t) := by
  rcases bind_eq_error.mp h with h | ⟨c, hc, h⟩
  · exact absurd h addNode_ne_duplicateEdge
  · obtain ⟨before, e, after, b, rfl, hb, he⟩ := foldlM_eq_error h
    obtain ⟨hnew, -, rfl⟩ := addNode_eq_ok.mp hc
    obtain ⟨-, -, rfl⟩ := foldlM_addEdge_eq_ok.mp hb
    obtain ⟨hmem, hid⟩ := addEdge_eq_error he
    refine ⟨hnew.2 n.id List.mem_cons_self, before, e, after, rfl, hid, ?_⟩
    rw [extend, KeyMap.mem_keys_insertAll] at hmem
    simpa [extend, KeyMap.insertAll] using hmem

lemma mem_nodes_extend {ns : List Node} {id : String} :
    id ∈ (extend {} ns es).nodes.keys ↔ id ∈ ns.map Node.id := by
  rw [extend, ← KeyMap.ofList_eq, KeyMap.mem_keys_ofList, List.map_map]
  rfl

lemma mem_edges_extend {ns : List Node} {id : String} :
    id ∈ (extend {} ns es).edges.keys ↔ ∃ e ∈ es, e.id = id := by
  change id ∈ (KeyMap.ofList (es.map fun e => (e.id, e))).keys ↔ _
  rw [KeyMap.mem_keys_ofList, List.map_map]
  exact List.mem_map

lemma addAll_extend_eq_error {ns : List Node} (hfs : ∀ f ∈ fs, f.target ∈ ns.map Node.id)
    (hes : ∀ e ∈ es, e.target = n.id)
    (h : (extend {} ns fs).addAll n es = .error (.duplicateEdge t)) :
    (∃ e f, [e, f].Sublist es ∧ e.id = t ∧ f.id = t) ∨
      ∃ e ∈ es, ∃ f ∈ fs, e ≠ f ∧ e.id = t ∧ f.id = t := by
  -- All edges of a draft lead to its nodes, so none of them is an edge of a new node.
  obtain ⟨hnew, before, e, after, rfl, hid, hmem | ⟨f, hf, hfid⟩⟩ := addAll_eq_error h
  · obtain ⟨f, hf, hfid⟩ := mem_edges_extend.mp hmem
    have he : e ∈ before ++ e :: after := List.mem_append_right _ List.mem_cons_self
    refine Or.inr ⟨e, he, f, hf, ?_, hid, hfid⟩
    rintro rfl
    apply hnew
    rw [← hes e he]
    exact mem_nodes_extend.mpr (hfs e hf)
  · refine Or.inl ⟨f, e, ?_, hfid, hid⟩
    exact (List.singleton_sublist.mpr hf).append (List.cons_sublist_cons.mpr (List.nil_sublist _))

end Draft

namespace Plan

variable {p : Plan} {g : Group} {op : PostOp} {t : String}

def RepeatsInput (p : Plan) (t : String) : Prop :=
  ∃ g ∈ p.groups, ∃ i j source, [i, j].Sublist g.inputs ∧ p.inputNode? i.ref = some source ∧
    p.inputNode? j.ref = some source ∧ i.role = j.role ∧
    Edge.id { source, target := Group.nodeId g.id, role := i.role } = t

def BlursEdges (p : Plan) (t : String) : Prop :=
  ∃ e ∈ p.edges, ∃ f ∈ p.edges, e.id = t ∧ f.id = t ∧ e.Blurs f

structure SeparatesIds (p : Plan) : Prop where
  arrows : ∀ id ∈ p.nodeIds, ∀ s s', id ≠ s ++ "->" ++ s'
  colons : ∀ g ∈ p.groups, ∀ s s', g.id ≠ s ++ ":" ++ s'

structure IsDrawn (p : Plan) (e : Edge) : Prop where
  mem : e ∈ p.edges
  source : e.source ∈ p.nodeIds

lemma isDrawn_inputEdge (h : p.Resolves g) (hg : g ∈ p.groups) {i : Input} (hi : i ∈ g.inputs) :
    p.IsDrawn (p.inputEdge g i) :=
  ⟨mem_edges_iff.mpr (Or.inl ⟨g, hg, i, hi, rfl⟩), source_inputEdge_mem (h.known i hi)⟩

lemma isDrawn_postEdge (hop : op ∈ p.postOps)
    (h : ∃ source, p.targetNode? op.target = some source) : p.IsDrawn (p.postEdge op) :=
  ⟨mem_edges_iff.mpr (Or.inr ⟨op, hop, rfl⟩), source_postEdge_mem h⟩

lemma addGroup_eq_addAll (schemas : KeyMap Schema) (links : KeyMap String) (d : Draft)
    (r : Resolved) : Draft.addGroup schemas links d r = d.addAll (r.node schemas links) r.edges :=
  rfl

lemma addPostOp_eq_addAll (h : ∃ source, p.targetNode? op.target = some source) (d : Draft) :
    d.addPostOp p op = d.addAll (p.postNode op) [p.postEdge op] := by
  obtain ⟨source, hsource⟩ := h
  rw [Draft.addPostOp, Draft.addAll, postNode, postEdge, postSource, hsource]
  simp only [List.foldlM_cons, List.foldlM_nil, bind_pure]
  rfl

def Coincides (p : Plan) (t : String) : Prop :=
  ∃ e f, p.IsDrawn e ∧ p.IsDrawn f ∧ e ≠ f ∧ e.id = t ∧ f.id = t

lemma repeated_of_sublist (h : p.Resolves g) (hg : g ∈ p.groups) {i j : Input}
    (hij : [i, j].Sublist g.inputs) (hi : (p.inputEdge g i).id = t)
    (hj : (p.inputEdge g j).id = t) : p.RepeatsInput t ∨ p.Coincides t := by
  have hmem : i ∈ g.inputs ∧ j ∈ g.inputs := ⟨hij.subset (by simp), hij.subset (by simp)⟩
  by_cases heq : p.inputEdge g i = p.inputEdge g j
  · obtain ⟨s, hs⟩ := h.known i hmem.1
    obtain ⟨s', hs'⟩ := h.known j hmem.2
    simp only [inputEdge, hs, hs', Option.getD_some, Edge.mk.injEq] at heq hi
    obtain ⟨rfl, -, hrole⟩ := heq
    exact Or.inl ⟨g, hg, i, j, s, hij, hs, hs', hrole, hi⟩
  · exact Or.inr ⟨_, _, isDrawn_inputEdge h hg hmem.1, isDrawn_inputEdge h hg hmem.2, heq, hi, hj⟩

section Groups

variable {gs : List Group} {e : Edge}

lemma exists_input (he : e ∈ (gs.map p.resolve).flatMap Resolved.edges) :
    ∃ g ∈ gs, ∃ i ∈ g.inputs, p.inputEdge g i = e := by
  obtain ⟨r, hr, he⟩ := List.mem_flatMap.mp he
  obtain ⟨g, hg, rfl⟩ := List.mem_map.mp hr
  obtain ⟨i, hi, rfl⟩ := List.mem_map.mp he
  exact ⟨g, hg, i, hi, rfl⟩

lemma target_mem_of_groups (he : e ∈ (gs.map p.resolve).flatMap Resolved.edges) :
    e.target ∈ (gs.map p.groupNode).map Node.id := by
  obtain ⟨g, hg, i, -, rfl⟩ := exists_input he
  exact List.mem_map_of_mem (List.mem_map_of_mem hg)

lemma isDrawn_of_groups (h : ∀ g ∈ p.groups, p.Resolves g) (hgs : gs ⊆ p.groups)
    (he : e ∈ (gs.map p.resolve).flatMap Resolved.edges) : p.IsDrawn e := by
  obtain ⟨g, hg, i, hi, rfl⟩ := exists_input he
  exact isDrawn_inputEdge (h g (hgs hg)) (hgs hg) hi

end Groups

def partialDraft (p : Plan) (gs : List Group) (ops : List PostOp) : Draft :=
  .extend {} (p.scans.map Scan.node ++ (gs.map p.groupNode ++ ops.map p.postNode))
    ((gs.map p.resolve).flatMap Resolved.edges ++ ops.map p.postEdge)

lemma repeated_of_group (hresolves : ∀ g ∈ p.groups, p.Resolves g) {gs after : List Group}
    (hgroups : p.groups = gs ++ g :: after)
    (h : (p.partialDraft gs []).addAll (p.groupNode g) (p.resolve g).edges =
      .error (.duplicateEdge t)) : p.RepeatsInput t ∨ p.Coincides t := by
  have hg : g ∈ p.groups := by simp [hgroups]
  have hgs : gs ⊆ p.groups := by simp [hgroups]
  simp only [partialDraft, List.map_nil, List.append_nil] at h
  have hcases := Draft.addAll_extend_eq_error ?_ ?_ h
  · rcases hcases with ⟨e, f, hef, he, hf⟩ | ⟨e, he, f, hf, hne, hids⟩
    · obtain ⟨is, his, heq⟩ := List.sublist_map_iff.mp hef
      obtain ⟨i, j, rfl⟩ : ∃ i j, is = [i, j] := by
        apply List.length_eq_two.mp
        simpa using (congrArg List.length heq).symm
      obtain ⟨rfl, rfl⟩ : e = p.inputEdge g i ∧ f = p.inputEdge g j := by simpa using heq
      exact repeated_of_sublist (hresolves g hg) hg his he hf
    · obtain ⟨i, hi, rfl⟩ := List.mem_map.mp he
      have hdrawn := isDrawn_inputEdge (hresolves g hg) hg hi
      exact Or.inr ⟨_, f, hdrawn, isDrawn_of_groups hresolves hgs hf, hne, hids⟩
  · intro f hf
    rw [List.map_append]
    exact List.mem_append_right _ (target_mem_of_groups hf)
  · intro e he
    obtain ⟨i, -, rfl⟩ := List.mem_map.mp he
    rfl

lemma exists_target_of_duplicate {d : Draft}
    (h : d.addPostOp p op = .error (.duplicateEdge t)) :
    ∃ source, p.targetNode? op.target = some source := by
  cases htarget : p.targetNode? op.target with
  | some source => exact ⟨source, rfl⟩
  | none =>
    rw [Draft.addPostOp, htarget] at h
    cases h

lemma coincides_of_postOp (hresolves : ∀ g ∈ p.groups, p.Resolves g) {ops : List PostOp}
    (hops : ∀ op ∈ ops, op ∈ p.postOps ∧ ∃ source, p.targetNode? op.target = some source)
    (hop : op ∈ p.postOps)
    (h : (p.partialDraft p.groups ops).addPostOp p op = .error (.duplicateEdge t)) :
    p.Coincides t := by
  have htarget := exists_target_of_duplicate h
  rw [addPostOp_eq_addAll htarget] at h
  have hcases := Draft.addAll_extend_eq_error ?_ ?_ h
  · rcases hcases with ⟨e, f, hef, -, -⟩ | ⟨e, he, f, hf, hne, hids⟩
    · have hlength := hef.length_le
      simp at hlength
    · rw [List.mem_singleton.mp he] at hne hids
      refine ⟨_, f, isDrawn_postEdge hop htarget, ?_, hne, hids⟩
      rcases List.mem_append.mp hf with hf | hf
      · exact isDrawn_of_groups hresolves (List.Subset.refl _) hf
      · obtain ⟨op', hop', rfl⟩ := List.mem_map.mp hf
        exact isDrawn_postEdge (hops op' hop').1 (hops op' hop').2
  · intro f hf
    rw [List.map_append, List.map_append]
    rcases List.mem_append.mp hf with hf | hf
    · exact List.mem_append_right _ (List.mem_append_left _ (target_mem_of_groups hf))
    · obtain ⟨op', hop', rfl⟩ := List.mem_map.mp hf
      refine List.mem_append_right _ (List.mem_append_right _ ?_)
      exact List.mem_map_of_mem (List.mem_map_of_mem hop')
  · intro e he
    rw [List.mem_singleton.mp he]
    rfl

lemma repeated_of_draft (h : p.draft = .error (.duplicateEdge t)) :
    p.RepeatsInput t ∨ p.Coincides t := by
  rcases bind_eq_error.mp h with h | ⟨a, ha, h⟩
  · obtain ⟨before, s, after, c, -, -, h⟩ := foldlM_eq_error h
    exact absurd h Draft.addNode_ne_duplicateEdge
  rcases bind_eq_error.mp h with h | ⟨rs, hrs, h⟩
  · obtain ⟨g, -, h⟩ := mapM_eq_error h
    cases raises_ofGroup p g _ h
  obtain ⟨-, -, rfl⟩ := foldlM_addScan_eq_ok.mp ha
  obtain ⟨hresolves, rfl⟩ := (mapM_eq_ok_map fun g r => ofGroup_eq_ok).mp hrs
  rcases bind_eq_error.mp h with h | ⟨b, hb, h⟩
  · obtain ⟨before, r, after, c, hsplit, hc, h⟩ := foldlM_eq_error h
    obtain ⟨gs, gs', hgroups, rfl, hafter⟩ := List.map_eq_append_iff.mp hsplit
    obtain ⟨g, after', rfl, rfl, -⟩ := List.map_eq_cons_iff.mp hafter
    obtain ⟨-, -, rfl⟩ := foldlM_addGroup_eq_ok.mp hc
    refine repeated_of_group hresolves hgroups ?_
    rw [addGroup_eq_addAll, ← Draft.extend_append, List.nil_append, List.map_map] at h
    rw [partialDraft, List.map_nil, List.map_nil, List.append_nil, List.append_nil]
    exact h
  · obtain ⟨before, op, after, c, hsplit, hc, h⟩ := foldlM_eq_error h
    obtain ⟨-, -, rfl⟩ := foldlM_addGroup_eq_ok.mp hb
    obtain ⟨htargets, -, -, rfl⟩ := foldlM_addPostOp_eq_ok.mp hc
    rw [← Draft.extend_append, ← Draft.extend_append, List.nil_append, List.map_map] at h
    refine Or.inr (coincides_of_postOp hresolves (fun op' hop' => ⟨?_, htargets op' hop'⟩) ?_ h)
    · simp [hsplit, hop']
    · simp [hsplit]

lemma blursEdges_of_coincides (h : p.Coincides t) : p.BlursEdges t := by
  obtain ⟨e, f, he, hf, hne, hid, hid'⟩ := h
  rcases Edge.blurs_of_id_eq (hid.trans hid'.symm) hne with hblurs | hblurs
  · exact ⟨e, he.mem, f, hf.mem, hid, hid', hblurs⟩
  · exact ⟨f, hf.mem, e, he.mem, hid', hid, hblurs⟩

lemma not_blurs_of_separatesIds (h : p.SeparatesIds) {e f : Edge} (he : p.IsDrawn e)
    (hf : p.IsDrawn f) : ¬ e.Blurs f := by
  intro hblurs
  cases hblurs with
  | source hsource => exact h.arrows _ hf.source _ _ hsource
  | target hsource hrole htarget =>
    rename_i role rest
    rcases mem_edges_iff.mp he.mem with ⟨g, -, i, -, rfl⟩ | ⟨op, -, rfl⟩
    · have hnodeId : (p.inputEdge g i).target ++ ":" ++ rest =
          Group.nodeId (g.id ++ ":" ++ rest) := by
        simp [inputEdge, Group.nodeId, String.append_assoc]
      rw [hnodeId] at htarget
      rcases mem_edges_iff.mp hf.mem with ⟨g', hg', i', -, rfl⟩ | ⟨op, -, rfl⟩
      · exact h.colons g' hg' g.id rest ((String.append_right_inj _).mp htarget)
      · exact groupNodeId_ne_postNodeId _ _ htarget.symm
    · cases hrole

lemma not_repeatsInput_of_nodup (h : (p.edges.map Edge.id).Nodup) : ¬ p.RepeatsInput t := by
  rintro ⟨g, hg, i, j, source, hij, hi, hj, hrole, -⟩
  have hsame : p.inputEdge g i = p.inputEdge g j := by simp [inputEdge, hi, hj, hrole]
  have hall : (g.inputs.map (p.inputEdge g)).Sublist p.edges := by
    refine (List.sublist_flatten_of_mem ?_).trans (List.sublist_append_left _ _)
    exact List.mem_map_of_mem hg
  have hpair := h.sublist (((hij.map (p.inputEdge g)).trans hall).map Edge.id)
  simp [hsame] at hpair

lemma not_blursEdges_of_nodup (h : (p.edges.map Edge.id).Nodup) : ¬ p.BlursEdges t := by
  rintro ⟨e, he, f, hf, hid, hid', hblurs⟩
  exact hblurs.ne (List.inj_on_of_nodup_map h he hf (hid.trans hid'.symm))

lemma repeated_of_compile (h : p.compile = .error (.duplicateEdge t)) :
    p.RepeatsInput t ∨ p.Coincides t := by
  rw [compile_eq] at h
  rcases bind_eq_error.mp h with h | ⟨d, hd, h⟩
  · exact repeated_of_draft h
  · obtain ⟨hdraft, rfl⟩ := draft_eq_ok.mp hd
    rcases bind_eq_error.mp h with h | ⟨⟨⟩, -, h⟩
    · cases raises_check hdraft _ h
    · cases h

/-- An edge is reported as a duplicate of one that a group lists twice or of a different edge with
the same text, and then some id has a separator in it. Plans with such edges never compile. -/
theorem compile_duplicateEdge (p : Plan) (t : String) :
    (p.compile = .error (.duplicateEdge t) → p.RepeatsInput t ∨ p.BlursEdges t) ∧
    (p.SeparatesIds → p.compile = .error (.duplicateEdge t) → p.RepeatsInput t) ∧
    (p.RepeatsInput t ∨ p.BlursEdges t → ∀ d, p.compile ≠ .ok d) := by
  refine ⟨fun h => ?_, fun hids h => ?_, fun h d hd => ?_⟩
  · exact (repeated_of_compile h).imp_right blursEdges_of_coincides
  · refine (repeated_of_compile h).resolve_right ?_
    rintro ⟨e, f, he, hf, hne, hid, hid'⟩
    rcases Edge.blurs_of_id_eq (hid.trans hid'.symm) hne with hblurs | hblurs
    · exact not_blurs_of_separatesIds hids he hf hblurs
    · exact not_blurs_of_separatesIds hids hf he hblurs
  · have hnodup := (compile_eq_ok.mp hd).1.edgeIds
    exact h.elim (not_repeatsInput_of_nodup hnodup) (not_blursEdges_of_nodup hnodup)

def inputTwice : Plan where
  scans := [{ id := "a", source := "x" }]
  groups := [{ id := "g", combination := .standalone, inputs := [{ ref := "a" }, { ref := "a" }] }]

lemma separatesIds_inputTwice : inputTwice.SeparatesIds where
  arrows := by
    have hdashes : ∀ id ∈ inputTwice.nodeIds, '-' ∉ id.toList := by decide
    rintro id hid s s' rfl
    exact hdashes _ hid (by simp)
  colons := by
    have hcolons : ∀ g ∈ inputTwice.groups, ':' ∉ g.id.toList := by decide
    intro g hg s s' hid
    exact hcolons g hg (by simp [hid])

theorem compile_inputTwice : inputTwice.compile = .error (.duplicateEdge "a->combine_g") ∧
    inputTwice.SeparatesIds ∧ inputTwice.RepeatsInput "a->combine_g" := by
  have hdraft : inputTwice.draft = .error (.duplicateEdge "a->combine_g") := rfl
  have hcompile : inputTwice.compile = .error (.duplicateEdge "a->combine_g") := by
    rw [compile_eq, hdraft]
    rfl
  exact ⟨hcompile, separatesIds_inputTwice,
    (compile_duplicateEdge _ _).2.1 separatesIds_inputTwice hcompile⟩

def joinedText : Plan where
  scans := [{ id := "a", source := "x" }]
  groups := [
    { id := "g", combination := .standalone, inputs := [{ ref := "a", role := some "r" }] },
    { id := "g:r", combination := .standalone, inputs := [{ ref := "a" }] }]

theorem compile_joinedText : joinedText.compile = .error (.duplicateEdge "a->combine_g:r") ∧
    ∀ t, ¬ joinedText.RepeatsInput t := by
  constructor
  · have hdraft : joinedText.draft = .error (.duplicateEdge "a->combine_g:r") := rfl
    rw [compile_eq, hdraft]
    rfl
  · rintro t ⟨g, hg, i, j, source, hij, -⟩
    have hsingle : ∀ g ∈ joinedText.groups, g.inputs.length ≤ 1 := by decide
    have hlength := hij.length_le.trans (hsingle g hg)
    simp at hlength

end Plan

end Recombine
