import Recombine.Proofs.Evaluation.Dependence
import Recombine.Proofs.Evaluation.Progress

namespace Recombine

def Input.HasRole (roles : List String) (i : Input) : Prop := ∃ role ∈ i.role, role.toLower ∈ roles

instance (roles : List String) (i : Input) : Decidable (i.HasRole roles) :=
  inferInstanceAs (Decidable (∃ role ∈ i.role, role.toLower ∈ roles))

abbrev Input.IsLeft (i : Input) : Prop := i.HasRole ["left", "base", "primary"]

abbrev Input.IsRight (i : Input) : Prop := i.HasRole ["right", "compare", "secondary"]

def Operators.paired (ops : Operators) :
    Combination → Relation → Relation → List JoinKey → Except OperatorFault Relation
  | .compare => ops.compare
  | _ => ops.join

def Group.ofSides (ops : Operators) (g : Group) (left right : Relation) :
    Except RunError Relation :=
  if g.keys.isEmpty then .error (.missingJoinKeys (nodeId g.id) g.combination.name)
  else Dag.ofOperator (nodeId g.id) g.combination.name (ops.paired g.combination left right g.keys)

/-- The group has the two nodes as its left and its right operand, in each single step and in
whole runs. -/
structure Dag.TakesSides (d : Dag) (g : Group) (left right : String) : Prop where
  node : ∃ n, d.node? (Group.nodeId g.id) = some n ∧ n.inputs = [left, right]
  step : ∀ ops data computed n rel rel', d.node? (Group.nodeId g.id) = some n →
    computed.get? left = some rel → computed.get? right = some rel' →
      nodeValue ops d data computed n = g.ofSides ops rel rel'
  run : ∀ ops data cancelledAt out, d.evaluate ops data cancelledAt = .ok out →
    ∃ rel rel' combined, HasValue ops d data left rel ∧ HasValue ops d data right rel' ∧
      g.ofSides ops rel rel' = .ok combined ∧
        ∀ result, out.get? (Group.nodeId g.id) = some result ↔
          Group.nodeId g.id ∈ d.terminals ∧ result = combined

section Roles

variable {g : Group} {i j : Input}

lemma roleRank_of_isLeft (h : i.IsLeft) : roleRank i.role = 0 := by
  obtain ⟨role, hrole, hmem⟩ := h
  rw [roleRank, Option.mem_def.mp hrole, Option.map_some]
  exact if_pos hmem

lemma roleRank_of_isRight (h : i.IsRight) : roleRank i.role = 1 := by
  obtain ⟨role, hrole, hmem⟩ := h
  have hleft : role.toLower ∉ ["left", "base", "primary"] := by
    intro hleft
    simp only [List.mem_cons, List.not_mem_nil, or_false] at hmem hleft
    rcases hmem with hmem | hmem | hmem <;> rw [hmem] at hleft <;> revert hleft <;> decide
  rw [roleRank, Option.mem_def.mp hrole, Option.map_some]
  exact (if_neg hleft).trans (if_pos hmem)

lemma roleRank_eq_two (hleft : ¬ i.IsLeft) (hright : ¬ i.IsRight) : roleRank i.role = 2 := by
  rw [roleRank]
  cases hrole : i.role with
  | none => rfl
  | some role =>
    have hl : role.toLower ∉ ["left", "base", "primary"] := fun hmem => hleft ⟨role, hrole, hmem⟩
    have hr : role.toLower ∉ ["right", "compare", "secondary"] :=
      fun hmem => hright ⟨role, hrole, hmem⟩
    exact (if_neg hl).trans (if_neg hr)

lemma Group.HasSides.rank_ne (h : g.HasSides) (hinputs : g.inputs.Perm [i, j])
    (hrank : roleRank i.role < 2) : roleRank j.role ≠ roleRank i.role := by
  intro heq
  have hcount := h _ hrank
  rw [hinputs.countP_eq, List.countP_cons, List.countP_cons, heq] at hcount
  simp at hcount

end Roles

namespace Dag

variable {g : Group} {left right : String}

lemma combine_pair (ops : Operators) (hkeyed : g.combination.isKeyed = true)
    (rel rel' : Relation) : combine ops (Group.nodeId g.id) g.combination g.keys
      [(left, rel), (right, rel')] = g.ofSides ops rel rel' := by
  rw [Group.ofSides]
  cases hc : g.combination with
  | standalone => rw [hc] at hkeyed; cases hkeyed
  | union => rw [hc] at hkeyed; cases hkeyed
  | join => rfl
  | compare => rfl

lemma gatherInputs_pair {computed : Relations} {node operation : String} {rel rel' : Relation}
    (hleft : computed.get? left = some rel) (hright : computed.get? right = some rel') :
    gatherInputs computed node operation [left, right] = .ok [(left, rel), (right, rel')] := by
  rw [gatherInputs, List.mapM_cons, List.mapM_cons, List.mapM_nil, hleft, hright]
  rfl

lemma eq_pair_of_map_fst {inputs : List (String × Relation)}
    (h : inputs.map Prod.fst = [left, right]) :
    ∃ rel rel', inputs = [(left, rel), (right, rel')] := by
  obtain ⟨⟨_, rel⟩, rest, rfl, rfl, hrest⟩ := List.map_eq_cons_iff.mp h
  obtain ⟨⟨_, rel'⟩, rest, rfl, rfl, hnil⟩ := List.map_eq_cons_iff.mp hrest
  rw [List.map_eq_nil_iff.mp hnil]
  exact ⟨rel, rel', rfl⟩

end Dag

namespace Plan

variable {p : Plan} {d : Dag} {g : Group}

section Operands

variable {left right : String}

lemma nodeValue_of_operands (hkeyed : g.combination.isKeyed = true)
    (hoperands : Edge.operands (p.dag.inbound (Group.nodeId g.id)) = [left, right])
    {ops : Operators} {data computed : Relations} {rel rel' : Relation}
    (hleft : computed.get? left = some rel) (hright : computed.get? right = some rel') :
    Dag.nodeValue ops p.dag data computed (p.groupNode g) = g.ofSides ops rel rel' := by
  rw [Dag.nodeValue_groupNode, hoperands, Dag.gatherInputs_pair hleft hright]
  exact Dag.combine_pair ops hkeyed rel rel'

variable (w : p.WellFormed) (hg : g ∈ p.groups)

include w hg

variable (hkeyed : g.combination.isKeyed = true)
  (hoperands : Edge.operands (p.dag.inbound (Group.nodeId g.id)) = [left, right])

include hkeyed hoperands

lemma hasValue_groupNode {ops : Operators} {data : Relations} {combined : Relation}
    (h : Dag.HasValue ops p.dag data (Group.nodeId g.id) combined) :
    ∃ rel rel', Dag.HasValue ops p.dag data left rel ∧ Dag.HasValue ops p.dag data right rel' ∧
      g.ofSides ops rel rel' = .ok combined := by
  obtain ⟨inputs, hsources, hvalues, hcombine⟩ :=
    Dag.Gives.of_combine w.sound.ids (groupNode_mem_dag (wellFormed_iff.mp w).1 hg) rfl h
  obtain ⟨rel, rel', rfl⟩ := Dag.eq_pair_of_map_fst (hsources.trans hoperands)
  obtain ⟨hleft, hvalues⟩ := List.forall_mem_cons.mp hvalues
  refine ⟨rel, rel', hleft, hvalues _ List.mem_cons_self, ?_⟩
  rw [← Dag.combine_pair ops hkeyed rel rel']
  exact hcombine

lemma takesSides_of_operands : p.dag.TakesSides g left right := by
  have hmem := groupNode_mem_dag (wellFormed_iff.mp w).1 hg
  have hnode : p.dag.node? (Group.nodeId g.id) = some (p.groupNode g) :=
    (Dag.node?_eq_some_iff p.dag_nodes_ascending).mpr ⟨hmem, rfl⟩
  constructor
  · have hinputs := (inbound_of_combine (wellFormed_iff.mp w).1 hmem rfl).2
    exact ⟨p.groupNode g, hnode, hinputs.trans hoperands⟩
  · intro ops data computed n rel rel' hn hleft hright
    obtain rfl : p.groupNode g = n := Option.some.inj (hnode.symm.trans hn)
    exact nodeValue_of_operands hkeyed hoperands hleft hright
  · intro ops data cancelledAt out hout
    obtain ⟨combined, hcombined, hget⟩ :=
      Dag.value_of_evaluate w.sound hout (List.mem_map_of_mem hmem)
    obtain ⟨rel, rel', hleft, hright, hsides⟩ := hasValue_groupNode w hg hkeyed hoperands hcombined
    exact ⟨rel, rel', combined, hleft, hright, hsides, hget⟩

end Operands

lemma takesSides_of_notAfter (w : p.WellFormed) (hg : g ∈ p.groups)
    (hkeyed : g.combination.isKeyed = true) {i j : Input} (hinputs : g.inputs.Perm [i, j])
    (h : (p.inputEdge g i).OperandNotAfter (p.inputEdge g j)) :
    p.dag.TakesSides g (p.inputEdge g i).source (p.inputEdge g j).source := by
  have hperm := (inbound_groupNode (wellFormed_iff.mp w).1 hg).trans (hinputs.map _)
  have hoperands := Edge.operands_of_pairwise hperm (List.pairwise_pair.mpr h)
  exact takesSides_of_operands w hg hkeyed hoperands

/-- An input with a role of the left side always comes first, and one with a role of the right side
comes second only after such an input: before an input with another role or none it comes first. -/
theorem roles_decide_sides (hcompile : p.compile = .ok d) (hg : g ∈ p.groups)
    (hkeyed : g.combination.isKeyed = true) {i j : Input} (hinputs : g.inputs.Perm [i, j]) :
    ∃ s t, p.inputNode? i.ref = some s ∧ p.inputNode? j.ref = some t ∧
      (i.IsLeft → d.TakesSides g s t) ∧
      (i.IsRight → j.IsLeft → d.TakesSides g t s) ∧
      (i.IsRight → ¬ j.IsLeft → d.TakesSides g s t) ∧
      (¬ i.IsLeft → ¬ i.IsRight → ¬ j.IsLeft → ¬ j.IsRight → s ≤ t → d.TakesSides g s t) := by
  obtain ⟨w, rfl⟩ := compile_eq_ok.mp hcompile
  have hresolves := (wellFormed_iff.mp w).1.resolves g hg
  obtain ⟨s, hs⟩ := hresolves.known i (hinputs.mem_iff.mpr List.mem_cons_self)
  obtain ⟨t, ht⟩ := hresolves.known j
    (hinputs.mem_iff.mpr (List.mem_cons_of_mem _ List.mem_cons_self))
  have hsource : (p.inputEdge g i).source = s := by rw [inputEdge, hs, Option.getD_some]
  have htarget : (p.inputEdge g j).source = t := by rw [inputEdge, ht, Option.getD_some]
  have hthere : roleRank i.role < roleRank j.role ∨ roleRank i.role = roleRank j.role ∧ s ≤ t →
      p.dag.TakesSides g s t := by
    have h := takesSides_of_notAfter w hg hkeyed hinputs
    rwa [Edge.OperandNotAfter, hsource, htarget] at h
  have hback : roleRank j.role < roleRank i.role → p.dag.TakesSides g t s := by
    have h := takesSides_of_notAfter w hg hkeyed (hinputs.trans (List.Perm.swap j i []))
    rw [hsource, htarget] at h
    exact fun hrank => h (Or.inl hrank)
  have hsides := hresolves.sides hkeyed
  refine ⟨s, t, hs, ht, fun hi => ?_, fun hi hj => ?_, fun hi hj => ?_, fun hi hi' hj hj' hle => ?_⟩
  · have hrank := roleRank_of_isLeft hi
    have hne := hsides.rank_ne hinputs (by omega)
    exact hthere (Or.inl (by omega))
  · have hrank := roleRank_of_isRight hi
    have hrank' := roleRank_of_isLeft hj
    exact hback (by omega)
  · have hrank := roleRank_of_isRight hi
    have hne := hsides.rank_ne hinputs (by omega)
    have hright : ¬ j.IsRight := fun h => hne ((roleRank_of_isRight h).trans hrank.symm)
    have hrank' := roleRank_eq_two hj hright
    exact hthere (Or.inl (by omega))
  · exact hthere (Or.inr ⟨(roleRank_eq_two hi hi').trans (roleRank_eq_two hj hj').symm, hle⟩)

def rightAlone : Plan where
  scans := [{ id := "a", source := "x" }, { id := "b", source := "y" }]
  groups := [
    { id := "g", combination := .compare, keys := [{ left := "n", right := "n" }],
      inputs := [{ ref := "a" }, { ref := "b", role := some "right" }] }]

lemma rightAlone_wellFormed : rightAlone.WellFormed := by decide +kernel

theorem roles_decide_sides_of_two : joinOfUnion.compile = .ok joinOfUnion.dag ∧
    rightAlone.compile = .ok rightAlone.dag ∧
    (∃ g ∈ joinOfUnion.groups, g.combination.isKeyed = true ∧
      g.inputs = [{ ref := "a", role := some "right" }, { ref := "first", role := some "left" }] ∧
      joinOfUnion.dag.TakesSides g "post_first" "a") ∧
    ∃ g ∈ rightAlone.groups, g.combination.isKeyed = true ∧
      g.inputs = [{ ref := "a" }, { ref := "b", role := some "right" }] ∧
      rightAlone.dag.TakesSides g "b" "a" := by
  have hjoin : joinOfUnion.compile = .ok joinOfUnion.dag :=
    compile_eq_ok.mpr ⟨joinOfUnion_wellFormed, rfl⟩
  have halone : rightAlone.compile = .ok rightAlone.dag :=
    compile_eq_ok.mpr ⟨rightAlone_wellFormed, rfl⟩
  refine ⟨hjoin, halone, ⟨_, List.mem_cons_self, rfl, rfl, ?_⟩, _, List.mem_cons_self, rfl, rfl, ?_⟩
  · obtain ⟨s, t, hs, ht, -, hsides, -⟩ :=
      roles_decide_sides hjoin List.mem_cons_self rfl (List.Perm.refl _)
    cases hs
    cases ht
    exact hsides (by decide +kernel) (by decide +kernel)
  · obtain ⟨s, t, hs, ht, -, -, hsides, -⟩ :=
      roles_decide_sides halone List.mem_cons_self rfl (List.Perm.swap _ _ _)
    cases hs
    cases ht
    exact hsides (by decide +kernel) (by decide +kernel)

def rowsOfVersions : Relations := KeyMap.ofList [
  ("a", [Row.ofList [("n", .int 1), ("v", .text "old")]]),
  ("b", [Row.ofList [("n", .int 1), ("v", .text "new")]])]

lemma get?_rowsOfVersions {id : String} {rel : Relation} :
    rowsOfVersions.get? id = some rel ↔
      id = "a" ∧ rel = [Row.ofList [("n", .int 1), ("v", .text "old")]] ∨
      id = "b" ∧ rel = [Row.ofList [("n", .int 1), ("v", .text "new")]] := by
  rw [rowsOfVersions, KeyMap.get?_ofList_eq_some_iff (by decide), List.mem_pair, Prod.mk.injEq,
    Prod.mk.injEq]

lemma evaluate_rightAlone :
    rightAlone.dag.evaluate RowWise.operators rowsOfVersions none = .ok (KeyMap.ofList [
      ("combine_g",
        [Row.ofList [("n", .int 1), ("left_v", .text "new"), ("right_v", .text "old")]])]) := by
  have w := rightAlone_wellFormed
  have hdraft := (wellFormed_iff.mp w).1
  have hleft : Dag.HasValue RowWise.operators rightAlone.dag rowsOfVersions "a" _ :=
    hasValue_scan hdraft List.mem_cons_self (get?_rowsOfVersions.mpr (Or.inl ⟨rfl, rfl⟩))
  have hright : Dag.HasValue RowWise.operators rightAlone.dag rowsOfVersions "b" _ :=
    hasValue_scan hdraft (List.mem_cons_of_mem _ List.mem_cons_self)
      (get?_rowsOfVersions.mpr (Or.inr ⟨rfl, rfl⟩))
  have hranks : roleRank (some "right") < roleRank none := by decide +kernel
  refine evaluate_of_single w rfl rfl (by decide +kernel) (by decide +kernel) ?_
  exact gives_groupNode hdraft List.mem_cons_self
    [({ ref := "b", role := some "right" }, _), ({ ref := "a" }, _)]
    (List.Perm.swap _ _ []) (List.pairwise_pair.mpr (Or.inl hranks))
    (List.forall_mem_cons.mpr ⟨hright, List.forall_mem_singleton.mpr hleft⟩) (by decide +kernel)

theorem rightAlone_takes_right_first : rightAlone.compile = .ok rightAlone.dag ∧
    (∃ g ∈ rightAlone.groups, g.combination.isKeyed = true ∧
      g.inputs = [{ ref := "a" }, { ref := "b", role := some "right" }] ∧
      Input.IsRight { ref := "b", role := some "right" } ∧
      ¬ rightAlone.dag.TakesSides g "a" "b") ∧
    rightAlone.dag.evaluate RowWise.operators rowsOfVersions none = .ok (KeyMap.ofList [
      ("combine_g",
        [Row.ofList [("n", .int 1), ("left_v", .text "new"), ("right_v", .text "old")]])]) := by
  have w := rightAlone_wellFormed
  have hcompile : rightAlone.compile = .ok rightAlone.dag := compile_eq_ok.mpr ⟨w, rfl⟩
  refine ⟨hcompile, ⟨_, List.mem_cons_self, rfl, rfl, by decide +kernel, fun h => ?_⟩,
    evaluate_rightAlone⟩
  have hranks : roleRank (some "right") < roleRank none := by decide +kernel
  have hsides : rightAlone.dag.TakesSides _ "b" "a" :=
    takesSides_of_notAfter w List.mem_cons_self rfl (List.Perm.swap _ _ []) (Or.inl hranks)
  obtain ⟨n, hn, hinputs⟩ := h.node
  obtain ⟨m, hm, hinputs'⟩ := hsides.node
  cases hn.symm.trans hm
  exact absurd (hinputs.symm.trans hinputs') (by decide)

end Plan

end Recombine
