import Recombine.Proofs.Evaluation.Dependence
import Recombine.Proofs.Evaluation.Progress

namespace Recombine

open Attempt

def Dag.Compatible (xs : List (String × Relation)) : Prop :=
  ∀ x ∈ xs, ∀ y ∈ xs, Relation.SameColumns x.2 y.2

structure Supply where
  input : Input
  source : String
  rel : Relation

def Supply.operand (s : Supply) : String × Relation := (s.source, s.rel)

namespace Plan

structure Supplies (p : Plan) (found : String → Relation → Prop) (g : Group) (ss : List Supply) :
    Prop where
  inputs : (ss.map Supply.input).Perm g.inputs
  sources : ∀ s ∈ ss, p.inputNode? s.input.ref = some s.source
  rows : ∀ s ∈ ss, found s.source s.rel
  order : ss.Pairwise fun s t => roleRank s.input.role < roleRank t.input.role ∨
    roleRank s.input.role = roleRank t.input.role ∧ s.source ≤ t.source

def Operands (p : Plan) (found : String → Relation → Prop) (g : Group)
    (xs : List (String × Relation)) : Prop :=
  ∃ ss, p.Supplies found g ss ∧ ss.map Supply.operand = xs

/-- The law of unions: what a group makes of the rows that are found for its inputs. -/
structure Unites (p : Plan) (found : String → Relation → Prop) (g : Group)
    (result : Except RunError Relation) : Prop where
  operands : ∃ xs, p.Operands found g xs
  ok_iff : ∀ xs, p.Operands found g xs → ((∃ out, result = .ok out) ↔ Dag.Compatible xs)
  rows : ∀ xs out, p.Operands found g xs → result = .ok out →
    out = xs.flatMap Prod.snd ∧ out.length = (xs.map fun x => x.2.length).sum
  fault : ∀ xs e, p.Operands found g xs → result = .error e →
    ∃ first culprit r s, Dag.FirstMismatch xs first culprit r s ∧
      e = .schemaMismatch (Group.nodeId g.id) "union" (Dag.unionMismatch culprit
        (KeyMap.ofKeys s.columns) first (KeyMap.ofKeys r.columns))
  twice : ∀ i ∈ g.inputs, ∀ j ∈ g.inputs, i.role ≠ j.role → ∀ source rel out,
    p.inputNode? i.ref = some source → p.inputNode? j.ref = some source → found source rel →
      result = .ok out → ∃ before mid after, out = before ++ rel ++ mid ++ rel ++ after

end Plan

namespace Dag

variable {node : String} {xs : List (String × Relation)}

lemma compatible_iff : Compatible xs ↔ unionFault? xs = none := by
  refine ⟨fun h => ?_, sameColumns_of_unionFault?⟩
  rw [Option.eq_none_iff_forall_ne_some]
  intro reason hreason
  obtain ⟨_, _, r, s, hfirst, -⟩ := firstMismatch_of_unionFault? hreason
  obtain ⟨i, hi, j, hj, -, -, hr, hs⟩ := hfirst.exists_inputs
  exact hfirst.differ (h i hi j hj r s hr hs)

lemma combineAll_eq_ok (hne : xs ≠ []) {out : Relation} :
    combineAll RowWise.operators node xs = .ok out ↔
      Compatible xs ∧ out = xs.flatMap Prod.snd := by
  have hrows : RowWise.operators.union (xs.map Prod.snd) = .ok (xs.flatMap Prod.snd) := by
    rw [List.flatMap_def]
    rfl
  rw [combineAll, if_neg (by simpa using hne), compatible_iff, hrows]
  cases unionFault? xs with
  | some reason => simp
  | none => simp [ofOperator, eq_comm]

lemma combineAll_eq_error (hne : xs ≠ []) {e : RunError}
    (h : combineAll RowWise.operators node xs = .error e) :
    ∃ first culprit r s, FirstMismatch xs first culprit r s ∧
      e = .schemaMismatch node "union" (unionMismatch culprit
        (KeyMap.ofKeys s.columns) first (KeyMap.ofKeys r.columns)) := by
  rw [combineAll, if_neg (by simpa using hne)] at h
  split at h
  next reason hreason =>
    obtain ⟨first, culprit, r, s, hfirst, rfl⟩ := firstMismatch_of_unionFault? hreason
    cases h
    exact ⟨first, culprit, r, s, hfirst, rfl⟩
  next => cases h

end Dag

namespace Plan

variable {p : Plan} {d : Dag} {g : Group} {found : String → Relation → Prop}
  {xs : List (String × Relation)}

lemma exists_supplies {f : Input → String} {inputs : List Input}
    (h : xs.map Prod.fst = inputs.map f) :
    ∃ ss : List Supply, ss.map Supply.operand = xs ∧ ss.map Supply.input = inputs ∧
      ∀ s ∈ ss, f s.input = s.source := by
  induction inputs generalizing xs with
  | nil => exact ⟨[], (List.map_eq_nil_iff.mp h).symm, rfl, List.forall_mem_nil _⟩
  | cons i inputs ih =>
    obtain ⟨⟨source, rel⟩, xs, rfl, rfl, htail⟩ := List.map_eq_cons_iff.mp h
    obtain ⟨ss, rfl, rfl, hsources⟩ := ih htail
    exact ⟨⟨i, f i, rel⟩ :: ss, rfl, rfl, List.forall_mem_cons.mpr ⟨rfl, hsources⟩⟩

lemma sorted_inputs (p : Plan) (g : Group) : ∃ inputs : List Input, inputs.Perm g.inputs ∧
    (inputs.map (p.inputEdge g)).Pairwise Edge.OperandNotAfter := by
  refine ⟨g.inputs.mergeSort fun i j => (p.inputEdge g i).isOperandBefore (p.inputEdge g j),
    List.mergeSort_perm _ _, List.pairwise_map.mpr ?_⟩
  exact (Sequence.pairwise_mergeSort compareKeys (fun i => (p.inputEdge g i).operandKey) _).imp
    isOperandBefore_iff.mp

lemma inputEdge_of_known {i : Input} {source : String} (h : p.inputNode? i.ref = some source) :
    p.inputEdge g i = { source, target := Group.nodeId g.id, role := i.role } := by
  rw [inputEdge, h, Option.getD_some]

section Operands

variable (h : p.Drafted) (hg : g ∈ p.groups)

include h hg

lemma Supplies.map_source {ss : List Supply} (hss : p.Supplies found g ss) :
    ss.map Supply.source = Edge.operands (p.dag.inbound (Group.nodeId g.id)) := by
  have hedge : ∀ s ∈ ss, p.inputEdge g s.input =
      { source := s.source, target := Group.nodeId g.id, role := s.input.role } :=
    fun s hs => inputEdge_of_known (hss.sources s hs)
  have hperm := (inbound_groupNode h hg).trans (hss.inputs.map (p.inputEdge g)).symm
  have hsorted : ((ss.map Supply.input).map (p.inputEdge g)).Pairwise Edge.OperandNotAfter := by
    rw [List.map_map, List.pairwise_map]
    refine hss.order.imp_of_mem fun {s t} hs ht hst => ?_
    simp only [Function.comp_apply, hedge s hs, hedge t ht]
    exact hst
  rw [Edge.operands_of_pairwise hperm hsorted, List.map_map, List.map_map]
  apply List.map_congr_left
  intro s hs
  simp [hedge s hs]

lemma operands_iff : p.Operands found g xs ↔
    xs.map Prod.fst = Edge.operands (p.dag.inbound (Group.nodeId g.id)) ∧
      ∀ x ∈ xs, found x.1 x.2 := by
  constructor
  · rintro ⟨ss, hss, rfl⟩
    refine ⟨?_, fun x hx => ?_⟩
    · rw [List.map_map, ← hss.map_source h hg]
      rfl
    · obtain ⟨s, hs, rfl⟩ := List.mem_map.mp hx
      exact hss.rows s hs
  · rintro ⟨hsources, hfound⟩
    obtain ⟨inputs, hinputs, hsorted⟩ := sorted_inputs p g
    have hperm := (inbound_groupNode h hg).trans (hinputs.map (p.inputEdge g)).symm
    rw [Edge.operands_of_pairwise hperm hsorted, List.map_map] at hsources
    obtain ⟨ss, rfl, rfl, hsource⟩ := exists_supplies hsources
    rw [List.map_map, List.pairwise_map] at hsorted
    refine ⟨ss, ⟨hinputs, fun s hs => ?_, fun s hs => hfound _ (List.mem_map_of_mem hs), ?_⟩, rfl⟩
    · obtain ⟨source, hknown⟩ := (h.resolves g hg).known s.input
        (hinputs.mem_iff.mp (List.mem_map_of_mem hs))
      rw [hknown, ← hsource s hs, Function.comp_apply, inputEdge_of_known hknown]
    · refine hsorted.imp_of_mem fun {s t} hs ht hst => ?_
      rw [← hsource s hs, ← hsource t ht]
      exact hst

variable (hfound : ∀ id rel rel', found id rel → found id rel' → rel = rel')

include hfound

lemma Operands.unique {ys : List (String × Relation)} (hxs : p.Operands found g xs)
    (hys : p.Operands found g ys) : ys = xs := by
  obtain ⟨hsources, hvalues⟩ := (operands_iff h hg).mp hxs
  obtain ⟨hsources', hvalues'⟩ := (operands_iff h hg).mp hys
  apply Sequence.eq_of_map_fst_eq (hsources'.trans hsources.symm)
  exact fun y hy rel hx => hfound _ _ _ (hvalues' y hy) (hvalues _ hx)

omit h hg in
lemma Supplies.exists_two {ss : List Supply} (hss : p.Supplies found g ss) {i j : Input}
    (hi : i ∈ g.inputs) (hj : j ∈ g.inputs) (hne : i ≠ j) {source : String} {rel : Relation}
    (hsource : p.inputNode? i.ref = some source) (hsource' : p.inputNode? j.ref = some source)
    (hrel : found source rel) :
    ∃ before s mid t after,
      ss = before ++ s :: (mid ++ t :: after) ∧ s.rel = rel ∧ t.rel = rel := by
  obtain ⟨s, hs, rfl⟩ := List.mem_map.mp (hss.inputs.mem_iff.mpr hi)
  obtain ⟨t, ht, rfl⟩ := List.mem_map.mp (hss.inputs.mem_iff.mpr hj)
  have hrows : ∀ u ∈ ss, p.inputNode? u.input.ref = some source → u.rel = rel := by
    intro u hu husource
    obtain rfl := Option.some.inj ((hss.sources u hu).symm.trans husource)
    exact hfound _ _ _ (hss.rows u hu) hrel
  have hsrel := hrows s hs hsource
  have htrel := hrows t ht hsource'
  have hst : t ≠ s := fun heq => hne (heq ▸ rfl)
  obtain ⟨front, back, rfl⟩ := List.append_of_mem hs
  rcases List.mem_append.mp ht with ht | ht
  · obtain ⟨before, mid, rfl⟩ := List.append_of_mem ht
    exact ⟨before, t, mid, s, back, by simp, htrel, hsrel⟩
  · obtain ⟨mid, after, rfl⟩ := List.append_of_mem ((List.mem_cons.mp ht).resolve_left hst)
    exact ⟨front, s, mid, t, after, rfl, hsrel, htrel⟩

lemma unites_of_operands (hxs : p.Operands found g xs) :
    p.Unites found g (Dag.combineAll RowWise.operators (Group.nodeId g.id) xs) := by
  have hunique : ∀ ys, p.Operands found g ys → ys = xs :=
    fun ys hys => Operands.unique h hg hfound hxs hys
  have hne : xs ≠ [] := by
    rintro rfl
    obtain ⟨ss, hss, hnil⟩ := hxs
    apply (h.resolves g hg).nonempty
    have hinputs := hss.inputs
    rwa [List.map_eq_nil_iff.mp hnil, List.map_nil, List.nil_perm] at hinputs
  constructor
  · exact ⟨xs, hxs⟩
  · intro ys hys
    rw [hunique ys hys]
    simp [Dag.combineAll_eq_ok hne]
  · intro ys out hys hout
    rw [hunique ys hys, ((Dag.combineAll_eq_ok hne).mp hout).2]
    simp [List.length_flatMap]
  · intro ys e hys he
    rw [hunique ys hys]
    exact Dag.combineAll_eq_error hne he
  · intro i hi j hj hrole source rel out hsource hsource' hrel hout
    obtain ⟨ss, hss, rfl⟩ := hxs
    have hij : i ≠ j := fun heq => hrole (heq ▸ rfl)
    obtain ⟨before, s, mid, t, after, rfl, rfl, htrel⟩ :=
      hss.exists_two hfound hi hj hij hsource hsource' hrel
    obtain ⟨-, rfl⟩ := (Dag.combineAll_eq_ok hne).mp hout
    refine ⟨before.flatMap Supply.rel, mid.flatMap Supply.rel, after.flatMap Supply.rel, ?_⟩
    simp [List.flatMap_map, Supply.operand, htrel]

end Operands

section Runs

variable (w : p.WellFormed) (hg : g ∈ p.groups)

include w hg

lemma fails_of_evaluate {ops : Operators} {data : Relations} {e : RunError}
    (h : p.dag.evaluate ops data none = .error e) (hnode : e.node = Group.nodeId g.id) :
    Dag.Fails ops p.dag data (Group.nodeId g.id) e := by
  have hdraft := (wellFormed_iff.mp w).1
  cases hmissing : p.dag.missingScan? data with
  | some id =>
    rw [Dag.evaluate, hmissing] at h
    cases h
    obtain ⟨s, hs, hid⟩ := List.mem_map.mp
      ((scanIds_perm hdraft).mem_iff.mp (List.mem_of_find?_eq_some hmissing))
    exact absurd (hid.trans hnode) (scanId_ne_groupNodeId w.ids hs hg)
  | none =>
    have hdata := Dag.missingScan?_eq_none_iff.mp hmissing
    rw [Dag.evaluate_eq w.sound hdata (List.ne_nil_of_mem (groupNode_mem_dag hdraft hg))] at h
    rcases bind_eq_error.mp h with h | ⟨_, _, h⟩
    · obtain ⟨id, hfails, -⟩ := Dag.failsFirst_of_error w.sound hdata h
      rwa [← hnode, hfails.node_eq]
    · cases h

variable (hc : g.combination = .union)

include hc

lemma unites_of_gives {data : Relations} {result : Except RunError Relation}
    (h : Dag.Gives RowWise.operators p.dag data (Group.nodeId g.id) result) :
    p.Unites (Dag.HasValue RowWise.operators p.dag data) g result := by
  have hdraft := (wellFormed_iff.mp w).1
  obtain ⟨xs, hsources, hvalues, hcombine⟩ :=
    Dag.Gives.of_combine w.sound.ids (groupNode_mem_dag hdraft hg) rfl h
  change Dag.combine RowWise.operators (Group.nodeId g.id) g.combination g.keys xs = result
    at hcombine
  rw [← hcombine, hc]
  apply unites_of_operands hdraft hg
  · intro id rel rel' hrel hrel'
    exact Except.ok.inj (Dag.Gives.unique w.sound.ids hrel hrel')
  · exact (operands_iff hdraft hg).mpr ⟨hsources, hvalues⟩

lemma unites_of_computed {data computed : Relations}
    (h : ∀ i ∈ g.inputs, ∀ source, p.inputNode? i.ref = some source → source ∈ computed.keys) :
    p.Unites (fun id rel => computed.get? id = some rel) g
      (Dag.nodeValue RowWise.operators p.dag data computed (p.groupNode g)) := by
  have hdraft := (wellFormed_iff.mp w).1
  have hcomputed : ∀ id ∈ Edge.operands (p.dag.inbound (Group.nodeId g.id)),
      id ∈ computed.keys := by
    intro id hid
    obtain ⟨i, hi, rfl⟩ := List.mem_map.mp ((operands_perm hdraft hg).mem_iff.mp hid)
    obtain ⟨source, hsource⟩ := (hdraft.resolves g hg).known i hi
    rw [inputEdge_of_known hsource]
    exact h i hi source hsource
  obtain ⟨xs, hgather, hsources, hvalues⟩ :=
    Dag.gatherInputs_eq_ok (Group.nodeId g.id) g.combination.name hcomputed
  rw [Dag.nodeValue_groupNode, hgather, hc]
  apply unites_of_operands hdraft hg
  · intro id rel rel' hrel hrel'
    exact Option.some.inj (hrel.symm.trans hrel')
  · exact (operands_iff hdraft hg).mpr ⟨hsources, hvalues⟩

end Runs

theorem unites_of_compile (hcompile : p.compile = .ok d) (hg : g ∈ p.groups)
    (hc : g.combination = .union) : ∃ n, d.node? (Group.nodeId g.id) = some n ∧
      (∀ data computed : Relations, (∀ i ∈ g.inputs, ∀ source, p.inputNode? i.ref = some source →
          source ∈ computed.keys) →
        p.Unites (fun id rel => computed.get? id = some rel) g
          (Dag.nodeValue RowWise.operators d data computed n)) ∧
      (∀ data out, d.evaluate RowWise.operators data none = .ok out →
        ∃ rel, p.Unites (Dag.HasValue RowWise.operators d data) g (.ok rel) ∧
          ∀ result, out.get? (Group.nodeId g.id) = some result ↔
            Group.nodeId g.id ∈ d.terminals ∧ result = rel) ∧
      ∀ data e, d.evaluate RowWise.operators data none = .error e → e.node = Group.nodeId g.id →
        p.Unites (Dag.HasValue RowWise.operators d data) g (.error e) := by
  obtain ⟨w, rfl⟩ := compile_eq_ok.mp hcompile
  have hmem := groupNode_mem_dag (wellFormed_iff.mp w).1 hg
  refine ⟨p.groupNode g, ?_, fun data computed h => unites_of_computed w hg hc h, ?_, ?_⟩
  · exact (Dag.node?_eq_some_iff p.dag_nodes_ascending).mpr ⟨hmem, rfl⟩
  · intro data out hout
    obtain ⟨rel, hrel, hget⟩ := Dag.value_of_evaluate w.sound hout (List.mem_map_of_mem hmem)
    exact ⟨rel, unites_of_gives w hg hc hrel, hget⟩
  · intro data e he hnode
    exact unites_of_gives w hg hc (fails_of_evaluate w hg he hnode)

def unionOfSame : Plan where
  scans := [{ id := "a", source := "x" }]
  groups := [
    { id := "u", combination := .union,
      inputs := [{ ref := "a" }, { ref := "a", role := some "again" }] }]

lemma unionOfSame_wellFormed : unionOfSame.WellFormed := by decide +kernel

def rowsOfOne : Relations := KeyMap.ofList [("a", [Row.ofList [("n", .int 1)]])]

theorem unites_unionOfSame : unionOfSame.compile = .ok unionOfSame.dag ∧
    ∃ g ∈ unionOfSame.groups, g.combination = .union ∧
      unionOfSame.Unites (Dag.HasValue RowWise.operators unionOfSame.dag rowsOfOne) g
        (.ok [Row.ofList [("n", .int 1)], Row.ofList [("n", .int 1)]]) := by
  have hcompile : unionOfSame.compile = .ok unionOfSame.dag :=
    compile_eq_ok.mpr ⟨unionOfSame_wellFormed, rfl⟩
  refine ⟨hcompile, _, List.mem_cons_self, rfl, ?_⟩
  obtain ⟨n, -, -, hrun, -⟩ := unites_of_compile hcompile List.mem_cons_self rfl
  have w := unionOfSame_wellFormed
  have hdraft := (wellFormed_iff.mp w).1
  have hkeys : ([("a", [Row.ofList [("n", .int 1)]])].map Prod.fst).Nodup := List.nodup_singleton _
  have hscan : Dag.HasValue RowWise.operators unionOfSame.dag rowsOfOne "a" _ :=
    hasValue_scan hdraft List.mem_cons_self
      ((KeyMap.get?_ofList_eq_some_iff hkeys).mpr List.mem_cons_self)
  have hranks : roleRank none = roleRank (some "again") := by decide +kernel
  have hout : unionOfSame.dag.evaluate RowWise.operators rowsOfOne none = .ok (KeyMap.ofList [
      ("combine_u", [Row.ofList [("n", .int 1)], Row.ofList [("n", .int 1)]])]) := by
    refine evaluate_of_single w rfl rfl (by decide +kernel) (by decide +kernel) ?_
    exact gives_groupNode hdraft List.mem_cons_self
      [({ ref := "a" }, _), ({ ref := "a", role := some "again" }, _)]
      (List.Perm.refl _) (List.pairwise_pair.mpr (Or.inr ⟨hranks, String.le_refl "a"⟩))
      (List.forall_mem_cons.mpr ⟨hscan, List.forall_mem_singleton.mpr hscan⟩) (by decide +kernel)
  obtain ⟨rel, hunites, hget⟩ := hrun rowsOfOne _ hout
  obtain ⟨-, rfl⟩ := (hget [Row.ofList [("n", .int 1)], Row.ofList [("n", .int 1)]]).mp (by decide)
  exact hunites

end Plan

end Recombine
