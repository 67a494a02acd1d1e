import Mathlib.Data.List.Find
import Recombine.Proofs.Dag.Structure
import Recombine.Proofs.Evaluation.Interpretation

/-! What an output depends on: the relations of the scans that lead to its node, and no others. -/

namespace Recombine.Dag

open Attempt

variable {ops : Operators} {d : Dag} {data data' computed : Relations} {id : String}
  {cancelledAt : Option Nat} {out : Relations}

def Reaches (d : Dag) (u v : String) : Prop :=
  Relation.ReflTransGen (fun u v => (u, v) ∈ d.edges.map Edge.arc) u v

def AgreeFor (d : Dag) (data data' : Relations) (id : String) : Prop :=
  ∀ s ∈ d.scanIds, d.Reaches s id → data.get? s = data'.get? s

lemma AgreeFor.source {e : Edge} (h : d.AgreeFor data data' e.target) (he : e ∈ d.edges) :
    d.AgreeFor data data' e.source := fun s hs hreaches =>
  h s hs (Relation.ReflTransGen.tail hreaches (List.mem_map_of_mem he))

lemma mem_scanIds {n : Node} {source : String} (hn : n ∈ d.nodes) (ha : n.action = .scan source) :
    n.id ∈ d.scanIds := by
  refine List.mem_map_of_mem (List.mem_filter.mpr ⟨hn, ?_⟩)
  rw [ha]
  rfl

lemma Gives.of_agreeFor (hsound : d.Sound) {x : Except RunError Relation}
    (h : Gives ops d data id x) (hagree : d.AgreeFor data data' id) : Gives ops d data' id x := by
  -- By induction on the meaning: no other scans reach the operands of a node than the node.
  induction h with
  | scan hn ha hrel =>
    rw [hagree _ (mem_scanIds hn ha) Relation.ReflTransGen.refl] at hrel
    exact .scan hn ha hrel
  | combine hn ha hsources hinputs hx ih =>
    refine .combine hn ha hsources (fun i hi => ih i hi ?_) hx
    have hoperand : i.1 ∈ Edge.operands (d.inbound _) := hsources ▸ List.mem_map_of_mem hi
    obtain ⟨e, he, hsource⟩ := mem_operands_iff.mp hoperand
    obtain ⟨he, htarget⟩ := List.mem_filter.mp he
    rw [← hsource]
    rw [← beq_iff_eq.mp htarget] at hagree
    exact hagree.source he
  | post hn ha hsource hinput hx ih =>
    obtain ⟨e, he, hinputs, htarget⟩ := hsound.posts _ hn ha
    obtain rfl : _ = e.source := List.singleton_inj.mp (hsource.symm.trans hinputs)
    rw [← htarget] at hagree
    exact .post hn ha hsource (ih (hagree.source he)) hx

lemma evaluateNodes_of_cancelledAt {ids : List String}
    (h : evaluateNodes ops d data cancelledAt computed ids = .ok out) :
    evaluateNodes ops d data none computed ids = .ok out := by
  induction ids generalizing cancelledAt computed with
  | nil => exact h
  | cons id ids ih =>
    rw [evaluateNodes] at h ⊢
    rw [if_neg (by simp)]
    split at h
    next => cases h
    next =>
      cases hnode : d.node? id with
      | none =>
        rw [hnode] at h
        exact ih h
      | some n =>
        rw [hnode] at h
        obtain ⟨rel, hrel, h⟩ := bind_eq_ok.mp h
        exact bind_eq_ok.mpr ⟨rel, hrel, ih h⟩

lemma evaluate_of_cancelledAt (h : d.evaluate ops data cancelledAt = .ok out) :
    d.evaluate ops data none = .ok out := by
  rw [evaluate] at h ⊢
  split at h
  next => cases h
  next =>
    obtain ⟨computed, hrun, h⟩ := bind_eq_ok.mp h
    exact bind_eq_ok.mpr ⟨computed, evaluateNodes_of_cancelledAt hrun, h⟩

lemma covered_of_evaluate (h : d.evaluate ops data cancelledAt = .ok out) :
    ∀ id ∈ d.scanIds, data.contains id = true := by
  rw [evaluate] at h
  split at h
  next => cases h
  next hmissing => exact missingScan?_eq_none_iff.mp hmissing

lemma interprets_of_evaluate (hsound : d.Sound) (hne : d.nodes ≠ [])
    (h : d.evaluate ops data cancelledAt = .ok out) : Interprets ops d data (.ok out) :=
  evaluate_of_cancelledAt h ▸ evaluate_interprets hsound (covered_of_evaluate h) hne

lemma keys_of_evaluate (hsound : d.Sound) (hne : d.nodes ≠ [])
    (h : d.evaluate ops data none = .ok out) : out.keys = d.terminals :=
  ((interprets_of_evaluate hsound hne h).of_ok hsound).2.1

lemma value_of_evaluate (hsound : d.Sound) (h : d.evaluate ops data cancelledAt = .ok out)
    (hid : id ∈ d.nodeIds) : ∃ rel, HasValue ops d data id rel ∧
      ∀ result, out.get? id = some result ↔ id ∈ d.terminals ∧ result = rel := by
  have hne : d.nodes ≠ [] := fun hnil => by rw [nodeIds, hnil] at hid; cases hid
  obtain ⟨hvalues, -, hget⟩ := (interprets_of_evaluate hsound hne h).of_ok hsound
  obtain ⟨rel, hrel⟩ := hvalues id hid
  refine ⟨rel, hrel, fun result => ?_⟩
  rw [hget]
  refine and_congr_right fun _ => ⟨fun hresult => ?_, ?_⟩
  · exact Except.ok.inj (hresult.unique hsound.ids hrel)
  · rintro rfl
    exact hrel

lemma hasValue_of_evaluate (hsound : d.Sound) (h : d.evaluate ops data cancelledAt = .ok out)
    {t : String} (ht : t ∈ d.terminals) :
    ∃ rel, HasValue ops d data t rel ∧ out.get? t = some rel := by
  obtain ⟨rel, hrel, hget⟩ := value_of_evaluate hsound h (mem_terminals_iff.mp ht).1
  exact ⟨rel, hrel, (hget rel).mpr ⟨ht, rfl⟩⟩

section Irrelevant

variable (hagree : ∀ id ∈ d.scanIds, data.get? id = data'.get? id)

include hagree

lemma nodeValue_of_agree {n : Node} (hn : n ∈ d.nodes) :
    nodeValue ops d data computed n = nodeValue ops d data' computed n := by
  rcases kinds_of_action n.action with ⟨source, ha⟩ | ⟨c, keys, ha⟩ | ha
  · rw [nodeValue, nodeValue, ha, hagree _ (mem_scanIds hn ha)]
  · rw [nodeValue, nodeValue, ha]
  · rw [nodeValue, nodeValue]
    split
    next hscan =>
      rw [hscan] at ha
      cases ha
    all_goals rfl

lemma evaluateNodes_of_agree (hsound : d.Sound) (ids : List String) :
    evaluateNodes ops d data cancelledAt computed ids =
      evaluateNodes ops d data' cancelledAt computed ids := by
  induction ids generalizing cancelledAt computed with
  | nil => rfl
  | cons id ids ih =>
    rw [evaluateNodes, evaluateNodes]
    cases hnode : d.node? id with
    | none => rw [ih]
    | some n =>
      have hn : n ∈ d.nodes := ((node?_eq_some_iff hsound.ascending).mp hnode).1
      simp only [nodeValue_of_agree hagree hn, ih]

lemma evaluate_of_agree (hsound : d.Sound) :
    d.evaluate ops data cancelledAt = d.evaluate ops data' cancelledAt := by
  have hmissing : d.missingScan? data = d.missingScan? data' := by
    rw [missingScan?, missingScan?]
    refine List.find?_congr fun id hid => ?_
    rw [KeyMap.contains_eq_isSome, KeyMap.contains_eq_isSome, hagree id hid]
  rw [evaluate, evaluate, hmissing]
  simp only [evaluateNodes_of_agree hagree hsound]

end Irrelevant

theorem outputs_depend_on_scans {p : Plan} (hcompile : p.compile = .ok d) (ops : Operators) :
    (∀ data data' cancelledAt cancelledAt' out out' t,
      d.evaluate ops data cancelledAt = .ok out → d.evaluate ops data' cancelledAt' = .ok out' →
        t ∈ d.terminals → d.AgreeFor data data' t →
          ∃ rel, out.get? t = some rel ∧ out'.get? t = some rel) ∧
    ∀ data data' cancelledAt, (∀ id ∈ d.scanIds, data.get? id = data'.get? id) →
      d.evaluate ops data cancelledAt = d.evaluate ops data' cancelledAt := by
  obtain ⟨w, rfl⟩ := Plan.compile_eq_ok.mp hcompile
  refine ⟨?_, fun data data' cancelledAt hagree => evaluate_of_agree hagree w.sound⟩
  intro data data' cancelledAt cancelledAt' out out' t hout hout' ht hagree
  obtain ⟨rel, hrel, hget⟩ := hasValue_of_evaluate w.sound hout ht
  obtain ⟨rel', hrel', hget'⟩ := hasValue_of_evaluate w.sound hout' ht
  have heq := (hrel.of_agreeFor w.sound hagree).unique w.sound.ids hrel'
  rw [← Except.ok.inj heq] at hget'
  exact ⟨rel, hget, hget'⟩

def sharedScan : Plan where
  scans := [{ id := "a", source := "x" }, { id := "b", source := "y" }]
  groups := [
    { id := "u", combination := .union, inputs := [{ ref := "a" }, { ref := "b" }] },
    { id := "v", combination := .standalone, inputs := [{ ref := "b" }] }]

lemma sharedScan_wellFormed : sharedScan.WellFormed := by decide +kernel

def changedRows : Relations := rowsOfTwo.insert "a" [Row.ofList [("n", .int 7)]]

lemma agreeFor_sharedScan : sharedScan.dag.AgreeFor rowsOfTwo changedRows "combine_v" := by
  have hdraft := (Plan.wellFormed_iff.mp sharedScan_wellFormed).1
  have harcs : ∀ arc ∈ sharedScan.dag.edges.map Edge.arc,
      arc.1 ≠ "combine_u" ∧ (arc.1 = "a" → arc.2 = "combine_u") := by
    intro arc harc
    have harcs : ∀ arc ∈ sharedScan.edges.map Edge.arc,
        arc.1 ≠ "combine_u" ∧ (arc.1 = "a" → arc.2 = "combine_u") := by
      decide
    exact harcs arc (((Plan.dag_edges_perm hdraft).map _).mem_iff.mp harc)
  intro s hs hreaches
  have hs' : s ∈ ["a", "b"] := (Plan.scanIds_perm hdraft).mem_iff.mp hs
  rcases List.mem_pair.mp hs' with rfl | rfl
  · -- From the first scan there is a path to the union alone.
    rcases Relation.ReflTransGen.cases_head hreaches with heq | ⟨w, haw, hw⟩
    · exact absurd heq (by decide)
    · obtain rfl : w = "combine_u" := (harcs _ haw).2 rfl
      rcases Relation.ReflTransGen.cases_head hw with heq | ⟨w', huw, -⟩
      · exact absurd heq (by decide)
      · exact absurd rfl (harcs _ huw).1
  · rfl

theorem outputs_of_sharedScan : sharedScan.compile = .ok sharedScan.dag ∧ ∃ out out',
    sharedScan.dag.evaluate RowWise.operators rowsOfTwo none = .ok out ∧
    sharedScan.dag.evaluate RowWise.operators changedRows none = .ok out' ∧
    "combine_v" ∈ sharedScan.dag.terminals ∧
    sharedScan.dag.AgreeFor rowsOfTwo changedRows "combine_v" ∧
    (∃ rel, out.get? "combine_v" = some rel ∧ out'.get? "combine_v" = some rel) ∧
    (∀ id ∈ sharedScan.dag.scanIds, rowsOfTwo.get? id = (rowsOfTwo.insert "z" []).get? id) ∧
    sharedScan.dag.evaluate ColumnWise.operators rowsOfTwo none =
      sharedScan.dag.evaluate ColumnWise.operators (rowsOfTwo.insert "z" []) none := by
  have hcompile : sharedScan.compile = .ok sharedScan.dag :=
    Plan.compile_eq_ok.mpr ⟨sharedScan_wellFormed, rfl⟩
  have hout : sharedScan.dag.evaluate RowWise.operators rowsOfTwo none = .ok (KeyMap.ofList [
      ("combine_u", [Row.ofList [("n", .int 1)], Row.ofList [("n", .int 2)]]),
      ("combine_v", [Row.ofList [("n", .int 2)]])]) := by
    decide_cbv
  have hout' : sharedScan.dag.evaluate RowWise.operators changedRows none = .ok (KeyMap.ofList [
      ("combine_u", [Row.ofList [("n", .int 7)], Row.ofList [("n", .int 2)]]),
      ("combine_v", [Row.ofList [("n", .int 2)]])]) := by
    decide_cbv
  have ht : "combine_v" ∈ sharedScan.dag.terminals := by decide_cbv
  have hextra : ∀ id ∈ sharedScan.dag.scanIds,
      rowsOfTwo.get? id = (rowsOfTwo.insert "z" []).get? id := by
    intro id hid
    have hid' : id ∈ ["a", "b"] :=
      (Plan.scanIds_perm (Plan.wellFormed_iff.mp sharedScan_wellFormed).1).mem_iff.mp hid
    rcases List.mem_pair.mp hid' with rfl | rfl <;> rfl
  refine ⟨hcompile, _, _, hout, hout', ht, agreeFor_sharedScan, ?_, hextra, ?_⟩
  · exact (outputs_depend_on_scans hcompile RowWise.operators).1 _ _ _ _ _ _ _ hout hout' ht
      agreeFor_sharedScan
  · exact (outputs_depend_on_scans hcompile ColumnWise.operators).2 _ _ none hextra

end Recombine.Dag
