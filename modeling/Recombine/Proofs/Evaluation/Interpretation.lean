import Mathlib.Data.List.Permutation
import Recombine.Proofs.Evaluation.Runs

/-! Evaluation of compiled plans: its result holds the values of all terminal nodes, or the fault
of the first node that has one. -/

namespace Recombine.Dag

open Attempt

section

variable (ops : Operators) (d : Dag) (data : Relations)

def HasValues : Prop := ∀ id ∈ d.nodeIds, ∃ rel, HasValue ops d data id rel

def InLayer (k : Nat) (id : String) : Prop := ∃ layer, d.layers[k]? = some layer ∧ id ∈ layer

/-- The node fails, and no other does in an earlier layer or before it in its own. -/
def FailsFirst (id : String) (e : RunError) : Prop :=
  Fails ops d data id e ∧ ∃ k, d.InLayer k id ∧
    ∀ l id' e', d.InLayer l id' → Fails ops d data id' e' → k < l ∨ k = l ∧ id ≤ id'

structure Interprets (result : Except RunError Relations) : Prop where
  values : HasValues ops d data → ∃ out, result = .ok out ∧
    ∀ id rel, out.get? id = some rel ↔ id ∈ d.terminals ∧ HasValue ops d data id rel
  fault : ¬ HasValues ops d data → ∃ id e, result = .error e ∧ FailsFirst ops d data id e

end

variable {ops : Operators} {d : Dag} {data : Relations} {ids : List String}

lemma append_eq_split {as bs before after : List String} {v : String}
    (h : as ++ bs = before ++ v :: after) :
    (∃ mid, before = as ++ mid ∧ bs = mid ++ v :: after) ∨ ∃ mid, as = before ++ v :: mid := by
  rcases List.append_eq_append_iff.mp h with ⟨mid, hbefore, hbs⟩ | ⟨mid, has, hafter⟩
  · exact Or.inl ⟨mid, hbefore, hbs⟩
  · cases mid with
    | nil => exact Or.inl ⟨[], by rw [has]; simp, hafter.symm⟩
    | cons w mid =>
      obtain ⟨rfl, -⟩ := List.cons.inj hafter
      exact Or.inr ⟨mid, has⟩

lemma le_of_not_mem_before {before after : List String} {v w : String}
    (hasc : (before ++ v :: after).Pairwise fun u v => u < v) (hw : w ∈ before ++ v :: after)
    (hnot : w ∉ before) : v ≤ w := by
  have hafter := (List.pairwise_cons.mp (List.pairwise_append.mp hasc).2.1).1
  rcases List.mem_cons.mp ((List.mem_append.mp hw).resolve_left hnot) with rfl | hw
  · exact String.le_refl w
  · exact String.not_lt.mp (String.lt_asymm (hafter w hw))

lemma first_of_flatten_eq {layers : List (List String)}
    (hasc : ∀ layer ∈ layers, layer.Pairwise fun u v => u < v) {before after : List String}
    {v : String} (h : layers.flatten = before ++ v :: after) :
    ∃ (k : Nat) (layer : List String), layers[k]? = some layer ∧ v ∈ layer ∧
      ∀ (l : Nat) (layer' : List String) (w : String), layers[l]? = some layer' → w ∈ layer' →
        w ∉ before → k < l ∨ k = l ∧ v ≤ w := by
  induction layers generalizing before with
  | nil => simp at h
  | cons layer layers ih =>
    obtain ⟨hlayer, hlayers⟩ := List.forall_mem_cons.mp hasc
    rw [List.flatten_cons] at h
    rcases append_eq_split h with ⟨mid, rfl, hrest⟩ | ⟨mid, rfl⟩
    · obtain ⟨k, layer', hk, hv, hfirst⟩ := ih hlayers hrest
      refine ⟨k + 1, layer', hk, hv, fun l layer'' w hl hw hnot => ?_⟩
      rw [List.mem_append, not_or] at hnot
      cases l with
      | zero =>
        cases hl
        exact absurd hw hnot.1
      | succ l =>
        rcases hfirst l layer'' w hl hw hnot.2 with hlt | ⟨heq, hle⟩
        · left
          omega
        · right
          exact ⟨by omega, hle⟩
    · have hmem : v ∈ before ++ v :: mid := List.mem_append_right _ List.mem_cons_self
      refine ⟨0, _, rfl, hmem, fun l layer' w hl hw hnot => ?_⟩
      cases l with
      | zero =>
        cases hl
        exact Or.inr ⟨rfl, le_of_not_mem_before hlayer hw hnot⟩
      | succ l =>
        left
        omega

lemma missingScan?_eq_none_iff :
    d.missingScan? data = none ↔ ∀ id ∈ d.scanIds, data.contains id = true := by
  simp [missingScan?]

section Orders

variable (hsound : d.Sound) (hdata : ∀ id ∈ d.scanIds, data.contains id = true)

include hsound hdata

lemma faithful_of_ok (horder : d.IsOrder ids) {out : Relations}
    (hout : evaluateNodes ops d data none ∅ ids = .ok out) :
    Faithful ops d data d.nodeIds out := by
  have hrun := faithful_empty.evaluateNodes_ok hsound hdata
    (fun id hid => horder.perm.mem_iff.mp hid) horder.inOrder hout
  refine ⟨fun id => ?_, hrun.values⟩
  rw [hrun.keys, List.append_nil, List.mem_reverse, horder.perm.mem_iff]

omit hdata in
lemma Faithful.get?_eq_some_iff {computed : Relations}
    (h : Faithful ops d data d.nodeIds computed) {id : String} {rel : Relation} :
    computed.get? id = some rel ↔ id ∈ d.nodeIds ∧ HasValue ops d data id rel := by
  constructor
  · intro hget
    exact ⟨(h.keys id).mp (KeyMap.mem_keys_iff.mpr ⟨rel, hget⟩), h.values id rel hget⟩
  · rintro ⟨hid, hrel⟩
    obtain ⟨rel', hget⟩ := KeyMap.mem_keys_iff.mp ((h.keys id).mpr hid)
    have heq := (h.values id rel' hget).unique hsound.ids hrel
    rw [hget, Except.ok.inj heq]

lemma ok_iff_hasValues (horder : d.IsOrder ids) :
    (∃ out, evaluateNodes ops d data none ∅ ids = .ok out) ↔ HasValues ops d data := by
  constructor
  · rintro ⟨out, hout⟩ id hid
    have hf := faithful_of_ok hsound hdata horder hout
    obtain ⟨rel, hget⟩ := KeyMap.mem_keys_iff.mp ((hf.keys id).mpr hid)
    exact ⟨rel, hf.values id rel hget⟩
  · intro hvalues
    cases hrun : evaluateNodes ops d data none ∅ ids with
    | ok out => exact ⟨out, rfl⟩
    | error e =>
      obtain ⟨before, id, after, rfl, hfails, -⟩ := faithful_empty.evaluateNodes_error hsound hdata
        (fun id hid => horder.perm.mem_iff.mp hid) horder.inOrder hrun
      have hid := horder.perm.mem_iff.mp (List.mem_append_right before List.mem_cons_self)
      obtain ⟨rel, hrel⟩ := hvalues id hid
      cases hfails.unique hsound.ids hrel

lemma evaluateNodes_order {ids' : List String} (horder : d.IsOrder ids) (horder' : d.IsOrder ids')
    {out : Relations} (hout : evaluateNodes ops d data none ∅ ids = .ok out) :
    evaluateNodes ops d data none ∅ ids' = .ok out := by
  have hvalues := (ok_iff_hasValues hsound hdata horder).mp ⟨out, hout⟩
  obtain ⟨out', hout'⟩ := (ok_iff_hasValues hsound hdata horder').mpr hvalues
  have hsame : out' = out := by
    apply KeyMap.ext_get?
    intro id
    apply Option.ext
    intro rel
    rw [(faithful_of_ok hsound hdata horder hout).get?_eq_some_iff hsound,
      (faithful_of_ok hsound hdata horder' hout').get?_eq_some_iff hsound]
  rw [hout', hsame]

omit hdata in
lemma failsFirst_of_split {before after : List String} {id : String} {e : RunError}
    (hsplit : d.layers.flatten = before ++ id :: after) (hfails : Fails ops d data id e)
    (hbefore : ∀ u ∈ before, ∃ rel, HasValue ops d data u rel) : FailsFirst ops d data id e := by
  obtain ⟨k, layer, hk, hid, hfirst⟩ := first_of_flatten_eq d.layers_ascending hsplit
  refine ⟨hfails, k, ⟨layer, hk, hid⟩, ?_⟩
  rintro l id' e' ⟨layer', hl, hid'⟩ hfails'
  apply hfirst l layer' id' hl hid'
  intro hmem
  obtain ⟨rel, hrel⟩ := hbefore id' hmem
  cases hrel.unique hsound.ids hfails'

lemma failsFirst_of_error {e : RunError}
    (he : evaluateNodes ops d data none ∅ d.layers.flatten = .error e) :
    ∃ id, FailsFirst ops d data id e := by
  have horder := hsound.layers_isOrder
  obtain ⟨before, id, after, hsplit, hfails, hbefore⟩ := faithful_empty.evaluateNodes_error hsound
    hdata (fun id hid => horder.perm.mem_iff.mp hid) horder.inOrder he
  exact ⟨id, failsFirst_of_split hsound hsplit hfails hbefore⟩

lemma evaluate_eq (hne : d.nodes ≠ []) : d.evaluate ops data none =
    evaluateNodes ops d data none ∅ d.layers.flatten >>= fun computed =>
      .ok (computed.filter fun id _ => d.terminals.contains id) := by
  have hscans := missingScan?_eq_none_iff.mpr hdata
  have hterminals : d.terminals.isEmpty = false := by
    rw [List.isEmpty_eq_false_iff]
    exact hsound.terminals_ne_nil hne
  rw [evaluate, hscans, hterminals]
  rfl

lemma evaluate_interprets (hne : d.nodes ≠ []) :
    Interprets ops d data (d.evaluate ops data none) := by
  have horder := hsound.layers_isOrder
  rw [evaluate_eq hsound hdata hne]
  constructor
  · intro hvalues
    obtain ⟨computed, hrun⟩ := (ok_iff_hasValues hsound hdata horder).mpr hvalues
    have hf := faithful_of_ok hsound hdata horder hrun
    refine ⟨_, bind_eq_ok.mpr ⟨computed, hrun, rfl⟩, fun id rel => ?_⟩
    rw [KeyMap.get?_filter_eq_some_iff, hf.get?_eq_some_iff hsound, List.contains_eq_mem,
      decide_eq_true_iff]
    constructor
    · rintro ⟨⟨-, hrel⟩, hterminal⟩
      exact ⟨hterminal, hrel⟩
    · rintro ⟨hterminal, hrel⟩
      exact ⟨⟨(mem_terminals_iff.mp hterminal).1, hrel⟩, hterminal⟩
  · intro hvalues
    cases hrun : evaluateNodes ops d data none ∅ d.layers.flatten with
    | ok computed =>
      exact absurd ((ok_iff_hasValues hsound hdata horder).mp ⟨computed, hrun⟩) hvalues
    | error e =>
      obtain ⟨id, hfirst⟩ := failsFirst_of_error hsound hdata hrun
      exact ⟨id, e, rfl, hfirst⟩

lemma evaluate_eq_ok (hne : d.nodes ≠ []) (hvalues : HasValues ops d data) {out : Relations}
    (hout : ∀ id rel, out.get? id = some rel ↔ id ∈ d.terminals ∧ HasValue ops d data id rel) :
    d.evaluate ops data none = .ok out := by
  obtain ⟨out', hrun, hget⟩ := (evaluate_interprets hsound hdata hne).values hvalues
  rw [hrun, KeyMap.ext_get? fun id => Option.ext fun rel => (hget id rel).trans (hout id rel).symm]

end Orders

lemma Interprets.of_ok {out : Relations} (hsound : d.Sound)
    (h : Interprets ops d data (.ok out)) : HasValues ops d data ∧ out.keys = d.terminals ∧
      ∀ id rel, out.get? id = some rel ↔ id ∈ d.terminals ∧ HasValue ops d data id rel := by
  by_cases hvalues : HasValues ops d data
  · obtain ⟨out', hout, hget⟩ := h.values hvalues
    cases hout
    refine ⟨hvalues, ?_, hget⟩
    apply KeyMap.eq_of_ascending out.keys_ascending
    · exact (List.pairwise_map.mpr hsound.ascending).filter _
    · intro id
      rw [KeyMap.mem_keys_iff]
      simp only [hget, exists_and_left]
      exact and_iff_left_of_imp fun hid => hvalues id (mem_terminals_iff.mp hid).1
  · obtain ⟨_, _, hfault, -⟩ := h.fault hvalues
    cases hfault

theorem evaluate_compiled {p : Plan} (ops : Operators) (hcompile : p.compile = .ok d)
    (hne : d.nodes ≠ []) (hdata : ∀ id ∈ d.scanIds, data.contains id = true) :
    Interprets ops d data (d.evaluate ops data none) ∧
      ∀ ids, d.IsOrder ids → ∀ out, evaluateNodes ops d data none ∅ ids = .ok out ↔
        evaluateNodes ops d data none ∅ d.layers.flatten = .ok out := by
  obtain ⟨w, rfl⟩ := Plan.compile_eq_ok.mp hcompile
  have hlayers := w.sound.layers_isOrder
  refine ⟨evaluate_interprets w.sound hdata hne, ?_⟩
  intro ids horder out
  refine ⟨fun hout => ?_, fun hout => ?_⟩
  · exact evaluateNodes_order w.sound hdata horder hlayers hout
  · exact evaluateNodes_order w.sound hdata hlayers horder hout

def rowsOfTwo : Relations := KeyMap.ofList [
  ("a", [Row.ofList [("n", .int 1)]]), ("b", [Row.ofList [("n", .int 2)]])]

theorem evaluate_unionOfTwo : Plan.unionOfTwo.compile = .ok Plan.unionOfTwo.dag ∧
    Plan.unionOfTwo.dag.nodes ≠ [] ∧
    (∀ id ∈ Plan.unionOfTwo.dag.scanIds, rowsOfTwo.contains id = true) ∧
    Interprets RowWise.operators Plan.unionOfTwo.dag rowsOfTwo
      (Plan.unionOfTwo.dag.evaluate RowWise.operators rowsOfTwo none) := by
  have w := Plan.unionOfTwo_wellFormed
  have hperm := Plan.dag_nodes_perm (Plan.wellFormed_iff.mp w).1
  have hcompile : Plan.unionOfTwo.compile = .ok Plan.unionOfTwo.dag :=
    Plan.compile_eq_ok.mpr ⟨w, rfl⟩
  have hne : Plan.unionOfTwo.dag.nodes ≠ [] := by
    intro hnil
    rw [hnil, List.nil_perm] at hperm
    cases hperm
  have hdata : ∀ id ∈ Plan.unionOfTwo.dag.scanIds, rowsOfTwo.contains id = true := by
    intro id hid
    obtain ⟨n, hn, rfl⟩ := List.mem_map.mp hid
    obtain ⟨hn, hscan⟩ := List.mem_filter.mp hn
    have hcovered : ∀ m ∈ Plan.unionOfTwo.nodes, m.action.isScan = true →
        rowsOfTwo.contains m.id = true := by
      decide
    exact hcovered n (hperm.mem_iff.mp hn) hscan
  exact ⟨hcompile, hne, hdata, (evaluate_compiled RowWise.operators hcompile hne hdata).1⟩

end Recombine.Dag
