import Recombine.Proofs.Evaluation.Meaning

namespace Recombine.Dag

open Attempt

variable {ops : Operators} {d : Dag} {data computed : Relations} {done : List String}

lemma gatherInputs_eq_ok (node operation : String) {ids : List String}
    (h : ∀ id ∈ ids, id ∈ computed.keys) :
    ∃ inputs, gatherInputs computed node operation ids = .ok inputs ∧
      inputs.map Prod.fst = ids ∧ ∀ i ∈ inputs, computed.get? i.1 = some i.2 := by
  induction ids with
  | nil => exact ⟨[], rfl, rfl, List.forall_mem_nil _⟩
  | cons id ids ih =>
    obtain ⟨hid, hids⟩ := List.forall_mem_cons.mp h
    obtain ⟨rel, hrel⟩ := KeyMap.mem_keys_iff.mp hid
    obtain ⟨inputs, hgather, hfst, hget⟩ := ih hids
    refine ⟨(id, rel) :: inputs, ?_, by rw [List.map_cons, hfst], ?_⟩
    · rw [gatherInputs, List.mapM_cons, ← gatherInputs, hgather, hrel]
      rfl
    · exact List.forall_mem_cons.mpr ⟨hrel, hget⟩

/-- Just the nodes that are done have been computed, each with its value. -/
structure Faithful (ops : Operators) (d : Dag) (data : Relations) (done : List String)
    (computed : Relations) : Prop where
  keys : ∀ id, id ∈ computed.keys ↔ id ∈ done
  values : ∀ id rel, computed.get? id = some rel → HasValue ops d data id rel

lemma faithful_empty : Faithful ops d data [] ∅ :=
  ⟨fun _ => Iff.rfl, fun _ _ h => nomatch h⟩

lemma Faithful.insert {id : String} {rel : Relation} (h : Faithful ops d data done computed)
    (hrel : HasValue ops d data id rel) :
    Faithful ops d data (id :: done) (computed.insert id rel) := by
  constructor
  · intro id'
    rw [KeyMap.mem_keys_insert, List.mem_cons, h.keys]
  · intro id' rel' hget
    rw [KeyMap.get?_insert] at hget
    split at hget
    next heq =>
      cases hget
      rwa [heq]
    next => exact h.values id' rel' hget

lemma nodeValue_post {n : Node} {source : String} {input : Relation} (ha : n.action.isPost = true)
    (hsource : n.inputs = [source]) (hinput : computed.get? source = some input) :
    nodeValue ops d data computed n = Dag.post ops n.id n.action input := by
  rw [nodeValue]
  split
  next hb => rw [hb] at ha; cases ha
  next hb => rw [hb] at ha; cases ha
  next => rw [hsource]; dsimp only; rw [hinput]

lemma kinds_of_action (a : Action) :
    (∃ source, a = .scan source) ∨ (∃ c keys, a = .combine c keys) ∨ a.isPost = true := by
  cases a with
  | scan source => exact Or.inl ⟨source, rfl⟩
  | combine c keys => exact Or.inr (Or.inl ⟨c, keys, rfl⟩)
  | _ => exact Or.inr (Or.inr rfl)

section Step

variable (hdata : ∀ id ∈ d.scanIds, data.contains id = true) {n : Node} (hn : n ∈ d.nodes)

include hn

include hdata in
lemma gives_scan {source : String} (ha : n.action = .scan source) :
    Gives ops d data n.id (nodeValue ops d data computed n) := by
  have hmem : n.id ∈ d.scanIds := by
    refine List.mem_map_of_mem (List.mem_filter.mpr ⟨hn, ?_⟩)
    rw [ha]
    rfl
  obtain ⟨rel, hrel⟩ := KeyMap.mem_keys_iff.mp (KeyMap.contains_iff.mp (hdata n.id hmem))
  rw [nodeValue, ha]
  dsimp only
  rw [hrel]
  exact Gives.scan hn ha hrel

variable (h : Faithful ops d data done computed)
  (hoperands : ∀ e ∈ d.edges, e.target = n.id → e.source ∈ done)

include h hoperands

lemma Faithful.gives_combine {c : Combination} {keys : List JoinKey}
    (ha : n.action = .combine c keys) :
    Gives ops d data n.id (nodeValue ops d data computed n) := by
  have hcomputed : ∀ id ∈ Edge.operands (d.inbound n.id), id ∈ computed.keys := by
    intro id hid
    obtain ⟨e, he, rfl⟩ := mem_operands_iff.mp hid
    obtain ⟨he, htarget⟩ := List.mem_filter.mp he
    rw [h.keys]
    exact hoperands e he (beq_iff_eq.mp htarget)
  obtain ⟨inputs, hgather, hsources, hget⟩ := gatherInputs_eq_ok n.id c.name hcomputed
  rw [nodeValue, ha]
  dsimp only
  rw [hgather]
  exact Gives.combine hn ha hsources (fun i hi => h.values i.1 i.2 (hget i hi)) rfl

lemma Faithful.gives_post (hsound : d.Sound) (ha : n.action.isPost = true) :
    Gives ops d data n.id (nodeValue ops d data computed n) := by
  obtain ⟨e, he, hsource, htarget⟩ := hsound.posts n hn ha
  obtain ⟨input, hinput⟩ := KeyMap.mem_keys_iff.mp ((h.keys _).mpr (hoperands e he htarget))
  rw [nodeValue_post ha hsource hinput]
  exact Gives.post hn ha hsource (h.values _ _ hinput) rfl

include hdata in
lemma Faithful.gives_nodeValue (hsound : d.Sound) :
    Gives ops d data n.id (nodeValue ops d data computed n) := by
  rcases kinds_of_action n.action with ⟨source, ha⟩ | ⟨c, keys, ha⟩ | ha
  · exact gives_scan hdata hn ha
  · exact h.gives_combine hn hoperands ha
  · exact h.gives_post hn hoperands hsound ha

end Step

section Runs

variable (hsound : d.Sound) (hdata : ∀ id ∈ d.scanIds, data.contains id = true)
  {ids : List String}

include hsound

lemma evaluateNodes_cons {n : Node} (hn : n ∈ d.nodes) :
    evaluateNodes ops d data none computed (n.id :: ids) =
      nodeValue ops d data computed n >>= fun rel =>
        evaluateNodes ops d data none (computed.insert n.id rel) ids := by
  have hnode : d.node? n.id = some n := (node?_eq_some_iff hsound.ascending).mpr ⟨hn, rfl⟩
  rw [evaluateNodes, if_neg (by simp), hnode]
  rfl

include hdata

lemma Faithful.next (h : Faithful ops d data done computed) {id : String}
    (hid : id ∈ d.nodeIds) (horder : Graph.InOrder (d.edges.map Edge.arc) done (id :: ids)) :
    ∃ x, Gives ops d data id x ∧ evaluateNodes ops d data none computed (id :: ids) =
      x >>= fun rel => evaluateNodes ops d data none (computed.insert id rel) ids := by
  obtain ⟨n, hn, rfl⟩ := List.mem_map.mp hid
  refine ⟨nodeValue ops d data computed n, ?_, evaluateNodes_cons hsound hn⟩
  refine h.gives_nodeValue hdata hn (fun e he htarget => ?_) hsound
  apply horder.1
  rw [← htarget]
  exact List.mem_map_of_mem he

theorem Faithful.evaluateNodes_ok (h : Faithful ops d data done computed)
    (hids : ∀ id ∈ ids, id ∈ d.nodeIds) (horder : Graph.InOrder (d.edges.map Edge.arc) done ids)
    {out : Relations} (hout : evaluateNodes ops d data none computed ids = .ok out) :
    Faithful ops d data (ids.reverse ++ done) out := by
  induction ids generalizing done computed with
  | nil =>
    cases hout
    exact h
  | cons id ids ih =>
    obtain ⟨hid, hids⟩ := List.forall_mem_cons.mp hids
    obtain ⟨x, hx, hrun⟩ := h.next hsound hdata hid horder
    rw [hrun, bind_eq_ok] at hout
    obtain ⟨rel, rfl, hout⟩ := hout
    rw [List.reverse_cons, List.append_assoc]
    exact ih (h.insert hx) hids horder.2 hout

theorem Faithful.evaluateNodes_error (h : Faithful ops d data done computed)
    (hids : ∀ id ∈ ids, id ∈ d.nodeIds) (horder : Graph.InOrder (d.edges.map Edge.arc) done ids)
    {e : RunError} (he : evaluateNodes ops d data none computed ids = .error e) :
    ∃ before id after, ids = before ++ id :: after ∧ Fails ops d data id e ∧
      ∀ u ∈ before, ∃ rel, HasValue ops d data u rel := by
  induction ids generalizing done computed with
  | nil => cases he
  | cons id ids ih =>
    obtain ⟨hid, hids⟩ := List.forall_mem_cons.mp hids
    obtain ⟨x, hx, hrun⟩ := h.next hsound hdata hid horder
    rw [hrun, bind_eq_error] at he
    rcases he with rfl | ⟨rel, rfl, he⟩
    · exact ⟨[], id, ids, rfl, hx, List.forall_mem_nil _⟩
    · obtain ⟨before, id', after, rfl, hfails, hbefore⟩ := ih (h.insert hx) hids horder.2 he
      exact ⟨id :: before, id', after, rfl, hfails, List.forall_mem_cons.mpr ⟨⟨rel, hx⟩, hbefore⟩⟩

end Runs

end Recombine.Dag
