import Recombine.Evaluation.Basic
import Recombine.Proofs.Dag.Soundness

/-! The meaning of a graph: what each of its nodes gives, by recursion over its operands. -/

namespace Recombine.Dag

open Attempt

section

variable (ops : Operators) (d : Dag) (data : Relations)

/-- What the operation of a node gives on the values of its operands, a value or a fault. It gives
nothing if one of them has no value. -/
inductive Gives : String → Except RunError Relation → Prop
  | scan {n : Node} {source : String} {rel : Relation} (hn : n ∈ d.nodes)
      (ha : n.action = .scan source) (hrel : data.get? n.id = some rel) : Gives n.id (.ok rel)
  | combine {n : Node} {c : Combination} {keys : List JoinKey}
      {inputs : List (String × Relation)} {x : Except RunError Relation} (hn : n ∈ d.nodes)
      (ha : n.action = .combine c keys)
      (hsources : inputs.map Prod.fst = Edge.operands (d.inbound n.id))
      (hinputs : ∀ i ∈ inputs, Gives i.1 (.ok i.2)) (hx : Dag.combine ops n.id c keys inputs = x) :
      Gives n.id x
  | post {n : Node} {source : String} {input : Relation} {x : Except RunError Relation}
      (hn : n ∈ d.nodes) (ha : n.action.isPost = true) (hsource : n.inputs = [source])
      (hinput : Gives source (.ok input)) (hx : Dag.post ops n.id n.action input = x) :
      Gives n.id x

def HasValue (id : String) (rel : Relation) : Prop := Gives ops d data id (.ok rel)

def Fails (id : String) (e : RunError) : Prop := Gives ops d data id (.error e)

end

variable {ops : Operators} {d : Dag} {data : Relations} {id : String}
  {x y : Except RunError Relation}

lemma combine_standalone (ops : Operators) (node : String) (keys : List JoinKey)
    (inputs : List (String × Relation)) : combine ops node .standalone keys inputs =
      match inputs with
      | [(_, rel)] => .ok rel
      | _ => .error (arityFault node .standalone "exactly 1" inputs) := rfl

lemma eq_of_id_eq (hids : d.nodeIds.Nodup) {n m : Node} (hn : n ∈ d.nodes) (hm : m ∈ d.nodes)
    (h : n.id = m.id) : n = m := List.inj_on_of_nodup_map hids hn hm h

lemma Gives.of_scan (hids : d.nodeIds.Nodup) {n : Node} {source : String} (hn : n ∈ d.nodes)
    (ha : n.action = .scan source) (h : Gives ops d data n.id x) :
    ∃ rel, data.get? n.id = some rel ∧ x = .ok rel := by
  generalize hid : n.id = id at h
  cases h with
  | scan hm hb hrel => exact ⟨_, hrel, rfl⟩
  | combine hm hb =>
    rw [eq_of_id_eq hids hn hm hid, hb] at ha
    cases ha
  | post hm hb =>
    rw [← eq_of_id_eq hids hn hm hid, ha] at hb
    cases hb

lemma Gives.of_combine (hids : d.nodeIds.Nodup) {n : Node} {c : Combination} {keys : List JoinKey}
    (hn : n ∈ d.nodes) (ha : n.action = .combine c keys) (h : Gives ops d data n.id x) :
    ∃ inputs, inputs.map Prod.fst = Edge.operands (d.inbound n.id) ∧
      (∀ i ∈ inputs, HasValue ops d data i.1 i.2) ∧ Dag.combine ops n.id c keys inputs = x := by
  generalize hid : n.id = id at h
  cases h with
  | scan hm hb =>
    rw [eq_of_id_eq hids hn hm hid, hb] at ha
    cases ha
  | combine hm hb hsources hinputs hx =>
    rw [eq_of_id_eq hids hn hm hid, hb] at ha
    cases ha
    exact ⟨_, hsources, hinputs, hx⟩
  | post hm hb =>
    rw [← eq_of_id_eq hids hn hm hid, ha] at hb
    cases hb

lemma Gives.of_post (hids : d.nodeIds.Nodup) {n : Node} {source : String} (hn : n ∈ d.nodes)
    (ha : n.action.isPost = true) (hsource : n.inputs = [source]) (h : Gives ops d data n.id x) :
    ∃ input, HasValue ops d data source input ∧ Dag.post ops n.id n.action input = x := by
  generalize hid : n.id = id at h
  cases h with
  | scan hm hb =>
    rw [eq_of_id_eq hids hn hm hid, hb] at ha
    cases ha
  | combine hm hb =>
    rw [eq_of_id_eq hids hn hm hid, hb] at ha
    cases ha
  | post hm hb hsource' hinput hx =>
    obtain rfl := eq_of_id_eq hids hn hm hid
    rw [hsource] at hsource'
    cases hsource'
    exact ⟨_, hinput, hx⟩

lemma nodeValue_groupNode (ops : Operators) (p : Plan) (g : Group) (data computed : Relations) :
    nodeValue ops p.dag data computed (p.groupNode g) =
      gatherInputs computed (Group.nodeId g.id) g.combination.name
          (Edge.operands (p.dag.inbound (Group.nodeId g.id))) >>=
        combine ops (Group.nodeId g.id) g.combination g.keys := rfl

lemma Gives.unique (hids : d.nodeIds.Nodup) (hx : Gives ops d data id x)
    (hy : Gives ops d data id y) : x = y := by
  induction hx generalizing y with
  | scan hn ha hrel =>
    obtain ⟨rel, hrel', rfl⟩ := hy.of_scan hids hn ha
    rw [Option.some.inj (hrel.symm.trans hrel')]
  | combine hn ha hsources hinputs hx ih =>
    obtain ⟨inputs, hsources', hinputs', rfl⟩ := hy.of_combine hids hn ha
    rw [← hx, Sequence.eq_of_map_fst_eq (hsources.trans hsources'.symm)]
    rintro ⟨i, rel⟩ hi rel' hi'
    exact Except.ok.inj (ih _ hi (hinputs' _ hi'))
  | post hn ha hsource hinput hx ih =>
    obtain ⟨input, hinput', rfl⟩ := hy.of_post hids hn ha hsource
    rw [← hx, Except.ok.inj (ih hinput')]

section Faults

variable {node : String}

lemma raises_ofOperator {α : Type} (node operation : String) (x : Except OperatorFault α) :
    Raises (fun e : RunError => e.node = node) (ofOperator node operation x) := by
  rcases x with (e | _) | a
  · exact raises_error rfl
  · exact raises_error rfl
  · exact raises_ok a

lemma raises_combinePair (c : Combination) (keys : List JoinKey)
    (op : Relation → Relation → List JoinKey → Except OperatorFault Relation)
    (inputs : List (String × Relation)) :
    Raises (fun e : RunError => e.node = node) (combinePair node c keys op inputs) := by
  unfold combinePair
  split
  · split
    · exact raises_error rfl
    · exact raises_ofOperator node _ _
  · exact raises_error rfl

lemma raises_combine (ops : Operators) (node : String) (c : Combination) (keys : List JoinKey)
    (inputs : List (String × Relation)) :
    Raises (fun e : RunError => e.node = node) (combine ops node c keys inputs) := by
  cases c with
  | standalone =>
    rw [combine_standalone]
    split
    · exact raises_ok _
    · exact raises_error rfl
  | union =>
    rw [combine, combineAll]
    split
    · exact raises_error rfl
    · split
      · exact raises_error rfl
      · exact raises_ofOperator node _ _
  | join => exact raises_combinePair _ _ _ _
  | compare => exact raises_combinePair _ _ _ _

lemma raises_post (ops : Operators) (node : String) (a : Action) (rel : Relation) :
    Raises (fun e : RunError => e.node = node) (post ops node a rel) := by
  cases a with
  | scan source => exact raises_error rfl
  | combine c keys => exact raises_error rfl
  | _ => exact raises_ofOperator node _ _

lemma Fails.node_eq {e : RunError} (h : Fails ops d data id e) : e.node = id := by
  cases h with
  | combine _ _ _ _ hx => exact raises_combine ops _ _ _ _ e hx
  | post _ _ _ _ hx => exact raises_post ops _ _ _ e hx

end Faults

end Recombine.Dag
