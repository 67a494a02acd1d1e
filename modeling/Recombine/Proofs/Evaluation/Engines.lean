import Recombine.Proofs.Columns.Uniform
import Recombine.Proofs.Evaluation.Interpretation

/-! What an evaluation hands to the operators of its engine, and that it depends on them only
there: where both engines agree on that, they evaluate a plan to the same result. -/

namespace Recombine.Dag

section

variable (ops : Operators) (d : Dag) (data : Relations)

def combineOperands (c : Combination) (keys : List JoinKey) (inputs : List (String × Relation)) :
    List Relation :=
  match c, inputs with
  | .standalone, _ => []
  | .union, inputs =>
    if inputs.isEmpty || (unionFault? inputs).isSome then [] else [(inputs.map Prod.snd).flatten]
  | _, [(_, left), (_, right)] => if keys.isEmpty then [] else [left, right]
  | _, _ => []

def nodeOperands (computed : Relations) (n : Node) : List Relation :=
  match n.action with
  | .scan _ => []
  | .combine c keys =>
    match gatherInputs computed n.id c.name (Edge.operands (d.inbound n.id)) with
    | .ok inputs => combineOperands c keys inputs
    | .error _ => []
  | _ =>
    match n.inputs with
    | [id] => (computed.get? id).toList
    | _ => []

/-- The relations that go to an operator while nodes are evaluated in turn, up to the first fault.
The operands of a union are joined end to end. -/
def handedAlong (cancelledAt : Option Nat) (computed : Relations) : List String → List Relation
  | [] => []
  | id :: ids =>
    if cancelledAt = some 0 then []
    else
      match d.node? id with
      | none => handedAlong (cancelledAt.map (· - 1)) computed ids
      | some n =>
        d.nodeOperands computed n ++
          match nodeValue ops d data computed n with
          | .ok rel => handedAlong (cancelledAt.map (· - 1)) (computed.insert id rel) ids
          | .error _ => []

def handed (cancelledAt : Option Nat) : List Relation :=
  match d.missingScan? data with
  | some _ => []
  | none => handedAlong ops d data cancelledAt ∅ d.layers.flatten

end

section Posts

variable {ops : Operators} {d : Dag} {data computed : Relations} {n : Node}

lemma nodeValue_post_eq (ha : n.action.isPost = true) : nodeValue ops d data computed n =
    match n.inputs with
    | [id] =>
      match computed.get? id with
      | some rel => Dag.post ops n.id n.action rel
      | none => .error (.missingInput n.id n.action.name id)
    | ids => .error (.inputArity n.id n.action.name "exactly 1" ids.length) := by
  rw [nodeValue]
  split
  next hb => rw [hb] at ha; cases ha
  next hb => rw [hb] at ha; cases ha
  next => rfl

lemma nodeOperands_post (ha : n.action.isPost = true) : d.nodeOperands computed n =
    match n.inputs with
    | [id] => (computed.get? id).toList
    | _ => [] := by
  rw [nodeOperands]
  split
  next hb => rw [hb] at ha; cases ha
  next hb => rw [hb] at ha; cases ha
  next => rfl

end Posts

variable {d : Dag} {data : Relations} {cancelledAt : Option Nat}

section Agreement

variable {P : Relation → Prop} {ops ops' : Operators} (hagree : ops.AgreeOn P ops')
  {computed : Relations}

include hagree

section Nodes

variable {node : String} {keys : List JoinKey}

lemma combine_congr {c : Combination} {inputs : List (String × Relation)}
    (h : ∀ rel ∈ combineOperands c keys inputs, P rel) :
    combine ops node c keys inputs = combine ops' node c keys inputs := by
  cases c with
  | standalone => rfl
  | union =>
    rw [combine, combine, combineAll, combineAll]
    by_cases hempty : inputs.isEmpty = true
    · rw [if_pos hempty, if_pos hempty]
    · rw [if_neg hempty, if_neg hempty]
      cases hfault : unionFault? inputs with
      | some reason => rfl
      | none =>
        have hflat : P (inputs.map Prod.snd).flatten := by
          apply h
          simp [combineOperands, hempty, hfault]
        dsimp only
        rw [hagree.union _ hflat]
  | join =>
    rw [combine, combine]
    rcases inputs with _ | ⟨⟨_, left⟩, _ | ⟨⟨_, right⟩, _ | ⟨_, _⟩⟩⟩ <;> try rfl
    cases keys with
    | nil => rfl
    | cons k ks =>
      have hl : P left := h left (by simp [combineOperands])
      have hr : P right := h right (by simp [combineOperands])
      simp only [combinePair, hagree.join left right _ hl hr]
  | compare =>
    rw [combine, combine]
    rcases inputs with _ | ⟨⟨_, left⟩, _ | ⟨⟨_, right⟩, _ | ⟨_, _⟩⟩⟩ <;> try rfl
    cases keys with
    | nil => rfl
    | cons k ks =>
      have hl : P left := h left (by simp [combineOperands])
      have hr : P right := h right (by simp [combineOperands])
      simp only [combinePair, hagree.compare left right _ hl hr]

lemma post_congr (a : Action) {rel : Relation} (h : P rel) :
    Dag.post ops node a rel = Dag.post ops' node a rel := by
  cases a with
  | scan => rfl
  | combine => rfl
  | filter => simp only [Dag.post, hagree.filter _ _ h]
  | aggregate => simp only [Dag.post, hagree.aggregate _ _ _ h]
  | project => simp only [Dag.post, hagree.project _ _ h]
  | sort => simp only [Dag.post, hagree.sort _ _ h]
  | limit => simp only [Dag.post, hagree.limit _ _ h]

lemma nodeValue_congr (data : Relations) {n : Node} (h : ∀ rel ∈ d.nodeOperands computed n, P rel) :
    nodeValue ops d data computed n = nodeValue ops' d data computed n := by
  rcases kinds_of_action n.action with ⟨source, ha⟩ | ⟨c, keys, ha⟩ | ha
  · rw [nodeValue, nodeValue, ha]
  · rw [nodeOperands, ha] at h
    rw [nodeValue, nodeValue, ha]
    dsimp only at h ⊢
    cases hgather : gatherInputs computed n.id c.name (Edge.operands (d.inbound n.id)) with
    | error e => rfl
    | ok inputs =>
      rw [hgather] at h
      exact combine_congr hagree h
  · rw [nodeOperands_post ha] at h
    rw [nodeValue_post_eq ha, nodeValue_post_eq ha]
    split
    next id hinputs =>
      rw [hinputs] at h
      dsimp only at h
      cases hinput : computed.get? id with
      | none => rfl
      | some rel =>
        rw [hinput] at h
        exact post_congr hagree n.action (h rel List.mem_cons_self)
    next => rfl

end Nodes

lemma evaluateNodes_congr {ids : List String}
    (h : ∀ rel ∈ handedAlong ops' d data cancelledAt computed ids, P rel) :
    evaluateNodes ops d data cancelledAt computed ids =
      evaluateNodes ops' d data cancelledAt computed ids := by
  induction ids generalizing cancelledAt computed with
  | nil => rfl
  | cons id ids ih =>
    rw [handedAlong] at h
    rw [evaluateNodes, evaluateNodes]
    by_cases hcancel : cancelledAt = some 0
    · rw [if_pos hcancel, if_pos hcancel]
    · rw [if_neg hcancel] at h
      rw [if_neg hcancel, if_neg hcancel]
      cases hnode : d.node? id with
      | none =>
        rw [hnode] at h
        exact ih h
      | some n =>
        rw [hnode] at h
        obtain ⟨hoperands, hrest⟩ := List.forall_mem_append.mp h
        dsimp only
        rw [nodeValue_congr hagree data hoperands]
        cases hvalue : nodeValue ops' d data computed n with
        | error e => rfl
        | ok rel =>
          rw [hvalue] at hrest
          exact ih hrest

lemma evaluate_congr (h : ∀ rel ∈ d.handed ops' data cancelledAt, P rel) :
    d.evaluate ops data cancelledAt = d.evaluate ops' data cancelledAt := by
  rw [handed] at h
  rw [evaluate, evaluate]
  cases hmissing : d.missingScan? data with
  | some id => rfl
  | none =>
    rw [hmissing] at h
    dsimp only
    rw [evaluateNodes_congr hagree h]

end Agreement

theorem evaluate_columnWise_eq_rowWise
    (h : ∀ rel ∈ d.handed RowWise.operators data cancelledAt, rel.Uniform) :
    d.evaluate ColumnWise.operators data cancelledAt =
      d.evaluate RowWise.operators data cancelledAt :=
  evaluate_congr operators_agreeOn_uniform h

theorem evaluate_unionOfTwo_columnWise : Plan.unionOfTwo.compile = .ok Plan.unionOfTwo.dag ∧
    (∀ rel ∈ Plan.unionOfTwo.dag.handed RowWise.operators rowsOfTwo none, rel.Uniform) ∧
    Plan.unionOfTwo.dag.evaluate ColumnWise.operators rowsOfTwo none =
      Plan.unionOfTwo.dag.evaluate RowWise.operators rowsOfTwo none := by
  have hhanded : Plan.unionOfTwo.dag.handed RowWise.operators rowsOfTwo none =
      [[Row.ofList [("n", .int 1)], Row.ofList [("n", .int 2)]]] := by
    decide_cbv
  have huniform : ∀ rel ∈ Plan.unionOfTwo.dag.handed RowWise.operators rowsOfTwo none,
      rel.Uniform := by
    rw [hhanded]
    decide
  have hcompile : Plan.unionOfTwo.compile = .ok Plan.unionOfTwo.dag :=
    Plan.compile_eq_ok.mpr ⟨Plan.unionOfTwo_wellFormed, rfl⟩
  exact ⟨hcompile, huniform, evaluate_columnWise_eq_rowWise huniform⟩
end Recombine.Dag
