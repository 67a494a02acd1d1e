import Recombine.Proofs.Evaluation.Engines

/-! Graphs without unions and operators that never fail: whether and how an evaluation fails, and
which nodes it gives values for, does not depend on the operators. The operators on rows are of that
kind, but for sorts that give up. -/

namespace Recombine

/-- The operators on rows, with sorts that never give up. -/
def RowWise.steadfast : Operators :=
  { RowWise.operators with sort := fun rel orderBy => .ok (RowWise.sort rel orderBy) }

namespace Operators

structure Total (ops : Operators) : Prop where
  join : ∀ left right keys, ∃ out, ops.join left right keys = .ok out
  compare : ∀ left right keys, ∃ out, ops.compare left right keys = .ok out
  filter : ∀ rel filters, ∃ out, ops.filter rel filters = .ok out
  aggregate : ∀ rel groupBy metrics, ∃ out, ops.aggregate rel groupBy metrics = .ok out
  project : ∀ rel columns, ∃ out, ops.project rel columns = .ok out
  sort : ∀ rel orderBy, ∃ out, ops.sort rel orderBy = .ok out
  limit : ∀ rel count, ∃ out, ops.limit rel count = .ok out

lemma total_steadfast : RowWise.steadfast.Total where
  join _ _ _ := ⟨_, rfl⟩
  compare _ _ _ := ⟨_, rfl⟩
  filter _ _ := ⟨_, rfl⟩
  aggregate _ _ _ := ⟨_, rfl⟩
  project _ _ := ⟨_, rfl⟩
  sort _ _ := ⟨_, rfl⟩
  limit _ _ := ⟨_, rfl⟩

lemma total_normalized : RowWise.operators.normalized.Total where
  join _ _ _ := ⟨_, rfl⟩
  compare _ _ _ := ⟨_, rfl⟩
  filter _ _ := ⟨_, rfl⟩
  aggregate _ _ _ := ⟨_, rfl⟩
  project _ _ := ⟨_, rfl⟩
  sort rel orderBy := ⟨_, RowWise.sort_eq_ok (rel.sortable_normal orderBy)⟩
  limit _ _ := ⟨_, rfl⟩

end Operators

namespace Dag

open Attempt

def HasNoUnion (d : Dag) : Prop := ∀ n ∈ d.nodes, ∀ keys, n.action ≠ .combine .union keys

variable {ops ops' : Operators} {d : Dag} {data computed computed' : Relations}
  {node operation : String} {c : Combination} {keys : List JoinKey}
  {inputs inputs' : List (String × Relation)}

lemma get?_of_keys_eq (hkeys : computed.keys = computed'.keys) (id : String) :
    computed.get? id = none ∧ computed'.get? id = none ∨
      ∃ rel rel', computed.get? id = some rel ∧ computed'.get? id = some rel' := by
  cases hrel : computed.get? id with
  | none =>
    left
    refine ⟨rfl, Option.eq_none_iff_forall_ne_some.mpr fun rel' hrel' => ?_⟩
    obtain ⟨rel, hget⟩ := KeyMap.mem_keys_iff.mp (hkeys ▸ KeyMap.mem_keys_iff.mpr ⟨rel', hrel'⟩)
    cases hrel.symm.trans hget
  | some rel =>
    right
    obtain ⟨rel', hrel'⟩ := KeyMap.mem_keys_iff.mp (hkeys ▸ KeyMap.mem_keys_iff.mpr ⟨rel, hrel⟩)
    exact ⟨rel, rel', rfl, hrel'⟩

lemma parallel_gatherInputs (hkeys : computed.keys = computed'.keys) (ids : List String) :
    Parallel (fun inputs inputs' => inputs.map Prod.fst = inputs'.map Prod.fst)
      (gatherInputs computed node operation ids) (gatherInputs computed' node operation ids) := by
  induction ids with
  | nil => exact .ok rfl
  | cons id ids ih =>
    rw [gatherInputs, gatherInputs, List.mapM_cons, List.mapM_cons, ← gatherInputs, ← gatherInputs]
    refine Parallel.bind (R := fun i j => i.1 = j.1) ?_ fun i j hfst => ?_
    · rcases get?_of_keys_eq hkeys id with ⟨hget, hget'⟩ | ⟨rel, rel', hget, hget'⟩
      · rw [hget, hget']
        exact .error _
      · rw [hget, hget']
        exact .ok rfl
    · refine ih.bind fun is js hfsts => .ok ?_
      rw [List.map_cons, List.map_cons, hfst, hfsts]

lemma parallel_ofOperator {x y : Except OperatorFault Relation} (hx : ∃ rel, x = .ok rel)
    (hy : ∃ rel, y = .ok rel) :
    Parallel (fun _ _ => True) (ofOperator node operation x) (ofOperator node operation y) := by
  obtain ⟨rel, rfl⟩ := hx
  obtain ⟨rel', rfl⟩ := hy
  exact .ok trivial

lemma combinePair_of_length_ne {op : Relation → Relation → List JoinKey →
    Except OperatorFault Relation} (h : inputs.length ≠ 2) :
    combinePair node c keys op inputs = .error (arityFault node c "exactly 2" inputs) := by
  unfold combinePair
  split
  next => exact absurd rfl h
  next => rfl

lemma combine_standalone_of_length_ne (h : inputs.length ≠ 1) :
    combine ops node .standalone keys inputs =
      .error (arityFault node .standalone "exactly 1" inputs) := by
  rw [combine_standalone]
  split
  next => exact absurd rfl h
  next => rfl

lemma parallel_combinePair {op op' : Relation → Relation → List JoinKey →
    Except OperatorFault Relation} (hop : ∀ left right keys, ∃ out, op left right keys = .ok out)
    (hop' : ∀ left right keys, ∃ out, op' left right keys = .ok out)
    (hlen : inputs.length = inputs'.length) : Parallel (fun _ _ => True)
      (combinePair node c keys op inputs) (combinePair node c keys op' inputs') := by
  by_cases htwo : inputs.length = 2
  · obtain ⟨⟨_, left⟩, ⟨_, right⟩, rfl⟩ := List.length_eq_two.mp htwo
    obtain ⟨⟨_, left'⟩, ⟨_, right'⟩, rfl⟩ := List.length_eq_two.mp (hlen.symm.trans htwo)
    rw [combinePair, combinePair]
    split
    next => exact .error _
    next => exact parallel_ofOperator (hop _ _ _) (hop' _ _ _)
  · rw [combinePair_of_length_ne htwo, combinePair_of_length_ne (hlen ▸ htwo), arityFault,
      arityFault, hlen]
    exact .error _

section Total

variable (hops : ops.Total) (hops' : ops'.Total)

include hops hops'

lemma parallel_combine (hc : c ≠ .union) (hlen : inputs.length = inputs'.length) :
    Parallel (fun _ _ => True) (combine ops node c keys inputs)
      (combine ops' node c keys inputs') := by
  cases c with
  | standalone =>
    by_cases hone : inputs.length = 1
    · obtain ⟨⟨_, rel⟩, rfl⟩ := List.length_eq_one_iff.mp hone
      obtain ⟨⟨_, rel'⟩, rfl⟩ := List.length_eq_one_iff.mp (hlen.symm.trans hone)
      exact .ok trivial
    · rw [combine_standalone_of_length_ne hone, combine_standalone_of_length_ne (hlen ▸ hone),
        arityFault, arityFault, hlen]
      exact .error _
  | union => exact absurd rfl hc
  | join => exact parallel_combinePair hops.join hops'.join hlen
  | compare => exact parallel_combinePair hops.compare hops'.compare hlen

lemma parallel_post (a : Action) (rel rel' : Relation) :
    Parallel (fun _ _ => True) (Dag.post ops node a rel) (Dag.post ops' node a rel') := by
  cases a with
  | scan => exact .error _
  | combine => exact .error _
  | filter => exact parallel_ofOperator (hops.filter _ _) (hops'.filter _ _)
  | aggregate => exact parallel_ofOperator (hops.aggregate _ _ _) (hops'.aggregate _ _ _)
  | project => exact parallel_ofOperator (hops.project _ _) (hops'.project _ _)
  | sort => exact parallel_ofOperator (hops.sort _ _) (hops'.sort _ _)
  | limit => exact parallel_ofOperator (hops.limit _ _) (hops'.limit _ _)

lemma parallel_nodeValue (hunion : d.HasNoUnion) (hkeys : computed.keys = computed'.keys)
    {n : Node} (hn : n ∈ d.nodes) : Parallel (fun _ _ => True)
      (nodeValue ops d data computed n) (nodeValue ops' d data computed' n) := by
  rcases kinds_of_action n.action with ⟨source, ha⟩ | ⟨c, keys, ha⟩ | ha
  · rw [nodeValue, nodeValue, ha]
    dsimp only
    split
    next => exact .ok trivial
    next => exact .error _
  · rw [nodeValue, nodeValue, ha]
    have hc : c ≠ .union := by
      rintro rfl
      exact hunion n hn keys ha
    refine (parallel_gatherInputs hkeys _).bind fun inputs inputs' hfst => ?_
    have hlen := congrArg List.length hfst
    rw [List.length_map, List.length_map] at hlen
    exact parallel_combine hops hops' hc hlen
  · rw [nodeValue_post_eq ha, nodeValue_post_eq ha]
    split
    next id _ =>
      rcases get?_of_keys_eq hkeys id with ⟨hget, hget'⟩ | ⟨rel, rel', hget, hget'⟩
      · rw [hget, hget']
        exact .error _
      · rw [hget, hget']
        exact parallel_post hops hops' n.action rel rel'
    next => exact .error _

lemma parallel_evaluateNodes (hsound : d.Sound) (hunion : d.HasNoUnion) {cancelledAt : Option Nat}
    {ids : List String} (hkeys : computed.keys = computed'.keys) :
    Parallel (fun out out' => out.keys = out'.keys)
      (evaluateNodes ops d data cancelledAt computed ids)
      (evaluateNodes ops' d data cancelledAt computed' ids) := by
  induction ids generalizing computed computed' cancelledAt with
  | nil => exact .ok hkeys
  | cons id ids ih =>
    rw [evaluateNodes, evaluateNodes]
    split
    next => exact .error _
    next =>
      split
      next => exact ih hkeys
      next n hnode =>
        obtain ⟨hn, -⟩ := (node?_eq_some_iff hsound.ascending).mp hnode
        refine (parallel_nodeValue hops hops' hunion hkeys hn).bind fun rel rel' _ => ih ?_
        apply KeyMap.eq_of_ascending (KeyMap.keys_ascending _) (KeyMap.keys_ascending _)
        intro id'
        rw [KeyMap.mem_keys_insert, KeyMap.mem_keys_insert, hkeys]

lemma parallel_evaluate (hsound : d.Sound) (hunion : d.HasNoUnion) (data : Relations)
    (cancelledAt : Option Nat) : Parallel (fun out out' => out.keys = out'.keys)
      (d.evaluate ops data cancelledAt) (d.evaluate ops' data cancelledAt) := by
  rw [evaluate, evaluate]
  split
  next => exact .error _
  next =>
    refine (parallel_evaluateNodes hops hops' hsound hunion rfl).bind fun out out' hkeys => ?_
    split
    next => exact .error _
    next =>
      refine .ok ?_
      rw [KeyMap.keys_filter, KeyMap.keys_filter, hkeys]

end Total

/-- The first computation is the second one, or it stops at a sort that gives up. -/
def UpToSorts {α : Type} (x y : Except RunError α) : Prop :=
  x = y ∨ ∃ node operation, x = .error (.disorder node operation)

lemma UpToSorts.bind {α β : Type} {x y : Except RunError α} {f k : α → Except RunError β}
    (hxy : UpToSorts x y) (hfk : ∀ a, UpToSorts (f a) (k a)) :
    UpToSorts (x >>= f) (y >>= k) := by
  rcases hxy with rfl | ⟨node, operation, rfl⟩
  · cases x with
    | error e => exact Or.inl rfl
    | ok a => exact hfk a
  · exact Or.inr ⟨node, operation, rfl⟩

lemma post_steadfast (node : String) (a : Action) (rel : Relation) :
    UpToSorts (Dag.post RowWise.operators node a rel) (Dag.post RowWise.steadfast node a rel) := by
  cases a with
  | sort orderBy =>
    rcases RowWise.sort_eq_or rel orderBy with hsort | hsort
    · rw [Dag.post, hsort]
      exact Or.inl rfl
    · rw [Dag.post, hsort]
      exact Or.inr ⟨node, _, rfl⟩
  | _ => exact Or.inl rfl

lemma nodeValue_steadfast (n : Node) :
    UpToSorts (nodeValue RowWise.operators d data computed n)
      (nodeValue RowWise.steadfast d data computed n) := by
  rcases kinds_of_action n.action with ⟨source, ha⟩ | ⟨c, keys, ha⟩ | ha
  · rw [nodeValue, nodeValue, ha]
    exact Or.inl rfl
  · rw [nodeValue, nodeValue, ha]
    exact Or.inl rfl
  · rw [nodeValue_post_eq ha, nodeValue_post_eq ha]
    split
    next id _ =>
      cases computed.get? id with
      | none => exact Or.inl rfl
      | some rel => exact post_steadfast n.id n.action rel
    next => exact Or.inl rfl

lemma evaluateNodes_steadfast (cancelledAt : Option Nat) (ids : List String) :
    UpToSorts (evaluateNodes RowWise.operators d data cancelledAt computed ids)
      (evaluateNodes RowWise.steadfast d data cancelledAt computed ids) := by
  induction ids generalizing computed cancelledAt with
  | nil => exact Or.inl rfl
  | cons id ids ih =>
    rw [evaluateNodes, evaluateNodes]
    split
    next => exact Or.inl rfl
    next =>
      split
      next => exact ih _
      next n _ => exact (nodeValue_steadfast n).bind fun rel => ih _

lemma evaluate_steadfast (d : Dag) (data : Relations) (cancelledAt : Option Nat) :
    UpToSorts (d.evaluate RowWise.operators data cancelledAt)
      (d.evaluate RowWise.steadfast data cancelledAt) := by
  rw [evaluate, evaluate]
  split
  next => exact Or.inl rfl
  next => exact (evaluateNodes_steadfast cancelledAt _).bind fun out => Or.inl rfl

end Dag

end Recombine
