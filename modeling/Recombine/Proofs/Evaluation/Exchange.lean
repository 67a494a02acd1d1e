import Recombine.Proofs.Columns.Alike
import Recombine.Proofs.Evaluation.Cancellation
import Recombine.Proofs.Evaluation.Outcomes

/-! Plans without unions on uniform data. Both engines succeed on the same plans, sorts that give up
apart, and they differ only in columns of integers and floats, which nothing but a sum can give. -/

namespace Recombine

open ColumnType

variable {κ : Type} {g : ColumnType → κ}

def Action.Sums : Action → Prop
  | .aggregate _ metrics => ∃ m ∈ metrics, m.aggregation = .sum
  | _ => False

namespace Operators

structure Keeps (g : ColumnType → κ) (ops : Operators) : Prop where
  join : ∀ left right keys out, left.Alike g → right.Alike g →
    ops.join left right keys = .ok out → out.Alike g
  compare : ∀ left right keys out, left.Alike g → right.Alike g →
    ops.compare left right keys = .ok out → out.Alike g
  filter : ∀ rel filters out, rel.Alike g → ops.filter rel filters = .ok out → out.Alike g
  aggregate : ∀ rel groupBy metrics out,
    (∀ m ∈ metrics, m.aggregation = .sum → g .int = g .float) → rel.Alike g →
      ops.aggregate rel groupBy metrics = .ok out → out.Alike g
  project : ∀ rel columns out, rel.Alike g → ops.project rel columns = .ok out → out.Alike g
  sort : ∀ rel orderBy out, rel.Alike g → ops.sort rel orderBy = .ok out → out.Alike g
  limit : ∀ rel count out, rel.Alike g → ops.limit rel count = .ok out → out.Alike g

variable {ops : Operators}

lemma keeps_rowWise (g : ColumnType → κ) : RowWise.operators.Keeps g where
  join := by
    rintro left right keys _ hl hr ⟨⟩
    exact hl.join hr keys
  compare := by
    rintro left right keys _ hl hr ⟨⟩
    exact hl.compare hr keys
  filter := by
    rintro rel filters _ h ⟨⟩
    exact h.filter filters
  aggregate := by
    rintro rel groupBy metrics _ hsum h ⟨⟩
    exact h.aggregate groupBy hsum
  project := by
    rintro rel columns _ h ⟨⟩
    exact h.project columns
  sort := by
    intro rel orderBy out h hout
    rcases RowWise.sort_eq_or rel orderBy with hsort | hsort
    · cases hsort.symm.trans hout
      exact h.sort orderBy
    · cases hsort.symm.trans hout
  limit := by
    rintro rel count _ h ⟨⟩
    exact h.limit count

lemma Keeps.normalized (h : ops.Keeps kindRank) : ops.normalized.Keeps kindRank where
  join left right keys out hl hr := h.join _ _ keys out hl.normal hr.normal
  compare left right keys out hl hr := h.compare _ _ keys out hl.normal hr.normal
  filter rel filters out hrel := h.filter _ filters out hrel.normal
  aggregate rel groupBy metrics out hsum hrel :=
    h.aggregate _ groupBy metrics out hsum hrel.normal
  project rel columns out hrel := by
    apply h.project
    split
    next => exact hrel
    next => exact hrel.normal
  sort rel orderBy out hrel := h.sort _ orderBy out hrel.normal
  limit rel count out hrel := h.limit _ count out hrel.normal

end Operators

namespace Dag

variable {ops : Operators} {d : Dag} {data computed : Relations}

section Keeping

variable {node operation : String} {c : Combination} {keys : List JoinKey}
  {inputs : List (String × Relation)} {rel out : Relation}

lemma ofOperator_eq_ok {x : Except OperatorFault Relation} (h : ofOperator node operation x = .ok out) :
    x = .ok out := by
  rcases x with (e | _) | rel
  · cases h
  · cases h
  · cases h
    rfl

lemma combinePair_eq_ok {op : Relation → Relation → List JoinKey → Except OperatorFault Relation}
    (h : combinePair node c keys op inputs = .ok out) :
    ∃ i ∈ inputs, ∃ j ∈ inputs, op i.2 j.2 keys = .ok out := by
  unfold combinePair at h
  split at h
  next i left j right =>
    split at h
    next => cases h
    next =>
      exact ⟨(i, left), List.mem_cons_self, (j, right), List.mem_cons_of_mem _ List.mem_cons_self,
        ofOperator_eq_ok h⟩
  next => cases h

variable (hkeeps : ops.Keeps g)

include hkeeps

lemma combine_alike (hc : c ≠ .union) (hinputs : ∀ i ∈ inputs, i.2.Alike g)
    (h : combine ops node c keys inputs = .ok out) : out.Alike g := by
  cases c with
  | standalone =>
    rw [combine_standalone] at h
    split at h
    next => cases h; exact hinputs _ List.mem_cons_self
    next => cases h
  | union => exact absurd rfl hc
  | join =>
    obtain ⟨i, hi, j, hj, hop⟩ := combinePair_eq_ok h
    exact hkeeps.join _ _ _ _ (hinputs i hi) (hinputs j hj) hop
  | compare =>
    obtain ⟨i, hi, j, hj, hop⟩ := combinePair_eq_ok h
    exact hkeeps.compare _ _ _ _ (hinputs i hi) (hinputs j hj) hop

lemma post_alike {a : Action} (hsums : a.Sums → g .int = g .float) (hrel : rel.Alike g)
    (h : Dag.post ops node a rel = .ok out) : out.Alike g := by
  cases a with
  | scan => cases h
  | combine => cases h
  | filter => exact hkeeps.filter _ _ _ hrel (ofOperator_eq_ok h)
  | aggregate =>
    exact hkeeps.aggregate _ _ _ _ (fun m hm hsum => hsums ⟨m, hm, hsum⟩) hrel (ofOperator_eq_ok h)
  | project => exact hkeeps.project _ _ _ hrel (ofOperator_eq_ok h)
  | sort => exact hkeeps.sort _ _ _ hrel (ofOperator_eq_ok h)
  | limit => exact hkeeps.limit _ _ _ hrel (ofOperator_eq_ok h)

end Keeping

section Handed

lemma gatherInputs_values {node operation : String} {ids : List String}
    {inputs : List (String × Relation)}
    (h : gatherInputs computed node operation ids = .ok inputs) :
    ∀ i ∈ inputs, i.1 ∈ ids ∧ computed.get? i.1 = some i.2 := by
  intro i hi
  obtain ⟨id, hid, hget⟩ := Sequence.exists_of_mem_right (Attempt.mapM_eq_ok.mp h) hi
  split at hget
  next rel hrel =>
    cases hget
    exact ⟨hid, hrel⟩
  next => cases hget

lemma mem_of_mem_combineOperands {c : Combination} {keys : List JoinKey}
    {inputs : List (String × Relation)} {rel : Relation} (hc : c ≠ .union)
    (h : rel ∈ combineOperands c keys inputs) : ∃ i ∈ inputs, i.2 = rel := by
  unfold combineOperands at h
  split at h
  next => cases h
  next => exact absurd rfl hc
  next i left j right _ _ =>
    split at h
    next => cases h
    next =>
      rcases List.mem_pair.mp h with rfl | rfl
      · exact ⟨(i, _), List.mem_cons_self, rfl⟩
      · exact ⟨(j, _), List.mem_cons_of_mem _ List.mem_cons_self, rfl⟩
  next => cases h

lemma source_not_mem_terminals {e : Edge} (he : e ∈ d.edges) : e.source ∉ d.terminals :=
  fun h => (mem_terminals_iff.mp h).2 e he rfl

lemma get?_of_mem_nodeOperands (hsound : d.Sound) {n : Node} (hn : n ∈ d.nodes)
    (hunion : d.HasNoUnion) {rel : Relation} (hrel : rel ∈ d.nodeOperands computed n) :
    ∃ e ∈ d.edges, e.target = n.id ∧ computed.get? e.source = some rel := by
  rcases kinds_of_action n.action with ⟨source, ha⟩ | ⟨c, keys, ha⟩ | ha
  · rw [nodeOperands, ha] at hrel
    cases hrel
  · rw [nodeOperands, ha] at hrel
    dsimp only at hrel
    cases hgather : gatherInputs computed n.id c.name (Edge.operands (d.inbound n.id)) with
    | error e => rw [hgather] at hrel; cases hrel
    | ok inputs =>
      rw [hgather] at hrel
      have hc : c ≠ .union := by
        rintro rfl
        exact hunion n hn keys ha
      obtain ⟨i, hi, rfl⟩ := mem_of_mem_combineOperands hc hrel
      obtain ⟨hid, hget⟩ := gatherInputs_values hgather i hi
      obtain ⟨e, he, hsource⟩ := mem_operands_iff.mp hid
      obtain ⟨he, htarget⟩ := List.mem_filter.mp he
      exact ⟨e, he, beq_iff_eq.mp htarget, hsource ▸ hget⟩
  · rw [nodeOperands_post ha] at hrel
    obtain ⟨e, he, hsource, htarget⟩ := hsound.posts n hn ha
    rw [hsource] at hrel
    exact ⟨e, he, htarget, Option.mem_toList.mp hrel⟩

/-- What is computed is alike, except perhaps for the values that nothing reads. -/
def Readable (g : ColumnType → κ) (d : Dag) (computed : Relations) : Prop :=
  ∀ id rel, computed.get? id = some rel → id ∉ d.terminals → rel.Alike g

lemma readable_empty (g : ColumnType → κ) (d : Dag) : Readable g d ∅ := fun _ _ h => nomatch h

section Node

variable {n : Node} {rel : Relation} (hsound : d.Sound) (hn : n ∈ d.nodes)
  (h : Readable g d computed)

include h

lemma Readable.inputs_alike {operation : String} {inputs : List (String × Relation)}
    (hgather : gatherInputs computed n.id operation (Edge.operands (d.inbound n.id)) =
      .ok inputs) : ∀ i ∈ inputs, i.2.Alike g := by
  intro i hi
  obtain ⟨hid, hget⟩ := gatherInputs_values hgather i hi
  obtain ⟨e, he, hsource⟩ := mem_operands_iff.mp hid
  exact h _ _ hget (hsource ▸ source_not_mem_terminals (List.mem_of_mem_filter he))

include hsound hn

lemma Readable.input_alike (ha : n.action.isPost = true) {id : String} (hinputs : n.inputs = [id])
    (hget : computed.get? id = some rel) : rel.Alike g := by
  obtain ⟨e, he, hsource, -⟩ := hsound.posts n hn ha
  cases hsource.symm.trans hinputs
  exact h _ _ hget (source_not_mem_terminals he)

lemma Readable.operands_alike (hunion : d.HasNoUnion) :
    ∀ rel ∈ d.nodeOperands computed n, rel.Alike g := by
  intro rel hrel
  obtain ⟨e, he, -, hget⟩ := get?_of_mem_nodeOperands hsound hn hunion hrel
  exact h _ _ hget (source_not_mem_terminals he)

lemma Readable.value_alike (hkeeps : ops.Keeps g) (hunion : d.HasNoUnion)
    (hsums : n.action.Sums → g .int = g .float)
    (hdata : ∀ id rel, data.get? id = some rel → rel.Alike g)
    (hvalue : nodeValue ops d data computed n = .ok rel) : rel.Alike g := by
  rcases kinds_of_action n.action with ⟨source, ha⟩ | ⟨c, keys, ha⟩ | ha
  · rw [nodeValue, ha] at hvalue
    dsimp only at hvalue
    split at hvalue
    next hrel =>
      cases hvalue
      exact hdata _ _ hrel
    next => cases hvalue
  · rw [nodeValue, ha] at hvalue
    obtain ⟨inputs, hgather, hcombine⟩ := Attempt.bind_eq_ok.mp hvalue
    have hc : c ≠ .union := by
      rintro rfl
      exact hunion n hn keys ha
    exact combine_alike hkeeps hc (h.inputs_alike hgather) hcombine
  · rw [nodeValue_post_eq ha] at hvalue
    split at hvalue
    next id hinputs =>
      split at hvalue
      next input hget =>
        exact post_alike hkeeps hsums (h.input_alike hsound hn ha hinputs hget) hvalue
      next => cases hvalue
    next => cases hvalue

end Node

section Runs

variable (hsound : d.Sound) (hunion : d.HasNoUnion) (hkeeps : ops.Keeps g)
  (hsums : ∀ n ∈ d.nodes, n.action.Sums → g .int = g .float ∨ n.id ∈ d.terminals)
  (hdata : ∀ id rel, data.get? id = some rel → rel.Alike g)

include hsound hunion hkeeps hsums hdata

lemma Readable.handedAlong_alike (h : Readable g d computed) {cancelledAt : Option Nat}
    {ids : List String} : ∀ rel ∈ handedAlong ops d data cancelledAt computed ids, rel.Alike g := by
  induction ids generalizing computed cancelledAt with
  | nil => exact List.forall_mem_nil _
  | cons id ids ih =>
    rw [handedAlong]
    split
    next => exact List.forall_mem_nil _
    next =>
      split
      next => exact ih h
      next n hnode =>
        obtain ⟨hn, rfl⟩ := (node?_eq_some_iff hsound.ascending).mp hnode
        refine List.forall_mem_append.mpr ⟨h.operands_alike hsound hn hunion, ?_⟩
        split
        next rel hvalue =>
          apply ih
          -- A sum may be inserted that is not alike, but then its node is terminal.
          intro id' rel' hget hread
          rw [KeyMap.get?_insert] at hget
          split at hget
          next heq =>
            cases hget
            subst heq
            have hsum := fun hs => (hsums n hn hs).resolve_right hread
            exact h.value_alike hsound hn hkeeps hunion hsum hdata hvalue
          next => exact h id' rel' hget hread
        next => exact List.forall_mem_nil _

lemma handed_alike {cancelledAt : Option Nat} :
    ∀ rel ∈ d.handed ops data cancelledAt, rel.Alike g := by
  rw [handed]
  split
  next => exact List.forall_mem_nil _
  next =>
    exact (readable_empty g d).handedAlong_alike hsound hunion hkeeps hsums hdata

end Runs

section Values

variable (hsound : d.Sound) (hunion : d.HasNoUnion)

include hsound hunion

lemma Faithful.hasValue_of_mem_handedAlong (hdata : ∀ id ∈ d.scanIds, data.contains id = true)
    {done ids : List String} {cancelledAt : Option Nat} (h : Faithful ops d data done computed)
    (hids : ∀ id ∈ ids, id ∈ d.nodeIds) (horder : Graph.InOrder (d.edges.map Edge.arc) done ids)
    {rel : Relation} (hrel : rel ∈ handedAlong ops d data cancelledAt computed ids) :
    ∃ id ∈ d.nodeIds, HasValue ops d data id rel := by
  induction ids generalizing done computed cancelledAt with
  | nil => cases hrel
  | cons id ids ih =>
    obtain ⟨hid, hrest⟩ := List.forall_mem_cons.mp hids
    obtain ⟨n, hn, rfl⟩ := List.mem_map.mp hid
    have hnode : d.node? n.id = some n := (node?_eq_some_iff hsound.ascending).mpr ⟨hn, rfl⟩
    have hoperands : ∀ e ∈ d.edges, e.target = n.id → e.source ∈ done := by
      rintro e he htarget
      exact horder.1 _ (htarget ▸ List.mem_map_of_mem he)
    have hgives := h.gives_nodeValue hdata hn hoperands hsound
    rw [handedAlong] at hrel
    split at hrel
    next => cases hrel
    next =>
      rw [hnode] at hrel
      rcases List.mem_append.mp hrel with hrel | hrel
      · obtain ⟨e, he, -, hget⟩ := get?_of_mem_nodeOperands hsound hn hunion hrel
        exact ⟨e.source, (hsound.ends e he).1, h.values _ _ hget⟩
      · cases hvalue : nodeValue ops d data computed n with
        | error e => rw [hvalue] at hrel; cases hrel
        | ok value =>
          rw [hvalue] at hrel hgives
          exact ih (h.insert hgives) hrest horder.2 hrel

lemma hasValue_of_mem_handed {cancelledAt : Option Nat} {rel : Relation}
    (hrel : rel ∈ d.handed ops data cancelledAt) :
    ∃ id ∈ d.nodeIds, HasValue ops d data id rel := by
  rw [handed] at hrel
  split at hrel
  next => cases hrel
  next hmissing =>
    have horder := hsound.layers_isOrder
    exact faithful_empty.hasValue_of_mem_handedAlong hsound hunion
      (missingScan?_eq_none_iff.mp hmissing) (fun id hid => horder.perm.mem_iff.mp hid)
      horder.inOrder hrel

end Values

end Handed

end Dag

/-- The columnar engine does what the row engine does on the normal forms of all operands. Where no
operand mixes numbers, as when nothing reads a sum, the engines do the same. -/
structure Dag.Exchangeable (d : Dag) (data : Relations) (cancelledAt : Option Nat) : Prop where
  outcome : d.SortsInOrder data → Attempt.Parallel (fun out out' => out.keys = out'.keys)
    (d.evaluate ColumnWise.operators data cancelledAt)
    (d.evaluate RowWise.operators data cancelledAt)
  normalized : d.evaluate ColumnWise.operators data cancelledAt =
    d.evaluate RowWise.operators.normalized data cancelledAt
  unmixed : (∀ rel ∈ d.handed RowWise.operators data cancelledAt, ¬ rel.MixesNumbers) →
    d.evaluate ColumnWise.operators data cancelledAt =
      d.evaluate RowWise.operators data cancelledAt
  sums : (∀ n ∈ d.nodes, n.action.Sums → n.id ∈ d.terminals) →
    d.evaluate ColumnWise.operators data cancelledAt =
      d.evaluate RowWise.operators data cancelledAt

namespace Plan

variable {p : Plan} {d : Dag} {data : Relations}

lemma hasNoUnion (h : p.Drafted) (hunion : ∀ grp ∈ p.groups, grp.combination ≠ .union) :
    p.dag.HasNoUnion := by
  intro n hn keys ha
  obtain ⟨grp, hgrp, rfl⟩ := exists_group h hn (by rw [ha]; rfl)
  exact hunion grp hgrp (Action.combine.inj ha).1

lemma evaluate_ne_disorder (w : p.WellFormed) (hsorts : p.dag.SortsInOrder data)
    {cancelledAt : Option Nat} {node operation : String} :
    p.dag.evaluate RowWise.operators data cancelledAt ≠ .error (.disorder node operation) := by
  intro he
  rcases w.sound.error_of_evaluate he with ⟨id, he⟩ | ⟨id, he⟩ | he | ⟨id, hfails⟩
  · cases he
  · cases he
  · cases he
  · cases faults_of_fails w hfails with
    | disorder hn hgives => exact hgives.not_sortsInOrder hn hsorts

theorem evaluate_exchangeable (hcompile : p.compile = .ok d)
    (hunion : ∀ grp ∈ p.groups, grp.combination ≠ .union)
    (hdata : ∀ id rel, data.get? id = some rel → rel.Uniform) (cancelledAt : Option Nat) :
    d.Exchangeable data cancelledAt := by
  obtain ⟨w, rfl⟩ := compile_eq_ok.mp hcompile
  have hsound := w.sound
  have hno := hasNoUnion (wellFormed_iff.mp w).1 hunion
  have halike {κ : Type} (g : ColumnType → κ) : ∀ id rel, data.get? id = some rel → rel.Alike g :=
    fun id rel hget => (hdata id rel hget).alike g
  have hrow := Operators.keeps_rowWise kindRank
  have hnormalized : p.dag.evaluate ColumnWise.operators data cancelledAt =
      p.dag.evaluate RowWise.operators.normalized data cancelledAt :=
    Dag.evaluate_congr operators_agreeOn_typeable fun rel hrel => Relation.Alike.typeable
      (Dag.handed_alike hsound hno hrow.normalized (fun _ _ _ => Or.inl rfl) (halike _) rel hrel)
  refine ⟨fun hsorts => ?_, hnormalized, fun hmix => ?_, fun hsums => ?_⟩
  · rcases Dag.evaluate_steadfast p.dag data cancelledAt with hrow | ⟨node, operation, hrow⟩
    · rw [hnormalized, hrow]
      exact Dag.parallel_evaluate Operators.total_normalized Operators.total_steadfast hsound hno
        data cancelledAt
    · exact absurd hrow (evaluate_ne_disorder w hsorts)
  · refine Dag.evaluate_congr operators_agreeOn_uniform fun rel hrel => ?_
    exact Relation.Alike.uniform_of_not_mixesNumbers
      (Dag.handed_alike hsound hno hrow (fun _ _ _ => Or.inl rfl) (halike _) rel hrel)
      (hmix rel hrel)
  · refine Dag.evaluate_congr operators_agreeOn_uniform fun rel hrel => ?_
    exact Relation.Alike.uniform (Dag.handed_alike hsound hno (Operators.keeps_rowWise id)
      (fun n hn hs => Or.inr (hsums n hn hs)) (halike _) rel hrel)

def limitOfSums : Plan where
  scans := [{ id := "a", source := "x" }]
  groups := [
    { id := "s", combination := .standalone, inputs := [{ ref := "a" }] },
    { id := "u", combination := .standalone, inputs := [{ ref := "t" }] }]
  postOps := [
    { id := "t", target := "s", kind := .aggregate, groupBy := ["g"],
      metrics := [{ name := "t", aggregation := .sum, source := some "v" }] },
    { id := "l", target := "u", kind := .limit }]

lemma limitOfSums_wellFormed : limitOfSums.WellFormed := by decide +kernel

def twoGroups (column : String) (v w : Value) : Relation :=
  [Row.ofList [("g", .text "x"), (column, v)], Row.ofList [("g", .text "y"), (column, w)]]

def dataOfSums (v w : Value) : Relations := KeyMap.ofList [("a", twoGroups "v" v w)]

lemma get?_dataOfSums {v w : Value} {id : String} {rel : Relation} :
    (dataOfSums v w).get? id = some rel ↔ id = "a" ∧ rel = twoGroups "v" v w := by
  have hkeys : ([("a", twoGroups "v" v w)].map Prod.fst).Nodup := List.nodup_singleton "a"
  rw [dataOfSums, KeyMap.get?_ofList_eq_some_iff hkeys, List.mem_singleton, Prod.mk.injEq]

lemma uniform_dataOfSums {v w : Value} (h : (twoGroups "v" v w).Uniform) :
    ∀ id rel, (dataOfSums v w).get? id = some rel → rel.Uniform := by
  intro id rel hget
  rw [(get?_dataOfSums.mp hget).2]
  exact h

lemma hasValue_limitOfSums {ops : Operators} {v w : Value} {sums out : Relation}
    (hsums : ops.aggregate (twoGroups "v" v w) ["g"]
      [{ name := "t", aggregation := .sum, source := some "v" }] = .ok sums)
    (hout : ops.limit sums none = .ok out) :
    (∀ id ∈ limitOfSums.dag.nodeIds, ∃ rel ∈ [twoGroups "v" v w, sums, out],
      Dag.HasValue ops limitOfSums.dag (dataOfSums v w) id rel) ∧
        Dag.HasValue ops limitOfSums.dag (dataOfSums v w) "post_l" out := by
  have hdraft := (wellFormed_iff.mp limitOfSums_wellFormed).1
  have hget : (dataOfSums v w).get? "a" = some (twoGroups "v" v w) := get?_dataOfSums.mpr ⟨rfl, rfl⟩
  have hscan : Dag.HasValue ops limitOfSums.dag (dataOfSums v w) "a" (twoGroups "v" v w) :=
    hasValue_scan hdraft List.mem_cons_self hget
  have hs : Dag.HasValue ops limitOfSums.dag (dataOfSums v w) "combine_s" (twoGroups "v" v w) :=
    hasValue_standalone hdraft List.mem_cons_self rfl rfl hscan
  have ht : Dag.HasValue ops limitOfSums.dag (dataOfSums v w) "post_t" sums :=
    gives_postNode hdraft List.mem_cons_self hs (congrArg (Dag.ofOperator _ _) hsums)
  have hu : Dag.HasValue ops limitOfSums.dag (dataOfSums v w) "combine_u" sums :=
    hasValue_standalone hdraft (List.mem_cons_of_mem _ List.mem_cons_self) rfl rfl ht
  have hl : Dag.HasValue ops limitOfSums.dag (dataOfSums v w) "post_l" out :=
    gives_postNode hdraft (List.mem_cons_of_mem _ List.mem_cons_self) hu
      (congrArg (Dag.ofOperator _ _) hout)
  refine ⟨fun id hid => ?_, hl⟩
  have hid' : id ∈ ["a", "combine_s", "combine_u", "post_t", "post_l"] :=
    (dag_nodeIds_perm hdraft).mem_iff.mp hid
  simp only [List.mem_cons, List.not_mem_nil, or_false] at hid'
  rcases hid' with rfl | rfl | rfl | rfl | rfl
  exacts [⟨_, by simp, hscan⟩, ⟨_, by simp, hs⟩, ⟨_, by simp, hu⟩, ⟨_, by simp, ht⟩, ⟨_, by simp, hl⟩]

theorem evaluate_limitOfSums_exchangeable : limitOfSums.compile = .ok limitOfSums.dag ∧
    (∀ grp ∈ limitOfSums.groups, grp.combination ≠ .union) ∧
    (∀ id rel, (dataOfSums .null .null).get? id = some rel → rel.Uniform) ∧
    limitOfSums.dag.evaluate ColumnWise.operators (dataOfSums .null .null) none =
      limitOfSums.dag.evaluate RowWise.operators (dataOfSums .null .null) none := by
  have hcompile : limitOfSums.compile = .ok limitOfSums.dag :=
    compile_eq_ok.mpr ⟨limitOfSums_wellFormed, rfl⟩
  have hunion : ∀ grp ∈ limitOfSums.groups, grp.combination ≠ .union := by decide
  have hdata := uniform_dataOfSums (v := .null) (w := .null) (by decide)
  have hsums : RowWise.operators.aggregate (twoGroups "v" .null .null) ["g"]
      [{ name := "t", aggregation := .sum, source := some "v" }] =
        .ok (twoGroups "t" (.int 0) (.int 0)) := by
    decide +kernel
  have hvalues := (hasValue_limitOfSums hsums rfl).1
  have hunmixed : ∀ rel ∈ [twoGroups "v" .null .null, twoGroups "t" (.int 0) (.int 0),
      twoGroups "t" (.int 0) (.int 0)], ¬ rel.MixesNumbers := by
    decide
  refine ⟨hcompile, hunion, hdata, (evaluate_exchangeable hcompile hunion hdata none).unmixed ?_⟩
  intro rel hrel
  have hsound := limitOfSums_wellFormed.sound
  have hno := hasNoUnion (wellFormed_iff.mp limitOfSums_wellFormed).1 hunion
  obtain ⟨id, hid, hrel⟩ := Dag.hasValue_of_mem_handed hsound hno hrel
  obtain ⟨rel', hmem, hrel'⟩ := hvalues id hid
  cases Except.ok.inj (hrel.unique hsound.ids hrel')
  exact hunmixed rel hmem

lemma evaluate_limitOfSums {ops : Operators} {v w : Value} {sums out : Relation}
    (hsums : ops.aggregate (twoGroups "v" v w) ["g"]
      [{ name := "t", aggregation := .sum, source := some "v" }] = .ok sums)
    (hout : ops.limit sums none = .ok out) :
    ∃ outputs, limitOfSums.dag.evaluate ops (dataOfSums v w) none = .ok outputs ∧
      outputs.get? "post_l" = some out := by
  have w' := limitOfSums_wellFormed
  have hdraft := (wellFormed_iff.mp w').1
  obtain ⟨hvalues, hl⟩ := hasValue_limitOfSums hsums hout
  have hcovered : ∀ id ∈ limitOfSums.dag.scanIds, (dataOfSums v w).contains id = true := by
    intro id hid
    rw [KeyMap.contains_iff, KeyMap.mem_keys_iff]
    have hid' : id ∈ ["a"] := (scanIds_perm hdraft).mem_iff.mp hid
    rw [List.mem_singleton.mp hid']
    exact ⟨_, get?_dataOfSums.mpr ⟨rfl, rfl⟩⟩
  have hne : limitOfSums.dag.nodes ≠ [] := (nodes_ne_nil_iff w').mpr (by decide)
  have hall : Dag.HasValues ops limitOfSums.dag (dataOfSums v w) :=
    fun id hid => (hvalues id hid).imp fun _ h => h.2
  obtain ⟨outputs, hok, houtputs⟩ := (Dag.evaluate_interprets w'.sound hcovered hne).values hall
  exact ⟨outputs, hok, (houtputs _ _).mpr ⟨by decide_cbv, hl⟩⟩

theorem evaluate_limitOfSums_differs : limitOfSums.compile = .ok limitOfSums.dag ∧
    (∀ grp ∈ limitOfSums.groups, grp.combination ≠ .union) ∧
    (∀ id rel, (dataOfSums .null (.float 1.5)).get? id = some rel → rel.Uniform) ∧
    limitOfSums.dag.evaluate ColumnWise.operators (dataOfSums .null (.float 1.5)) none ≠
      limitOfSums.dag.evaluate RowWise.operators (dataOfSums .null (.float 1.5)) none := by
  have hcompile : limitOfSums.compile = .ok limitOfSums.dag :=
    compile_eq_ok.mpr ⟨limitOfSums_wellFormed, rfl⟩
  -- No evaluation of the plan as a whole: only the kernel computes with floats.
  have hrow : RowWise.operators.aggregate (twoGroups "v" .null (.float 1.5)) ["g"]
      [{ name := "t", aggregation := .sum, source := some "v" }] =
        .ok (twoGroups "t" (.int 0) (.float 1.5)) := by
    decide +kernel
  have hcolumns : ColumnWise.operators.aggregate (twoGroups "v" .null (.float 1.5)) ["g"]
      [{ name := "t", aggregation := .sum, source := some "v" }] =
        .ok (twoGroups "t" (.int 0) (.float 1.5)) := by
    decide +kernel
  have hlimit : ColumnWise.operators.limit (twoGroups "t" (.int 0) (.float 1.5)) none =
      .ok (twoGroups "t" (.float 0) (.float 1.5)) := by
    decide +kernel
  obtain ⟨out, hout, hget⟩ := evaluate_limitOfSums hrow rfl
  obtain ⟨out', hout', hget'⟩ := evaluate_limitOfSums hcolumns hlimit
  refine ⟨hcompile, by decide, uniform_dataOfSums (by decide +kernel), fun heq => ?_⟩
  rw [hout, hout'] at heq
  cases heq
  have hdiffer : twoGroups "t" (.float 0) (.float 1.5) ≠ twoGroups "t" (.int 0) (.float 1.5) := by
    decide +kernel
  exact hdiffer (Option.some.inj (hget'.symm.trans hget))

end Plan

end Recombine
