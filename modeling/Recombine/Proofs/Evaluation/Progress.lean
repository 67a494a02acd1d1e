import Recombine.Proofs.Dag.Structure
import Recombine.Proofs.Engine.Sorting
import Recombine.Proofs.Evaluation.Interpretation

/-! Progress of compiled plans: rows can be evaluated unless a group has the wrong number of
inputs, no keys, or inputs of different columns, or a sort gives up. -/

namespace Recombine

def Relation.SameColumns (rel rel' : Relation) : Prop :=
  ∀ r s, rel.head? = some r → rel'.head? = some s → ∀ c, c ∈ r.columns ↔ c ∈ s.columns

namespace Dag

/-- Every sort reads rows that are in order in the columns by which it sorts them. -/
def SortsInOrder (d : Dag) (data : Relations) : Prop :=
  ∀ n ∈ d.nodes, ∀ orderBy, n.action = .sort orderBy → ∀ source ∈ n.inputs, ∀ rel,
    HasValue RowWise.operators d data source rel → rel.Sortable orderBy

/-- The node sorts rows that are in no order, and so many that this is noticed. -/
def GivesUp (d : Dag) (data : Relations) (n : Node) : Prop :=
  ∃ orderBy, n.action = .sort orderBy ∧ ∃ source ∈ n.inputs, ∃ rel,
    HasValue RowWise.operators d data source rel ∧ RowWise.unchecked < rel.length ∧
      ¬ rel.Sortable orderBy

lemma GivesUp.not_sortsInOrder {d : Dag} {data : Relations} {n : Node} (h : d.GivesUp data n)
    (hn : n ∈ d.nodes) : ¬ d.SortsInOrder data := by
  obtain ⟨orderBy, ha, source, hsource, rel, hrel, -, hnot⟩ := h
  exact fun hsorts => hnot (hsorts n hn orderBy ha source hsource rel hrel)

end Dag

namespace Plan

def InputValue (p : Plan) (data : Relations) (g : Group) (i : Input) (rel : Relation) : Prop :=
  Dag.HasValue RowWise.operators p.dag data (p.inputEdge g i).source rel

structure InputsFit (p : Plan) (data : Relations) (g : Group) : Prop where
  standalone : g.combination = .standalone → g.inputs.length = 1
  keyed : g.combination.isKeyed = true → g.inputs.length = 2 ∧ g.keys ≠ []
  union : g.combination = .union → ∀ i ∈ g.inputs, ∀ j ∈ g.inputs, ∀ rel rel',
    p.InputValue data g i rel → p.InputValue data g j rel' → rel.SameColumns rel'

structure Executable (p : Plan) (data : Relations) : Prop where
  scans : p.scans ≠ []
  groups : ∀ g ∈ p.groups, p.InputsFit data g

/-- The reasons for which a plan cannot be executed, each with the fault that it leads to. -/
inductive Faults (p : Plan) (data : Relations) : RunError → Prop
  | empty (h : p.scans = []) : Faults p data (.noTerminals p.dag.id)
  | standalone {g : Group} (hg : g ∈ p.groups) (hc : g.combination = .standalone)
      (h : g.inputs.length ≠ 1) :
      Faults p data (.inputArity (Group.nodeId g.id) g.combination.name "exactly 1" g.inputs.length)
  | keyed {g : Group} (hg : g ∈ p.groups) (hc : g.combination.isKeyed = true)
      (h : g.inputs.length ≠ 2) :
      Faults p data (.inputArity (Group.nodeId g.id) g.combination.name "exactly 2" g.inputs.length)
  | keys {g : Group} (hg : g ∈ p.groups) (hc : g.combination.isKeyed = true) (h : g.keys = []) :
      Faults p data (.missingJoinKeys (Group.nodeId g.id) g.combination.name)
  | union {g : Group} {i j : Input} {rel rel' : Relation} {r s : Row} (hg : g ∈ p.groups)
      (hc : g.combination = .union) (hi : i ∈ g.inputs) (hj : j ∈ g.inputs)
      (hrel : p.InputValue data g i rel) (hrel' : p.InputValue data g j rel')
      (hr : rel.head? = some r) (hs : rel'.head? = some s)
      (h : ¬ ∀ c, c ∈ r.columns ↔ c ∈ s.columns) :
      Faults p data (.schemaMismatch (Group.nodeId g.id) g.combination.name
        (Dag.unionMismatch (p.inputEdge g j).source (KeyMap.ofKeys s.columns)
          (p.inputEdge g i).source (KeyMap.ofKeys r.columns)))
  | disorder {n : Node} (hn : n ∈ p.dag.nodes) (h : p.dag.GivesUp data n) :
      Faults p data (.disorder n.id "sort")

structure Progresses (p : Plan) (data : Relations) (d : Dag) (result : Except RunError Relations) :
    Prop where
  ok_iff : d.SortsInOrder data → ((∃ out, result = .ok out) ↔ p.Executable data)
  executable : ∀ out, result = .ok out → p.Executable data
  keys : ∀ out, result = .ok out → out.keys = d.terminals ∧ d.terminals ≠ []
  faults : ∀ e, result = .error e → p.Faults data e
  inputs : ∀ node operation input, result ≠ .error (.missingInput node operation input)
  arity : ∀ node operation expected actual,
    result = .error (.inputArity node operation expected actual) →
      ∃ g ∈ p.groups, g.combination ≠ .union ∧ Group.nodeId g.id = node
  posts : ∀ node operation,
    result ≠ .error (.schemaMismatch node operation "not a post-combine operation")
  empty : ∀ id, result = .error (.noTerminals id) →
    p.scans = [] ∧ p.groups = [] ∧ p.postOps = []

end Plan

namespace Dag

section Operations

variable {node : String} {c : Combination} {keys : List JoinKey}
  {inputs : List (String × Relation)} {op : Relation → Relation → List JoinKey →
    Except OperatorFault Relation} {rel : Relation} {e : RunError}

lemma mem_columnSets_iff {x : String × KeyMap Unit} : x ∈ columnSets inputs ↔
    ∃ i ∈ inputs, ∃ r, i.2.head? = some r ∧ (i.1, KeyMap.ofKeys r.columns) = x := by
  simp only [columnSets, columnSet?, List.mem_filterMap, Option.map_eq_some_iff]
  constructor
  · rintro ⟨i, hi, columns, ⟨r, hr, rfl⟩, rfl⟩
    exact ⟨i, hi, r, hr, rfl⟩
  · rintro ⟨i, hi, r, hr, rfl⟩
    exact ⟨i, hi, _, ⟨r, hr, rfl⟩, rfl⟩

lemma sameColumns_of_unionFault? (h : unionFault? inputs = none) :
    ∀ i ∈ inputs, ∀ j ∈ inputs, Relation.SameColumns i.2 j.2 := by
  have hsame : ∀ x ∈ columnSets inputs, ∀ y ∈ columnSets inputs, x.2 = y.2 := by
    rw [unionFault?] at h
    cases hsets : columnSets inputs with
    | nil => exact fun x hx => nomatch hx
    | cons first others =>
      rw [hsets] at h
      have hfirst : ∀ x ∈ first :: others, x.2 = first.2 := by
        refine List.forall_mem_cons.mpr ⟨rfl, fun x hx => ?_⟩
        simpa using List.find?_eq_none.mp (Option.map_eq_none_iff.mp h) x hx
      exact fun x hx y hy => (hfirst x hx).trans (hfirst y hy).symm
  intro i hi j hj r s hr hs
  rw [← KeyMap.ofKeys_eq_iff]
  exact hsame _ (mem_columnSets_iff.mpr ⟨i, hi, r, hr, rfl⟩) _
    (mem_columnSets_iff.mpr ⟨j, hj, s, hs, rfl⟩)

lemma columnSet?_eq_none_iff : columnSet? rel = none ↔ rel = [] := by
  simp [columnSet?]

lemma columnSet?_eq_some_iff {columns : KeyMap Unit} : columnSet? rel = some columns ↔
    ∃ r, rel.head? = some r ∧ KeyMap.ofKeys r.columns = columns := Option.map_eq_some_iff

lemma sameColumns_of_columnSets {same : List (String × KeyMap Unit)} {r : Row}
    (hsets : columnSets inputs = same) (hsame : ∀ x ∈ same, x.2 = KeyMap.ofKeys r.columns)
    (hr : rel.head? = some r) : ∀ x ∈ inputs, rel.SameColumns x.2 := by
  intro x hx r' s hr' hs
  cases hr.symm.trans hr'
  rw [← KeyMap.ofKeys_eq_iff]
  exact (hsame _ (hsets ▸ mem_columnSets_iff.mpr ⟨x, hx, s, hs, rfl⟩)).symm

structure FirstMismatch (inputs : List (String × Relation)) (first culprit : String) (r s : Row) :
    Prop where
  split : ∃ before rel mid rel' after,
    inputs = before ++ (first, rel) :: (mid ++ (culprit, rel') :: after) ∧
      (∀ x ∈ before, x.2 = []) ∧ rel.head? = some r ∧ (∀ x ∈ mid, rel.SameColumns x.2) ∧
      rel'.head? = some s
  differ : ¬ ∀ c, c ∈ r.columns ↔ c ∈ s.columns

lemma FirstMismatch.exists_inputs {first culprit : String} {r s : Row}
    (h : FirstMismatch inputs first culprit r s) : ∃ i ∈ inputs, ∃ j ∈ inputs,
      i.1 = first ∧ j.1 = culprit ∧ i.2.head? = some r ∧ j.2.head? = some s := by
  obtain ⟨before, rel, mid, rel', after, rfl, -, hr, -, hs⟩ := h.split
  exact ⟨(first, rel), by simp, (culprit, rel'), by simp, rfl, rfl, hr, hs⟩

lemma firstMismatch_of_unionFault? {reason : String} (h : unionFault? inputs = some reason) :
    ∃ first culprit r s, FirstMismatch inputs first culprit r s ∧
      unionMismatch culprit (KeyMap.ofKeys s.columns) first (KeyMap.ofKeys r.columns) = reason := by
  rw [unionFault?] at h
  split at h
  next => cases h
  next first expected others hsets =>
    obtain ⟨⟨culprit, columns⟩, hfind, rfl⟩ := Option.map_eq_some_iff.mp h
    obtain ⟨hne, same, later, rfl, hsame⟩ := List.find?_eq_some_iff_append.mp hfind
    obtain ⟨before, ⟨_, rel⟩, rest, rfl, hbefore, hrel, hothers⟩ :=
      List.filterMap_eq_cons_iff.mp hsets
    obtain ⟨mid, back, rfl, hmid, hback⟩ := List.filterMap_eq_append_iff.mp hothers
    obtain ⟨empty, ⟨_, rel'⟩, after, rfl, hempty, hrel', -⟩ := List.filterMap_eq_cons_iff.mp hback
    obtain ⟨_, hexpected, heq⟩ := Option.map_eq_some_iff.mp hrel
    obtain ⟨rfl, rfl⟩ := Prod.mk.inj heq
    obtain ⟨_, hcolumns, heq⟩ := Option.map_eq_some_iff.mp hrel'
    obtain ⟨rfl, rfl⟩ := Prod.mk.inj heq
    obtain ⟨r, hr, rfl⟩ := columnSet?_eq_some_iff.mp hexpected
    obtain ⟨s, hs, rfl⟩ := columnSet?_eq_some_iff.mp hcolumns
    have hnil : ∀ x : String × Relation, (columnSet? x.2).map (x.1, ·) = none → x.2 = [] :=
      fun x hx => columnSet?_eq_none_iff.mp (Option.map_eq_none_iff.mp hx)
    refine ⟨_, _, r, s, ⟨⟨before, rel, mid ++ empty, rel', after, ?_, ?_, hr, ?_, hs⟩, ?_⟩, rfl⟩
    · simp
    · exact fun x hx => hnil x (hbefore x hx)
    · intro x hx
      rcases List.mem_append.mp hx with hx | hx
      · exact sameColumns_of_columnSets hmid (by simpa using hsame) hr x hx
      · intro r' s' _ hs'
        rw [hnil x (hempty x hx)] at hs'
        cases hs'
    · intro hcolumns
      rw [← KeyMap.ofKeys_eq_iff] at hcolumns
      simp [hcolumns] at hne

lemma unionMismatch_ne {id first : String} {columns expected : KeyMap Unit} :
    unionMismatch id columns first expected ≠ "not a post-combine operation" := by
  have hstart : ∀ s, "union input '" ++ s ≠ "not a post-combine operation" := by
    intro s h
    have hhead := congrArg (fun s => s.toList.head?) h
    simp at hhead
  unfold unionMismatch
  iterate 7 rw [String.append_assoc]
  exact hstart _

lemma combinePair_ok (h : combinePair node c keys op inputs = .ok rel) :
    inputs.length = 2 ∧ keys ≠ [] := by
  unfold combinePair at h
  split at h
  next =>
    refine ⟨rfl, fun hnil => ?_⟩
    rw [hnil] at h
    cases h
  next => cases h

lemma combinePair_error (hop : ∀ left right keys, ∃ rel, op left right keys = .ok rel)
    (h : combinePair node c keys op inputs = .error e) :
    inputs.length ≠ 2 ∧ e = arityFault node c "exactly 2" inputs ∨
      keys = [] ∧ e = .missingJoinKeys node c.name := by
  unfold combinePair at h
  split at h
  next left _ right =>
    split at h
    next hkeys =>
      cases h
      exact Or.inr ⟨List.isEmpty_iff.mp hkeys, rfl⟩
    next =>
      obtain ⟨rel, hrel⟩ := hop left right keys
      rw [hrel] at h
      cases h
  next hne =>
    cases h
    refine Or.inl ⟨fun hlen => ?_, rfl⟩
    obtain ⟨⟨i, rel⟩, ⟨j, rel'⟩, hinputs⟩ := List.length_eq_two.mp hlen
    exact hne _ _ _ _ hinputs

lemma post_rowWise_error {a : Action} (ha : a.isPost = true)
    (h : Dag.post RowWise.operators node a rel = .error e) :
    ∃ orderBy, a = .sort orderBy ∧ e = .disorder node "sort" ∧ RowWise.unchecked < rel.length ∧
      ¬ rel.Sortable orderBy := by
  cases a with
  | scan => cases ha
  | combine => cases ha
  | sort orderBy =>
    rw [Dag.post] at h
    cases hsort : RowWise.operators.sort rel orderBy with
    | ok rel' =>
      rw [hsort] at h
      cases h
    | error fault =>
      obtain ⟨rfl, hlong, hnot⟩ := RowWise.sort_eq_error_iff.mp hsort
      rw [hsort] at h
      cases h
      exact ⟨orderBy, rfl, rfl, hlong, hnot⟩
  | _ => cases h

end Operations

lemma evaluate_of_no_nodes {ops : Operators} {d : Dag} {data : Relations} (h : d.Sound)
    (hnil : d.nodes = []) : d.evaluate ops data none = .error (.noTerminals d.id) := by
  have hscans : d.missingScan? data = none := by
    rw [missingScan?, scanIds, hnil]
    rfl
  have hlayers : d.layers.flatten = [] := by
    have hperm := h.layers_isOrder.perm
    rwa [nodeIds, hnil, List.map_nil, List.perm_nil] at hperm
  have hterminals : d.terminals.isEmpty = true := by
    rw [terminals, nodeIds, hnil]
    rfl
  rw [evaluate, hscans, hlayers, hterminals]
  rfl

end Dag

namespace Plan

variable {p : Plan} {data : Relations}

section Values

variable {ops : Operators} {rel : Relation}

lemma hasValue_scan (h : p.Drafted) {s : Scan} (hs : s ∈ p.scans)
    (hget : data.get? s.id = some rel) : Dag.HasValue ops p.dag data s.id rel :=
  Dag.Gives.scan ((mem_dag_nodes_iff h).mpr (Or.inl ⟨s, hs, rfl⟩)) rfl hget

lemma gives_groupNode (h : p.Drafted) {grp : Group} (hgrp : grp ∈ p.groups)
    (xs : List (Input × Relation)) {x : Except RunError Relation}
    (hinputs : grp.inputs.Perm (xs.map Prod.fst))
    (hsorted : ((xs.map Prod.fst).map (p.inputEdge grp)).Pairwise Edge.OperandNotAfter)
    (hvalues : ∀ y ∈ xs, Dag.HasValue ops p.dag data (p.inputEdge grp y.1).source y.2)
    (hx : Dag.combine ops (Group.nodeId grp.id) grp.combination grp.keys
      (xs.map fun y => ((p.inputEdge grp y.1).source, y.2)) = x) :
    Dag.Gives ops p.dag data (Group.nodeId grp.id) x := by
  have hperm := (inbound_groupNode h hgrp).trans (hinputs.map (p.inputEdge grp))
  have hoperands : Edge.operands (p.dag.inbound (Group.nodeId grp.id)) =
      (xs.map fun y => ((p.inputEdge grp y.1).source, y.2)).map Prod.fst := by
    rw [Edge.operands_of_pairwise hperm hsorted, List.map_map, List.map_map, List.map_map]
    rfl
  exact Dag.Gives.combine (groupNode_mem_dag h hgrp) rfl hoperands.symm
    (List.forall_mem_map.mpr hvalues) hx

lemma hasValue_standalone (h : p.Drafted) {grp : Group} {i : Input} (hgrp : grp ∈ p.groups)
    (hc : grp.combination = .standalone) (hinputs : grp.inputs = [i])
    (hrel : Dag.HasValue ops p.dag data (p.inputEdge grp i).source rel) :
    Dag.HasValue ops p.dag data (Group.nodeId grp.id) rel := by
  refine gives_groupNode h hgrp [(i, rel)] (.of_eq hinputs) (List.pairwise_singleton _ _) ?_ ?_
  · exact List.forall_mem_singleton.mpr hrel
  · rw [hc]
    rfl

section Single

variable (w : p.WellFormed) {grp : Group} (hgroups : p.groups = [grp]) (hposts : p.postOps = [])
  (hread : ∀ s ∈ p.scans, ∃ i ∈ grp.inputs, (p.inputEdge grp i).source = s.id)

include w hgroups hposts

lemma mem_nodeIds_of_single {id : String} :
    id ∈ p.dag.nodeIds ↔ id ∈ p.scans.map Scan.id ∨ id = Group.nodeId grp.id := by
  rw [(dag_nodeIds_perm (wellFormed_iff.mp w).1).mem_iff, nodeIds, hgroups, hposts]
  simp

include hread

lemma mem_terminals_of_single {id : String} :
    id ∈ p.dag.terminals ↔ id = Group.nodeId grp.id := by
  have hdraft := (wellFormed_iff.mp w).1
  have hgrp : grp ∈ p.groups := hgroups ▸ List.mem_cons_self
  have hterminal : ∀ id ∈ p.dag.terminals, id = Group.nodeId grp.id := by
    intro id hid
    obtain ⟨hid, hunread⟩ := Dag.mem_terminals_iff.mp hid
    refine ((mem_nodeIds_of_single w hgroups hposts).mp hid).resolve_left fun hscan => ?_
    obtain ⟨s, hs, rfl⟩ := List.mem_map.mp hscan
    obtain ⟨i, hi, hsource⟩ := hread s hs
    have hedge := mem_edges_iff.mpr (Or.inl ⟨grp, hgrp, i, hi, rfl⟩)
    exact hunread _ ((dag_edges_perm hdraft).mem_iff.mpr hedge) hsource
  refine ⟨hterminal id, ?_⟩
  rintro rfl
  have hne : p.dag.nodes ≠ [] := List.ne_nil_of_mem (groupNode_mem_dag hdraft hgrp)
  obtain ⟨last, hlast⟩ := List.exists_mem_of_ne_nil _ (w.sound.terminals_ne_nil hne)
  exact hterminal last hlast ▸ hlast

/-- A plan whose one operation is a group that reads all scans has the value of the group as its
only output. -/
lemma evaluate_of_single (hdata : ∀ s ∈ p.scans, data.contains s.id = true)
    (hrel : Dag.HasValue ops p.dag data (Group.nodeId grp.id) rel) :
    p.dag.evaluate ops data none = .ok (KeyMap.ofList [(Group.nodeId grp.id, rel)]) := by
  have hdraft := (wellFormed_iff.mp w).1
  have hscans : ∀ id ∈ p.dag.scanIds, data.contains id = true := by
    intro id hid
    obtain ⟨s, hs, rfl⟩ := List.mem_map.mp ((scanIds_perm hdraft).mem_iff.mp hid)
    exact hdata s hs
  have hne : p.dag.nodes ≠ [] :=
    List.ne_nil_of_mem (groupNode_mem_dag hdraft (hgroups ▸ List.mem_cons_self))
  have hvalues : Dag.HasValues ops p.dag data := by
    intro id hid
    rcases (mem_nodeIds_of_single w hgroups hposts).mp hid with hscan | rfl
    · obtain ⟨s, hs, rfl⟩ := List.mem_map.mp hscan
      obtain ⟨rel', hget⟩ := KeyMap.mem_keys_iff.mp (KeyMap.contains_iff.mp (hdata s hs))
      exact ⟨rel', hasValue_scan hdraft hs hget⟩
    · exact ⟨rel, hrel⟩
  refine Dag.evaluate_eq_ok w.sound hscans hne hvalues fun id rel' => ?_
  have hkeys : ([(Group.nodeId grp.id, rel)].map Prod.fst).Nodup := List.nodup_singleton _
  rw [KeyMap.get?_ofList_eq_some_iff hkeys, List.mem_singleton, Prod.mk.injEq,
    mem_terminals_of_single w hgroups hposts hread]
  refine and_congr_right ?_
  rintro rfl
  exact ⟨fun h => h ▸ hrel, fun h => Except.ok.inj (h.unique w.sound.ids hrel)⟩

end Single

lemma gives_postNode (h : p.Drafted) {op : PostOp} {x : Except RunError Relation}
    (hop : op ∈ p.postOps) (hrel : Dag.HasValue ops p.dag data (p.postSource op) rel)
    (hx : Dag.post ops (PostOp.nodeId op.id) op.action rel = x) :
    Dag.Gives ops p.dag data (PostOp.nodeId op.id) x := by
  have hn : p.postNode op ∈ p.dag.nodes :=
    (mem_dag_nodes_iff h).mpr (Or.inr (Or.inr ⟨op, hop, rfl⟩))
  exact Dag.Gives.post hn op.isPost_action rfl hrel hx

end Values

section Groups

variable {g : Group} {inputs : List (String × Relation)}

lemma operands_perm (h : p.Drafted) (hg : g ∈ p.groups) :
    (Edge.operands (p.dag.inbound (Group.nodeId g.id))).Perm
      (g.inputs.map fun i => (p.inputEdge g i).source) := by
  have hperm := ((List.mergeSort_perm _ Edge.isOperandBefore).trans (inbound_groupNode h hg)).map
    Edge.source
  rwa [List.map_map] at hperm

structure Feeds (p : Plan) (data : Relations) (g : Group) (inputs : List (String × Relation)) :
    Prop where
  perm : (inputs.map Prod.fst).Perm (g.inputs.map fun i => (p.inputEdge g i).source)
  values : ∀ i ∈ inputs, Dag.HasValue RowWise.operators p.dag data i.1 i.2

lemma Feeds.length_eq (h : p.Feeds data g inputs) : inputs.length = g.inputs.length := by
  simpa using h.perm.length_eq

lemma Feeds.exists_input (h : p.Feeds data g inputs) {x : String × Relation} (hx : x ∈ inputs) :
    ∃ i ∈ g.inputs, (p.inputEdge g i).source = x.1 ∧ p.InputValue data g i x.2 := by
  obtain ⟨i, hi, hsource⟩ := List.mem_map.mp (h.perm.mem_iff.mp (List.mem_map_of_mem hx))
  refine ⟨i, hi, hsource, ?_⟩
  rw [InputValue, hsource]
  exact h.values x hx

lemma Feeds.exists_value (h : p.Feeds data g inputs) {i : Input} (hi : i ∈ g.inputs) :
    ∃ rel, ((p.inputEdge g i).source, rel) ∈ inputs := by
  have hmem : (p.inputEdge g i).source ∈ inputs.map Prod.fst :=
    h.perm.mem_iff.mpr (List.mem_map.mpr ⟨i, hi, rfl⟩)
  obtain ⟨⟨source, rel⟩, hx, hsource⟩ := List.mem_map.mp hmem
  exact ⟨rel, hsource ▸ hx⟩

lemma exists_feeds_of_gives (h : p.Drafted) (hids : p.dag.nodeIds.Nodup) (hg : g ∈ p.groups)
    {x : Except RunError Relation}
    (hx : Dag.Gives RowWise.operators p.dag data (Group.nodeId g.id) x) :
    ∃ inputs, p.Feeds data g inputs ∧ Dag.combine RowWise.operators (Group.nodeId g.id)
      g.combination g.keys inputs = x := by
  obtain ⟨inputs, hsources, hvalues, hcombine⟩ :=
    Dag.Gives.of_combine hids (groupNode_mem_dag h hg) rfl hx
  exact ⟨inputs, ⟨hsources ▸ operands_perm h hg, hvalues⟩, hcombine⟩

section Faults

variable (hg : g ∈ p.groups) (hf : p.Feeds data g inputs) {e : RunError}

include hg hf

lemma faults_of_single (hc : g.combination = .standalone)
    (h : Dag.combine RowWise.operators (Group.nodeId g.id) .standalone g.keys inputs = .error e) :
    p.Faults data e := by
  rw [Dag.combine_standalone] at h
  split at h
  next => cases h
  next hsingle =>
    cases h
    have hlen : g.inputs.length ≠ 1 := by
      rw [← hf.length_eq]
      intro hone
      obtain ⟨⟨i, rel⟩, hinputs⟩ := List.length_eq_one_iff.mp hone
      exact hsingle _ _ hinputs
    rw [Dag.arityFault, hf.length_eq, ← hc]
    exact Faults.standalone hg hc hlen

lemma faults_of_combinePair {op : Relation → Relation → List JoinKey → Except OperatorFault Relation}
    (hop : ∀ left right keys, ∃ rel, op left right keys = .ok rel)
    (hc : g.combination.isKeyed = true)
    (h : Dag.combinePair (Group.nodeId g.id) g.combination g.keys op inputs = .error e) :
    p.Faults data e := by
  rcases Dag.combinePair_error hop h with ⟨hlen, rfl⟩ | ⟨hkeys, rfl⟩
  · rw [Dag.arityFault, hf.length_eq]
    rw [hf.length_eq] at hlen
    exact Faults.keyed hg hc hlen
  · exact Faults.keys hg hc hkeys

lemma faults_of_combineAll (hne : g.inputs ≠ []) (hc : g.combination = .union)
    (h : Dag.combineAll RowWise.operators (Group.nodeId g.id) inputs = .error e) :
    p.Faults data e := by
  rw [Dag.combineAll] at h
  split at h
  next hempty =>
    -- A compiled group has inputs, so the check of their number cannot fail.
    have hlen := hf.length_eq
    rw [List.isEmpty_iff.mp hempty, List.length_nil] at hlen
    exact absurd (List.eq_nil_of_length_eq_zero hlen.symm) hne
  next =>
    split at h
    next reason hreason =>
      cases h
      obtain ⟨_, _, r, s, hfirst, rfl⟩ := Dag.firstMismatch_of_unionFault? hreason
      obtain ⟨x, hx, y, hy, rfl, rfl, hr, hs⟩ := hfirst.exists_inputs
      obtain ⟨i, hi, hsource, hrel⟩ := hf.exists_input hx
      obtain ⟨j, hj, hsource', hrel'⟩ := hf.exists_input hy
      rw [← hsource, ← hsource', ← hc]
      exact Faults.union hg hc hi hj hrel hrel' hr hs hfirst.differ
    next => cases h

lemma faults_of_combine (hne : g.inputs ≠ [])
    (h : Dag.combine RowWise.operators (Group.nodeId g.id) g.combination g.keys inputs =
      .error e) : p.Faults data e := by
  cases hc : g.combination with
  | standalone =>
    rw [hc] at h
    exact faults_of_single hg hf hc h
  | union =>
    rw [hc] at h
    exact faults_of_combineAll hg hf hne hc h
  | join =>
    have hkeyed : g.combination.isKeyed = true := by rw [hc]; rfl
    rw [hc, Dag.combine, ← hc] at h
    exact faults_of_combinePair hg hf (fun _ _ _ => ⟨_, rfl⟩) hkeyed h
  | compare =>
    have hkeyed : g.combination.isKeyed = true := by rw [hc]; rfl
    rw [hc, Dag.combine, ← hc] at h
    exact faults_of_combinePair hg hf (fun _ _ _ => ⟨_, rfl⟩) hkeyed h

end Faults

lemma inputsFit_of_combine (hids : p.dag.nodeIds.Nodup) (hf : p.Feeds data g inputs)
    {rel : Relation} (h : Dag.combine RowWise.operators (Group.nodeId g.id) g.combination g.keys
      inputs = .ok rel) : p.InputsFit data g := by
  have hlen := hf.length_eq
  constructor
  · intro hc
    rw [hc] at h
    rw [Dag.combine_standalone] at h
    split at h
    next => exact hlen.symm
    next => cases h
  · intro hc
    rw [← hlen]
    cases hkeyed : g.combination with
    | standalone => rw [hkeyed] at hc; cases hc
    | union => rw [hkeyed] at hc; cases hc
    | join => rw [hkeyed] at h; exact Dag.combinePair_ok h
    | compare => rw [hkeyed] at h; exact Dag.combinePair_ok h
  · intro hc i hi j hj rel rel' hrel hrel'
    rw [hc, Dag.combine, Dag.combineAll] at h
    split at h
    next => cases h
    next =>
      split at h
      next => cases h
      next hfault =>
        obtain ⟨a, ha⟩ := hf.exists_value hi
        obtain ⟨b, hb⟩ := hf.exists_value hj
        cases Dag.Gives.unique hids hrel (hf.values _ ha)
        cases Dag.Gives.unique hids hrel' (hf.values _ hb)
        exact Dag.sameColumns_of_unionFault? hfault _ ha _ hb

end Groups

lemma Faults.of_executable {e : RunError} (h : p.Faults data e) (hexec : p.Executable data) :
    ∃ n ∈ p.dag.nodes, p.dag.GivesUp data n ∧ e = .disorder n.id "sort" := by
  cases h with
  | empty h => exact absurd h hexec.scans
  | standalone hg hc h => exact absurd ((hexec.groups _ hg).standalone hc) h
  | keyed hg hc h => exact absurd ((hexec.groups _ hg).keyed hc).1 h
  | keys hg hc h => exact absurd h ((hexec.groups _ hg).keyed hc).2
  | union hg hc hi hj hrel hrel' hr hs h =>
    exact absurd ((hexec.groups _ hg).union hc _ hi _ hj _ _ hrel hrel' _ _ hr hs) h
  | disorder hn h => exact ⟨_, hn, h, rfl⟩

section Runs

variable (w : p.WellFormed)

include w

lemma eq_nil_of_scans_eq_nil (h : p.scans = []) : p.groups = [] ∧ p.postOps = [] := by
  have hnil : p.dag.nodes = [] := not_not.mp fun hne => (nodes_ne_nil_iff w).mp hne h
  have hperm := dag_nodes_perm (wellFormed_iff.mp w).1
  rw [hnil, List.nil_perm, nodes, List.append_eq_nil_iff, List.append_eq_nil_iff] at hperm
  exact ⟨List.map_eq_nil_iff.mp hperm.1.2, List.map_eq_nil_iff.mp hperm.2⟩

lemma faults_of_fails {id : String} {e : RunError}
    (h : Dag.Fails RowWise.operators p.dag data id e) : p.Faults data e := by
  have hdraft := (wellFormed_iff.mp w).1
  have hfails := h
  cases h with
  | combine hn ha =>
    obtain ⟨g, hg, rfl⟩ := exists_group hdraft hn (by rw [ha]; rfl)
    obtain ⟨inputs, hf, hcombine⟩ := exists_feeds_of_gives hdraft w.sound.ids hg hfails
    exact faults_of_combine hg hf (w.nonempty g hg) hcombine
  | post hn ha hsource hinput hx =>
    obtain ⟨orderBy, ha, rfl, hlong, hnot⟩ := Dag.post_rowWise_error ha hx
    exact Faults.disorder hn
      ⟨orderBy, ha, _, hsource ▸ List.mem_cons_self, _, hinput, hlong, hnot⟩

lemma executable_of_hasValues (hne : p.scans ≠ [])
    (h : Dag.HasValues RowWise.operators p.dag data) : p.Executable data := by
  have hdraft := (wellFormed_iff.mp w).1
  refine ⟨hne, fun g hg => ?_⟩
  have hid : Group.nodeId g.id ∈ p.dag.nodeIds := by
    rw [(dag_nodeIds_perm hdraft).mem_iff, mem_nodeIds_iff]
    exact Or.inr (Or.inl ⟨g, hg, rfl⟩)
  obtain ⟨rel, hrel⟩ := h _ hid
  obtain ⟨inputs, hf, hcombine⟩ := exists_feeds_of_gives hdraft w.sound.ids hg hrel
  exact inputsFit_of_combine w.sound.ids hf hcombine

lemma faults_of_evaluate (hdata : ∀ id ∈ p.dag.scanIds, data.contains id = true) {e : RunError}
    (h : p.dag.evaluate RowWise.operators data none = .error e) : p.Faults data e := by
  by_cases hne : p.dag.nodes = []
  · rw [Dag.evaluate_of_no_nodes w.sound hne] at h
    cases h
    exact Faults.empty (not_not.mp (mt (nodes_ne_nil_iff w).mpr (not_not.mpr hne)))
  · rw [Dag.evaluate_eq w.sound hdata hne, Attempt.bind_eq_error] at h
    rcases h with h | ⟨_, _, h⟩
    · obtain ⟨id, hfirst⟩ := Dag.failsFirst_of_error w.sound hdata h
      exact faults_of_fails w hfirst.1
    · cases h

lemma executable_of_evaluate (hdata : ∀ id ∈ p.dag.scanIds, data.contains id = true)
    {out : Relations} (h : p.dag.evaluate RowWise.operators data none = .ok out) :
    p.Executable data ∧ out.keys = p.dag.terminals ∧ p.dag.terminals ≠ [] := by
  have hne : p.dag.nodes ≠ [] := by
    intro hnil
    rw [Dag.evaluate_of_no_nodes w.sound hnil] at h
    cases h
  have hinterprets : Dag.Interprets RowWise.operators p.dag data (.ok out) :=
    h ▸ Dag.evaluate_interprets w.sound hdata hne
  obtain ⟨hvalues, hkeys, -⟩ := hinterprets.of_ok w.sound
  exact ⟨executable_of_hasValues w ((nodes_ne_nil_iff w).mp hne) hvalues, hkeys,
    w.sound.terminals_ne_nil hne⟩

end Runs

theorem evaluate_progress {d : Dag} (hcompile : p.compile = .ok d)
    (hdata : ∀ id ∈ d.scanIds, data.contains id = true) :
    p.Progresses data d (d.evaluate RowWise.operators data none) := by
  obtain ⟨w, rfl⟩ := compile_eq_ok.mp hcompile
  have hfaults : ∀ e, p.dag.evaluate RowWise.operators data none = .error e → p.Faults data e :=
    fun e => faults_of_evaluate w hdata
  constructor
  · intro hsorts
    refine ⟨fun ⟨out, hout⟩ => (executable_of_evaluate w hdata hout).1, fun hexec => ?_⟩
    cases hrun : p.dag.evaluate RowWise.operators data none with
    | ok out => exact ⟨out, rfl⟩
    | error e =>
      obtain ⟨n, hn, hgives, -⟩ := (hfaults e hrun).of_executable hexec
      exact absurd hsorts (hgives.not_sortsInOrder hn)
  · exact fun out hout => (executable_of_evaluate w hdata hout).1
  · exact fun out hout => (executable_of_evaluate w hdata hout).2
  · exact hfaults
  · intro node operation input h
    cases hfaults _ h
  · intro node operation expected actual h
    cases hfaults _ h with
    | standalone hg hc => exact ⟨_, hg, by rw [hc]; decide, rfl⟩
    | keyed hg hc =>
      refine ⟨_, hg, fun hunion => ?_, rfl⟩
      rw [hunion] at hc
      cases hc
  · intro node operation h
    generalize hreason : "not a post-combine operation" = reason at h
    cases hfaults _ h with
    | union => exact Dag.unionMismatch_ne hreason.symm
  · intro id h
    cases hfaults _ h with
    | empty hnil => exact ⟨hnil, eq_nil_of_scans_eq_nil w hnil⟩

theorem evaluate_unionOfTwo_progress : unionOfTwo.compile = .ok unionOfTwo.dag ∧
    (∀ id ∈ unionOfTwo.dag.scanIds, Dag.rowsOfTwo.contains id = true) ∧
    unionOfTwo.Executable Dag.rowsOfTwo ∧
    ∃ out, unionOfTwo.dag.evaluate RowWise.operators Dag.rowsOfTwo none = .ok out ∧
      out.keys = unionOfTwo.dag.terminals := by
  have hcompile : unionOfTwo.compile = .ok unionOfTwo.dag :=
    compile_eq_ok.mpr ⟨unionOfTwo_wellFormed, rfl⟩
  have hdata : ∀ id ∈ unionOfTwo.dag.scanIds, Dag.rowsOfTwo.contains id = true := by
    intro id hid
    have hcovered : ∀ id ∈ unionOfTwo.scans.map Scan.id, Dag.rowsOfTwo.contains id = true := by
      decide
    have hdraft := (wellFormed_iff.mp unionOfTwo_wellFormed).1
    exact hcovered id ((scanIds_perm hdraft).mem_iff.mp hid)
  have hprogress := evaluate_progress hcompile hdata
  have hout : unionOfTwo.dag.evaluate RowWise.operators Dag.rowsOfTwo none = .ok (KeyMap.ofList
      [("combine_u", [Row.ofList [("n", .int 1)], Row.ofList [("n", .int 2)]])]) := by
    decide_cbv
  exact ⟨hcompile, hdata, hprogress.executable _ hout, _, hout, (hprogress.keys _ hout).1⟩

def sortOfScan : Plan where
  scans := [{ id := "a", source := "x" }]
  groups := [{ id := "g", combination := .standalone, inputs := [{ ref := "a" }] }]
  postOps := [{ id := "s", target := "g", kind := .sort, orderBy := [{ column := "v" }] }]

lemma sortOfScan_wellFormed : sortOfScan.WellFormed := by decide +kernel

def roundedCells : List Value :=
  [.int 1, .int 0, .int 9007199254740993] ++ List.replicate 7 (.float 9007199254740992) ++
    List.replicate 11 (.int 9007199254740992)

def roundedRows : Relation := roundedCells.map fun v => Row.ofList [("v", v)]

def dataOfRounded : Relations := KeyMap.ofList [("a", roundedRows)]

lemma executable_sortOfScan (data : Relations) : sortOfScan.Executable data := by
  refine ⟨List.cons_ne_nil _ _, List.forall_mem_singleton.mpr ?_⟩
  constructor
  · exact fun _ => rfl
  · intro hc
    cases hc
  · intro hc
    cases hc

lemma not_sortable_roundedRows : ¬ roundedRows.Sortable [{ column := "v" }] := by
  intro h
  have hcells : roundedRows.map (·.value "v") = roundedCells := by
    rw [roundedRows, List.map_map]
    exact List.map_id _
  have horder := h _ List.mem_cons_self
  rw [hcells] at horder
  exact Value.not_transitiveOn_rounded (horder.subset (by decide +kernel))

theorem evaluate_sortOfScan_gives_up : sortOfScan.compile = .ok sortOfScan.dag ∧
    (∀ id ∈ sortOfScan.dag.scanIds, dataOfRounded.contains id = true) ∧
    sortOfScan.Executable dataOfRounded ∧
    sortOfScan.dag.evaluate RowWise.operators dataOfRounded none =
      .error (.disorder "post_s" "sort") := by
  have w := sortOfScan_wellFormed
  have hdraft := (wellFormed_iff.mp w).1
  have hget : dataOfRounded.get? "a" = some roundedRows := rfl
  have hdata : ∀ id ∈ sortOfScan.dag.scanIds, dataOfRounded.contains id = true := by
    intro id hid
    have hid' : id ∈ ["a"] := (scanIds_perm hdraft).mem_iff.mp hid
    rw [List.mem_singleton.mp hid', KeyMap.contains_iff, KeyMap.mem_keys_iff]
    exact ⟨_, hget⟩
  have hscan : Dag.HasValue RowWise.operators sortOfScan.dag dataOfRounded "a" roundedRows :=
    hasValue_scan hdraft List.mem_cons_self hget
  have hgroup : Dag.HasValue RowWise.operators sortOfScan.dag dataOfRounded "combine_g"
      roundedRows := hasValue_standalone hdraft List.mem_cons_self rfl rfl hscan
  have hsort : RowWise.operators.sort roundedRows [{ column := "v" }] = .error .disorder :=
    RowWise.sort_eq_error_iff.mpr ⟨rfl, by decide, not_sortable_roundedRows⟩
  have hfails : Dag.Fails RowWise.operators sortOfScan.dag dataOfRounded "post_s"
      (.disorder "post_s" "sort") :=
    gives_postNode hdraft List.mem_cons_self hgroup (congrArg (Dag.ofOperator _ _) hsort)
  have hexec := executable_sortOfScan dataOfRounded
  refine ⟨compile_eq_ok.mpr ⟨w, rfl⟩, hdata, hexec, ?_⟩
  have hne : sortOfScan.dag.nodes ≠ [] := (nodes_ne_nil_iff w).mpr hexec.scans
  have hvalues : ¬ Dag.HasValues RowWise.operators sortOfScan.dag dataOfRounded := by
    intro hvalues
    have hid : "post_s" ∈ sortOfScan.dag.nodeIds :=
      (dag_nodeIds_perm hdraft).mem_iff.mpr (by decide)
    obtain ⟨rel, hrel⟩ := hvalues _ hid
    cases hrel.unique w.sound.ids hfails
  obtain ⟨id, e, he, hfirst, -⟩ := (Dag.evaluate_interprets w.sound hdata hne).fault hvalues
  obtain ⟨n, hn, ⟨orderBy, ha, -⟩, rfl⟩ := (faults_of_fails w hfirst).of_executable hexec
  obtain ⟨op, hop, rfl⟩ := exists_postOp hdraft hn (by rw [ha]; rfl)
  rw [List.mem_singleton.mp hop] at he
  exact he

end Plan

end Recombine
