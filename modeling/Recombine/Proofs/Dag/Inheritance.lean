import Mathlib.Data.String.Basic
import Recombine.Proofs.Dag.Structure
import Recombine.Proofs.Graph.Paths

/-! Schemas of combine nodes. The walk along first operands always ends, and in a compiled plan it
ends at the scan or operation that the chain of first operands leads to. -/

namespace Recombine

open Attempt Relation

/-- A walk along first operands: where it is, and the nodes that it has left behind. -/
structure SchemaWalk where
  node : String
  seen : List String

namespace SchemaWalk

def turn (schemas : KeyMap Schema) (links : KeyMap String) (w : SchemaWalk) : Schema ⊕ SchemaWalk :=
  match schemas.get? w.node with
  | some schema => .inl schema
  | none =>
    if w.node ∈ w.seen then .inl []
    else match links.get? w.node with
      | some next => .inr ⟨next, w.node :: w.seen⟩
      | none => .inl []

def run (schemas : KeyMap Schema) (links : KeyMap String) : Nat → SchemaWalk → Option Schema
  | 0, _ => none
  | turns + 1, w => (w.turn schemas links).elim some (run schemas links turns)

variable {schemas : KeyMap Schema} {links all : KeyMap String} {id : String} {seen : List String}

lemma erase_eq_filter (h : links = all.filter fun k _ => k ∉ seen) :
    links.erase id = all.filter fun k _ => k ∉ id :: seen := by
  apply KeyMap.ext_get?
  intro k
  apply Option.ext
  intro next
  rw [KeyMap.get?_erase, h]
  by_cases hk : k = id <;> simp [KeyMap.get?_filter_eq_some_iff, hk]

lemma exists_run (h : links = all.filter fun k _ => k ∉ seen) : ∃ turns ≤ links.size + 1,
    run schemas all turns ⟨id, seen⟩ = some (inheritedSchema schemas links id) := by
  induction links, id using inheritedSchema.induct schemas generalizing seen with
  | case1 links id schema hschema =>
    refine ⟨1, by omega, ?_⟩
    rw [run, turn, hschema, inheritedSchema_of_declared hschema]
    rfl
  | case2 links id hnone next hnext ih =>
    obtain ⟨turns, hle, hrun⟩ := ih (erase_eq_filter h)
    have hsize := KeyMap.size_erase_lt hnext
    have hlink : all.get? id = some next ∧ id ∉ seen := by
      rw [h, KeyMap.get?_filter_eq_some_iff] at hnext
      simpa using hnext
    refine ⟨turns + 1, by omega, ?_⟩
    rw [run, turn, hnone, inheritedSchema_of_link hnone hnext, ← hrun]
    simp [hlink]
  | case3 links id hnone hend =>
    refine ⟨1, by omega, ?_⟩
    rw [run, turn, hnone, inheritedSchema_of_end hnone hend]
    by_cases hseen : id ∈ seen
    · simp [hseen]
    · have hall : all.get? id = none := by
        rw [Option.eq_none_iff_forall_ne_some] at hend ⊢
        intro next hnext
        apply hend next
        rw [h, KeyMap.get?_filter_eq_some_iff]
        simp [hnext, hseen]
      simp [hseen, hall]

lemma run_start (schemas : KeyMap Schema) (links : KeyMap String) (id : String) :
    ∃ turns ≤ links.size + 1,
      run schemas links turns ⟨id, []⟩ = some (inheritedSchema schemas links id) := by
  apply exists_run
  apply KeyMap.ext_get?
  intro k
  apply Option.ext
  simp [KeyMap.get?_filter_eq_some_iff]

end SchemaWalk

lemma size_firstOperands_le (rs : List Resolved) :
    (Resolved.firstOperands rs).size ≤ rs.length := by
  have hsize := KeyMap.size_insertAll_le (∅ : KeyMap String)
    (rs.filterMap fun r => r.operands.head?.map fun first => (r.nodeId, first))
  have hlength := List.length_filterMap_le
    (fun r : Resolved => r.operands.head?.map fun first => (r.nodeId, first)) rs
  rw [← KeyMap.ofList_eq] at hsize
  refine hsize.trans (le_of_eq_of_le ?_ hlength)
  exact Nat.zero_add _

section Chains

variable {schemas : KeyMap Schema} {links : KeyMap String} {v w : String}

def Follows (links : KeyMap String) (v w : String) : Prop := links.get? v = some w

lemma follows_erase {u : String} (h : Follows (links.erase u) v w) : Follows links v w := by
  rw [Follows, KeyMap.get?_erase] at h
  split at h
  next => cases h
  next => exact h

lemma inheritedSchema_erase {u : String} (h : ¬ ReflTransGen (Follows links) v u) :
    inheritedSchema schemas (links.erase u) v = inheritedSchema schemas links v := by
  induction links, v using inheritedSchema.induct schemas with
  | case1 links v schema hschema =>
    rw [inheritedSchema_of_declared hschema, inheritedSchema_of_declared hschema]
  | case2 links v hnone next hnext ih =>
    have hne : v ≠ u := by
      rintro rfl
      exact h ReflTransGen.refl
    have hnext' : (links.erase u).get? v = some next := by
      rw [KeyMap.get?_erase, if_neg hne, hnext]
    rw [inheritedSchema_of_link hnone hnext, inheritedSchema_of_link hnone hnext',
      KeyMap.erase_comm]
    apply ih
    intro hreach
    have hrest : ReflTransGen (Follows links) next u :=
      ReflTransGen.mono (fun _ _ => follows_erase) _ _ hreach
    exact h (ReflTransGen.head hnext hrest)
  | case3 links v hnone hend =>
    have hend' : (links.erase u).get? v = none := by
      rw [KeyMap.get?_erase, hend, ite_self]
    rw [inheritedSchema_of_end hnone hend, inheritedSchema_of_end hnone hend']

end Chains

structure Dag.TakesFirst (d : Dag) (n m : Node) : Prop where
  mem : m ∈ d.nodes
  input : n.inputs.head? = some m.id
  edge : ∃ e ∈ d.inbound n.id, e.source = m.id ∧ ∀ f ∈ d.inbound n.id, e.OperandNotAfter f

namespace Plan

variable {p : Plan} {n m : Node}

structure Inherits (p : Plan) (d : Dag) (n : Node) : Prop where
  operand : ∃ m, d.TakesFirst n m
  schema : ∀ m, d.TakesFirst n m → n.schema = m.schema
  chain : ∃ m, TransGen d.TakesFirst n m ∧ p.Declares m.id n.schema

lemma get?_schemas_groupNode (h : p.nodeIds.Nodup) {g : Group} (hg : g ∈ p.groups) :
    p.schemas.get? (Group.nodeId g.id) = none := by
  rw [Option.eq_none_iff_forall_ne_some]
  intro schema hschema
  rcases (get?_schemas_iff h).mp hschema with ⟨s, hs, hid, -⟩ | ⟨op, -, hid, -⟩
  · exact scanId_ne_groupNodeId h hs hg hid
  · exact groupNodeId_ne_postNodeId g.id op.id hid.symm

lemma get?_links_iff (h : p.nodeIds.Nodup) {v first : String} : p.links.get? v = some first ↔
    ∃ g ∈ p.groups, Group.nodeId g.id = v ∧ (p.resolve g).operands.head? = some first := by
  change (KeyMap.ofList ((p.groups.map p.resolve).filterMap Rearranged.link)).get? v = _ ↔ _
  rw [KeyMap.get?_ofList_eq_some_iff (Rearranged.links_keys_nodup h)]
  simp only [List.mem_filterMap, List.mem_map, Rearranged.link, Option.map_eq_some_iff]
  constructor
  · rintro ⟨_, ⟨g, hg, rfl⟩, first', hfirst, heq⟩
    obtain ⟨rfl, rfl⟩ := Prod.mk.inj heq
    exact ⟨g, hg, rfl, hfirst⟩
  · rintro ⟨g, hg, rfl, hfirst⟩
    exact ⟨_, ⟨g, hg, rfl⟩, first, hfirst, rfl⟩

lemma arc_of_follows (h : p.nodeIds.Nodup) {v w : String} (hlink : Follows p.links v w) :
    (w, v) ∈ p.edges.map Edge.arc := by
  obtain ⟨g, hg, rfl, hfirst⟩ := (get?_links_iff h).mp hlink
  obtain ⟨e, he, rfl⟩ := Dag.mem_operands_iff.mp (List.mem_of_mem_head? hfirst)
  obtain ⟨i, hi, rfl⟩ := List.mem_map.mp he
  exact List.mem_map.mpr ⟨_, mem_edges_iff.mpr (Or.inl ⟨g, hg, i, hi, rfl⟩), rfl⟩

lemma not_follows_back (w : p.WellFormed) {v next : String} (h : Follows p.links v next) :
    ¬ ReflTransGen (Follows p.links) next v := by
  intro hback
  apply w.acyclic v
  have hcycle : TransGen (Follows p.links) v v := TransGen.head' h hback
  rw [← transGen_swap]
  exact TransGen.mono (fun _ _ => arc_of_follows w.ids) _ _ hcycle

lemma schema_of_mem (h : p.Drafted) (hn : n ∈ p.dag.nodes) :
    n.schema = inheritedSchema p.schemas p.links n.id := by
  rcases (mem_dag_nodes_iff h).mp hn with ⟨s, hs, rfl⟩ | ⟨g, hg, rfl⟩ | ⟨op, hop, rfl⟩
  · apply Eq.symm
    apply inheritedSchema_of_declared
    exact (get?_schemas_iff h.ids).mpr (Or.inl ⟨s, hs, rfl, rfl⟩)
  · rfl
  · apply Eq.symm
    apply inheritedSchema_of_declared
    exact (get?_schemas_iff h.ids).mpr (Or.inr ⟨op, hop, rfl, rfl⟩)

lemma declares_of_not_combine (h : p.Drafted) (hn : n ∈ p.dag.nodes)
    (ha : n.action.isCombine = false) : p.Declares n.id n.schema := by
  rcases (mem_dag_nodes_iff h).mp hn with ⟨s, hs, rfl⟩ | ⟨g, -, rfl⟩ | ⟨op, hop, rfl⟩
  · exact Or.inl ⟨s, hs, rfl, rfl⟩
  · cases ha
  · exact Or.inr ⟨op, hop, rfl, rfl⟩

lemma follows_of_takesFirst (h : p.Drafted) (hn : n ∈ p.dag.nodes)
    (ha : n.action.isCombine = true) (hm : p.dag.TakesFirst n m) : Follows p.links n.id m.id := by
  obtain ⟨g, hg, rfl⟩ := exists_group h hn ha
  exact (get?_links_iff h.ids).mpr ⟨g, hg, rfl, hm.input⟩

lemma schema_of_takesFirst (w : p.WellFormed) (hn : n ∈ p.dag.nodes)
    (ha : n.action.isCombine = true) (hm : p.dag.TakesFirst n m) : n.schema = m.schema := by
  have hdraft := (wellFormed_iff.mp w).1
  have hfollows := follows_of_takesFirst hdraft hn ha hm
  have hnone : p.schemas.get? n.id = none := by
    obtain ⟨g, hg, rfl⟩ := exists_group hdraft hn ha
    exact get?_schemas_groupNode w.ids hg
  calc n.schema = inheritedSchema p.schemas p.links n.id := schema_of_mem hdraft hn
    _ = inheritedSchema p.schemas (p.links.erase n.id) m.id :=
      inheritedSchema_of_link hnone hfollows
    _ = inheritedSchema p.schemas p.links m.id :=
      inheritedSchema_erase (not_follows_back w hfollows)
    _ = m.schema := (schema_of_mem hdraft hm.mem).symm

lemma exists_takesFirst (w : p.WellFormed) (hn : n ∈ p.dag.nodes)
    (ha : n.action.isCombine = true) : ∃ m, p.dag.TakesFirst n m := by
  obtain ⟨hne, hinputs⟩ := inbound_of_combine (wellFormed_iff.mp w).1 hn ha
  have hperm := List.mergeSort_perm (p.dag.inbound n.id) Edge.isOperandBefore
  have hsorted := pairwise_operandNotAfter (p.dag.inbound n.id)
  rw [Edge.operands] at hinputs
  cases hes : (p.dag.inbound n.id).mergeSort Edge.isOperandBefore with
  | nil =>
    rw [hes, List.nil_perm] at hperm
    exact absurd hperm hne
  | cons e es =>
    rw [hes] at hperm hsorted hinputs
    have he : e ∈ p.dag.inbound n.id := hperm.mem_iff.mp List.mem_cons_self
    obtain ⟨m, hm, hid⟩ := List.mem_map.mp (w.sound.ends e (List.mem_of_mem_filter he)).1
    refine ⟨m, hm, by rw [hinputs, hid]; rfl, e, he, hid.symm, fun f hf => ?_⟩
    rcases List.mem_cons.mp (hperm.mem_iff.mpr hf) with rfl | hf
    · exact Or.inr ⟨rfl, le_rfl⟩
    · exact (List.pairwise_cons.mp hsorted).1 f hf

lemma exists_layer (w : p.WellFormed) (hn : n ∈ p.dag.nodes) :
    ∃ k, p.dag.layering.Puts k n.id := by
  rw [Graph.puts_iff_mem_flatten]
  exact w.sound.layers_isOrder.perm.mem_iff.mpr (List.mem_map_of_mem hn)

lemma exists_declared (w : p.WellFormed) (hn : n ∈ p.dag.nodes)
    (ha : n.action.isCombine = true) {k : ℕ} (hk : p.dag.layering.Puts k n.id) :
    ∃ m, TransGen p.dag.TakesFirst n m ∧ p.Declares m.id n.schema := by
  -- Each step along the chain leads to a lower layer, so it comes to an end.
  induction k using Nat.strong_induction_on generalizing n with
  | _ k ih =>
    obtain ⟨m, hm⟩ := exists_takesFirst w hn ha
    rw [schema_of_takesFirst w hn ha hm]
    cases hcombine : m.action.isCombine with
    | false =>
      have hdeclares := declares_of_not_combine (wellFormed_iff.mp w).1 hm.mem hcombine
      exact ⟨m, TransGen.single hm, hdeclares⟩
    | true =>
      obtain ⟨l, lower, hlower, hmem⟩ := exists_layer w hm.mem
      obtain ⟨upper, hupper, hmem'⟩ := hk
      obtain ⟨e, he, hsource, -⟩ := hm.edge
      obtain ⟨he, htarget⟩ := List.mem_filter.mp he
      rw [← hsource] at hmem
      rw [← beq_iff_eq.mp htarget] at hmem'
      have hlt := w.sound.upward he hlower hmem hupper hmem'
      obtain ⟨end', hchain, hdeclares⟩ := ih l hlt hm.mem hcombine ⟨lower, hlower, hsource ▸ hmem⟩
      exact ⟨end', TransGen.head hm hchain, hdeclares⟩

lemma inherits_of_combine (w : p.WellFormed) (hn : n ∈ p.dag.nodes)
    (ha : n.action.isCombine = true) : p.Inherits p.dag n := by
  obtain ⟨k, hk⟩ := exists_layer w hn
  exact ⟨exists_takesFirst w hn ha, fun m hm => schema_of_takesFirst w hn ha hm,
    exists_declared w hn ha hk⟩

theorem compile_inherits (p : Plan) :
    (∀ rs, p.groups.mapM (Resolved.ofGroup p) = .ok rs → ∀ r ∈ rs,
      ∃ turns ≤ p.groups.length + 1,
        SchemaWalk.run p.schemas (Resolved.firstOperands rs) turns ⟨r.nodeId, []⟩ =
          some (inheritedSchema p.schemas (Resolved.firstOperands rs) r.nodeId)) ∧
    ∀ d, p.compile = .ok d → (∀ q, p.Rearranged q → q.compile = .ok d) ∧
      ∀ n ∈ d.nodes, n.action.isCombine = true → p.Inherits d n := by
  refine ⟨fun rs hrs r _ => ?_, fun d hcompile => ?_⟩
  · obtain ⟨turns, hle, hrun⟩ := SchemaWalk.run_start p.schemas (Resolved.firstOperands rs) r.nodeId
    have hsize := size_firstOperands_le rs
    obtain ⟨-, rfl⟩ := (mapM_eq_ok_map fun g r => ofGroup_eq_ok).mp hrs
    rw [List.length_map] at hsize
    exact ⟨turns, by omega, hrun⟩
  · obtain ⟨w, rfl⟩ := compile_eq_ok.mp hcompile
    refine ⟨fun q r => ?_, fun n hn ha => inherits_of_combine w hn ha⟩
    exact compile_eq_ok.mpr ⟨r.wellFormed w, r.dag_eq w⟩

def mutualGroups : Plan where
  scans := []
  groups := [
    { id := "g", combination := .standalone, inputs := [{ ref := "h" }] },
    { id := "h", combination := .standalone, inputs := [{ ref := "g" }] }]

def nestedGroups : Plan where
  scans := [{ id := "a", source := "x", schema := [{ name := "n" }] }, { id := "b", source := "y" }]
  groups := [
    { id := "g", combination := .union, inputs := [{ ref := "h" }, { ref := "l" }] },
    { id := "h", combination := .union, inputs := [{ ref := "b" }, { ref := "a" }] }]
  postOps := [{ id := "l", target := "h", kind := .limit, limit := some 1 }]

lemma nestedGroups_wellFormed : nestedGroups.WellFormed := by decide +kernel

theorem compile_nestedGroups_inherits :
    (∃ rs, mutualGroups.groups.mapM (Resolved.ofGroup mutualGroups) = .ok rs ∧ ∀ r ∈ rs,
      ∃ turns ≤ 3, ∃ schema,
        SchemaWalk.run mutualGroups.schemas (Resolved.firstOperands rs) turns ⟨r.nodeId, []⟩ =
          some schema) ∧
    nestedGroups.compile = .ok nestedGroups.dag ∧
      ∀ n ∈ nestedGroups.dag.nodes, n.action.isCombine = true →
        nestedGroups.Inherits nestedGroups.dag n := by
  have hresolved : mutualGroups.groups.mapM (Resolved.ofGroup mutualGroups) =
      .ok (mutualGroups.groups.map mutualGroups.resolve) := rfl
  have hcompile : nestedGroups.compile = .ok nestedGroups.dag :=
    compile_eq_ok.mpr ⟨nestedGroups_wellFormed, rfl⟩
  refine ⟨⟨_, hresolved, fun r hr => ?_⟩, hcompile, ((compile_inherits _).2 _ hcompile).2⟩
  obtain ⟨turns, hle, hrun⟩ := (compile_inherits mutualGroups).1 _ hresolved r hr
  exact ⟨turns, hle, _, hrun⟩

end Plan

end Recombine
