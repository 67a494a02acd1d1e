import Recombine.Dag.Compile
import Recombine.Proofs.Attempts
import Recombine.Proofs.KeyMaps

namespace Recombine.Draft

def extend (d : Draft) (ns : List Node) (es : List Edge) : Draft where
  nodes := d.nodes.insertAll (ns.map fun n => (n.id, n))
  edges := d.edges.insertAll (es.map fun e => (e.id, e))

structure Extends (d : Draft) (ns : List Node) (es : List Edge) (d' : Draft) : Prop where
  nodes : d.nodes.Fresh (ns.map Node.id)
  edges : d.edges.Fresh (es.map Edge.id)
  result : d' = d.extend ns es

variable {α : Type} {d d' : Draft} {ns ms : List Node} {es fs : List Edge}

lemma extends_nil_iff : Extends d [] [] d' ↔ d' = d := by
  constructor
  · intro h
    exact h.result
  · rintro rfl
    exact ⟨KeyMap.fresh_nil _, KeyMap.fresh_nil _, rfl⟩

lemma extend_append : d.extend (ns ++ ms) (es ++ fs) = (d.extend ns es).extend ms fs := by
  simp only [extend, List.map_append, KeyMap.insertAll_append]

lemma fresh_map_append_iff {f : α → String} {m : KeyMap α} {as bs : List α} :
    m.Fresh ((as ++ bs).map f) ↔
      m.Fresh (as.map f) ∧ (m.insertAll (as.map fun a => (f a, a))).Fresh (bs.map f) := by
  have hkeys : (as.map fun a => (f a, a)).map Prod.fst = as.map f := by
    rw [List.map_map]
    rfl
  rw [List.map_append, ← hkeys, KeyMap.fresh_append_iff]

lemma extends_append_iff : Extends d (ns ++ ms) (es ++ fs) d' ↔
    ∃ c, Extends d ns es c ∧ Extends c ms fs d' := by
  constructor
  · rintro ⟨hnodes, hedges, hresult⟩
    obtain ⟨hns, hms⟩ := fresh_map_append_iff.mp hnodes
    obtain ⟨hes, hfs⟩ := fresh_map_append_iff.mp hedges
    exact ⟨d.extend ns es, ⟨hns, hes, rfl⟩, hms, hfs, hresult.trans extend_append⟩
  · rintro ⟨c, ⟨hns, hes, rfl⟩, hms, hfs, hresult⟩
    refine ⟨fresh_map_append_iff.mpr ⟨hns, hms⟩, fresh_map_append_iff.mpr ⟨hes, hfs⟩, ?_⟩
    exact hresult.trans extend_append.symm

lemma extends_node_iff {n : Node} :
    Extends d [n] es d' ↔ ∃ c, Extends d [n] [] c ∧ Extends c [] es d' := by
  rw [← extends_append_iff, List.append_nil, List.nil_append]

lemma fresh_singleton_iff {m : KeyMap α} {k : String} : m.Fresh [k] ↔ m.contains k = false := by
  rw [← Bool.not_eq_true, KeyMap.contains_iff]
  constructor
  · intro h
    exact h.2 k List.mem_cons_self
  · intro h
    refine ⟨List.nodup_singleton k, fun k' hk => ?_⟩
    rwa [List.mem_singleton.mp hk]

lemma addNode_eq_ok {n : Node} : d.addNode n = .ok d' ↔ Extends d [n] [] d' := by
  rw [addNode]
  constructor
  · intro h
    split at h
    next => cases h
    next hnew =>
      cases h
      exact ⟨fresh_singleton_iff.mpr (Bool.not_eq_true _ ▸ hnew), KeyMap.fresh_nil _, rfl⟩
  · rintro ⟨hnew, -, rfl⟩
    rw [fresh_singleton_iff.mp hnew]
    rfl

lemma addEdge_eq_ok {e : Edge} : d.addEdge e = .ok d' ↔ Extends d [] [e] d' := by
  rw [addEdge]
  constructor
  · intro h
    split at h
    next => cases h
    next hnew =>
      cases h
      exact ⟨KeyMap.fresh_nil _, fresh_singleton_iff.mpr (Bool.not_eq_true _ ▸ hnew), rfl⟩
  · rintro ⟨-, hnew, rfl⟩
    rw [fresh_singleton_iff.mp hnew]
    rfl

lemma foldlM_eq_ok {f : Draft → α → Except PlanError Draft} {P : α → Prop}
    {nodes : α → List Node} {edges : α → List Edge}
    (h : ∀ d a d', f d a = .ok d' ↔ P a ∧ Extends d (nodes a) (edges a) d') {as : List α} :
    as.foldlM f d = .ok d' ↔
      (∀ a ∈ as, P a) ∧ Extends d (as.flatMap nodes) (as.flatMap edges) d' := by
  induction as generalizing d with
  | nil =>
    rw [List.foldlM_nil, Attempt.pure_eq_ok, List.flatMap_nil, List.flatMap_nil, extends_nil_iff,
      eq_comm]
    exact (and_iff_right (List.forall_mem_nil _)).symm
  | cons a as ih =>
    simp only [List.foldlM_cons, Attempt.bind_eq_ok, h, ih, List.flatMap_cons, extends_append_iff,
      List.forall_mem_cons]
    constructor
    · rintro ⟨c, ⟨ha, hc⟩, has, hd'⟩
      exact ⟨⟨ha, has⟩, c, hc, hd'⟩
    · rintro ⟨⟨ha, has⟩, c, hc, hd'⟩
      exact ⟨c, ⟨ha, hc⟩, has, hd'⟩

end Recombine.Draft
