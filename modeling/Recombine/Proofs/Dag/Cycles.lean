import Mathlib.Data.String.Basic
import Mathlib.Order.Bounds.Basic
import Recombine.Proofs.Dag.WellFormed
import Recombine.Proofs.Graph.Paths

/-! The node that a cycle is reported at. It is the least node that a cycle leads to, so it may come
after a cycle without being on one. -/

namespace Recombine

open Attempt Relation

namespace Graph

variable {arcs : List Arc} {vs : List String} {v : String}

def OnCycle (arcs : List Arc) (v : String) : Prop := TransGen (fun u w => (u, w) ∈ arcs) v v

def Behind (arcs : List Arc) (v : String) : Prop :=
  ∃ c, OnCycle arcs c ∧ ReflTransGen (fun u w => (u, w) ∈ arcs) c v

lemma OnCycle.behind (h : OnCycle arcs v) : Behind arcs v := ⟨v, h, ReflTransGen.refl⟩

lemma Behind.exists_arc (h : Behind arcs v) : ∃ u, (u, v) ∈ arcs := by
  obtain ⟨c, hc, hcv⟩ := h
  rcases ReflTransGen.cases_tail hcv with rfl | ⟨u, -, hu⟩
  · obtain ⟨u, -, hu⟩ := TransGen.tail'_iff.mp hc
    exact ⟨u, hu⟩
  · exact ⟨u, hu⟩

lemma behind_congr {arcs' : List Arc} (h : arcs.Perm arcs') : Behind arcs = Behind arcs' := by
  have hmem (u w : String) : ((u, w) ∈ arcs) = ((u, w) ∈ arcs') := propext h.mem_iff
  funext v
  simp only [Behind, OnCycle, hmem]

lemma head?_eq_some_iff_isLeast {vs : List String} (h : vs.Pairwise (· < ·)) :
    vs.head? = some v ↔ IsLeast {w | w ∈ vs} v := by
  constructor
  · intro hhead
    obtain ⟨rest, rfl⟩ := List.head?_eq_some_iff.mp hhead
    refine ⟨List.mem_cons_self, fun w hw => ?_⟩
    rcases List.mem_cons.mp hw with rfl | hw
    · exact le_refl w
    · exact le_of_lt ((List.pairwise_cons.mp h).1 w hw)
  · rintro ⟨hmem, hle⟩
    cases vs with
    | nil => cases hmem
    | cons w rest =>
      rcases List.mem_cons.mp hmem with rfl | hmem
      · rfl
      · exact absurd (hle List.mem_cons_self) (not_le.mpr ((List.pairwise_cons.mp h).1 v hmem))

lemma head?_unplaced_iff (h : ∀ a ∈ arcs, a.1 ∈ vs ∧ a.2 ∈ vs) :
    (layering vs arcs).unplaced.head? = some v ↔ IsLeast {w | Behind arcs w} v := by
  have hexact := exact_layering vs arcs
  rw [head?_eq_some_iff_isLeast hexact.unplaced_ascending]
  simp only [hexact.unplaced_iff, leads_eq h]
  rfl

lemma onCycle_iff_of_isLeast (h : IsLeast {w | Behind arcs w} v) :
    OnCycle arcs v ↔ ∀ w, Behind arcs w → ¬ OnCycle arcs w → ∃ c, OnCycle arcs c ∧ c < w := by
  -- The least vertex behind a cycle need not be on one itself.
  constructor
  · intro hv w hw hoff
    refine ⟨v, hv, lt_of_le_of_ne (h.2 hw) ?_⟩
    rintro rfl
    exact hoff hv
  · intro hall
    by_contra hoff
    obtain ⟨c, hc, hlt⟩ := hall v h.1 hoff
    exact absurd (h.2 hc.behind) (not_le.mpr hlt)

end Graph

namespace Dag

variable {d : Dag} {n : String}

lemma checkAcyclic_eq_error :
    d.checkAcyclic = .error (.cycle n) ↔ d.layering.unplaced.head? = some n := by
  rw [checkAcyclic]
  cases d.layering.unplaced <;> simp

lemma checkNode_ne_cycle (m : Node) : d.checkNode m ≠ .error (.cycle n) := by
  rw [checkNode]
  split
  · simp
  · split <;> simp

lemma check_eq_cycle (hedges : ∀ e ∈ d.edges, d.checkEdge e = .ok ()) :
    d.check = .error (.cycle n) ↔
      (∀ m ∈ d.nodes, d.checkNode m = .ok ()) ∧ d.layering.unplaced.head? = some n := by
  rw [check, bind_eq_error]
  constructor
  · rintro (he | ⟨⟨⟩, -, he⟩)
    · obtain ⟨e, hmem, he⟩ := forM_eq_error he
      cases (hedges e hmem).symm.trans he
    · rcases bind_eq_error.mp he with he | ⟨⟨⟩, hnodes, he⟩
      · obtain ⟨m, -, he⟩ := forM_eq_error he
        exact absurd he (checkNode_ne_cycle m)
      · exact ⟨forM_eq_ok.mp hnodes, checkAcyclic_eq_error.mp he⟩
  · rintro ⟨hnodes, hhead⟩
    refine Or.inr ⟨(), forM_eq_ok.mpr hedges, bind_eq_error.mpr (Or.inr ⟨(), ?_, ?_⟩)⟩
    · exact forM_eq_ok.mpr hnodes
    · exact checkAcyclic_eq_error.mpr hhead

end Dag

namespace Plan

variable {p : Plan} {n : String}

def arcs (p : Plan) : List Graph.Arc := p.edges.map Edge.arc

lemma head?_unplaced_dag (h : p.Drafted) :
    p.dag.layering.unplaced.head? = some n ↔ IsLeast {v | Graph.Behind p.arcs v} n := by
  have hends : ∀ a ∈ p.dag.edges.map Edge.arc, a.1 ∈ p.dag.nodeIds ∧ a.2 ∈ p.dag.nodeIds := by
    intro a ha
    obtain ⟨e, he, rfl⟩ := List.mem_map.mp ha
    exact Dag.checkEdge_eq_ok.mp (checkEdge_dag h e he)
  rw [Dag.layering, Graph.head?_unplaced_iff hends,
    Graph.behind_congr ((dag_edges_perm h).map Edge.arc)]
  rfl

lemma compile_eq_cycle : p.compile = .error (.cycle n) ↔ p.Drafted ∧
    ((∀ s ∈ p.scans, s.schema.names.Nodup) ∧ ∀ op ∈ p.postOps, op.schema.names.Nodup) ∧
      IsLeast {v | Graph.Behind p.arcs v} n := by
  rw [compile_eq, bind_eq_error]
  constructor
  · rintro (he | ⟨d, hd, he⟩)
    · cases raises_draft p _ he
    · obtain ⟨hdraft, rfl⟩ := draft_eq_ok.mp hd
      rcases bind_eq_error.mp he with he | ⟨-, -, he⟩
      · obtain ⟨hnodes, hhead⟩ := (Dag.check_eq_cycle (checkEdge_dag hdraft)).mp he
        exact ⟨hdraft, (checkNode_dag_iff hdraft).mp hnodes, (head?_unplaced_dag hdraft).mp hhead⟩
      · cases he
  · rintro ⟨hdraft, hcolumns, hleast⟩
    refine Or.inr ⟨_, draft_eq_ok.mpr ⟨hdraft, rfl⟩, bind_eq_error.mpr (Or.inl ?_)⟩
    refine (Dag.check_eq_cycle (checkEdge_dag hdraft)).mpr ⟨?_, ?_⟩
    · exact (checkNode_dag_iff hdraft).mpr hcolumns
    · exact (head?_unplaced_dag hdraft).mpr hleast

theorem compile_cycle_iff (p : Plan) (n : String) :
    (p.compile = .error (.cycle n) ↔ p.Drafted ∧
      ((∀ s ∈ p.scans, s.schema.names.Nodup) ∧ ∀ op ∈ p.postOps, op.schema.names.Nodup) ∧
        IsLeast {v | Graph.Behind p.arcs v} n) ∧
    (p.compile = .error (.cycle n) ∧ Graph.OnCycle p.arcs n ↔
      p.compile = .error (.cycle n) ∧ ∀ v, Graph.Behind p.arcs v → ¬ Graph.OnCycle p.arcs v →
        ∃ c, Graph.OnCycle p.arcs c ∧ c < v) := by
  refine ⟨compile_eq_cycle, and_congr_right fun h => ?_⟩
  exact Graph.onCycle_iff_of_isLeast (compile_eq_cycle.mp h).2.2

def behindCycle : Plan where
  scans := [{ id := "s", source := "x" }]
  groups := [
    { id := "a", combination := .standalone, inputs := [{ ref := "z" }] },
    { id := "z", combination := .union, inputs := [{ ref := "s" }, { ref := "z" }] }]

lemma drafted_behindCycle : behindCycle.Drafted where
  resolves := by
    have hnonempty : ∀ g ∈ behindCycle.groups, g.inputs ≠ [] := by decide
    have hknown : ∀ g ∈ behindCycle.groups, ∀ i ∈ g.inputs, i.ref ∈ behindCycle.nodeIds ∨
        i.ref ∈ behindCycle.groups.map Group.id ∨ i.ref ∈ behindCycle.postOps.map PostOp.id := by
      decide
    have hkeyed : ∀ g ∈ behindCycle.groups, g.combination.isKeyed = false := by decide
    intro g hg
    refine ⟨hnonempty g hg, fun i hi => inputNode?_isSome_iff.mpr (hknown g hg i hi), fun h => ?_⟩
    cases (hkeyed g hg).symm.trans h
  targets := List.forall_mem_nil _
  ids := by decide
  edgeIds := by decide

theorem compile_behindCycle : behindCycle.compile = .error (.cycle "combine_a") ∧
    ¬ Graph.OnCycle behindCycle.arcs "combine_a" := by
  constructor
  · refine compile_eq_cycle.mpr ⟨drafted_behindCycle, by decide, ?_, ?_⟩
    · refine ⟨"combine_z", TransGen.single ?_, ReflTransGen.single ?_⟩
      · decide
      · decide
    · intro v hv
      obtain ⟨u, harc⟩ := Graph.Behind.exists_arc hv
      have hleast : ∀ a ∈ behindCycle.arcs, ¬ a.2 < "combine_a" := by decide
      exact not_lt.mp (hleast (u, v) harc)
  · intro h
    obtain ⟨v, harc, -⟩ := TransGen.head'_iff.mp h
    have hnone : ∀ a ∈ behindCycle.arcs, a.1 ≠ "combine_a" := by decide
    exact hnone ("combine_a", v) harc rfl

end Plan

end Recombine
