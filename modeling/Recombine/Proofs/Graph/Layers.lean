import Mathlib.Data.Fintype.Card
import Mathlib.Data.Set.Finite.Basic
import Mathlib.Logic.Relation
import Mathlib.Order.WellFounded
import Recombine.Graph.Layering
import Recombine.Proofs.KeyMaps

/-! Layers of a graph, peeled off one after another: all vertices that no remaining vertex points to
are removed at once. A vertex stays without a layer exactly when it can be reached from a cycle, and
all other vertices come after the vertices that have arcs to them. -/

namespace Recombine.Graph

open Relation

def inDegree (arcs : List Arc) (vs : List String) (v : String) : Nat :=
  arcs.countP fun a => a.2 == v && vs.contains a.1

def sources (arcs : List Arc) (vs : List String) : List String :=
  vs.filter fun v => inDegree arcs vs v == 0

def without (vs gone : List String) : List String := vs.filter fun v => !gone.contains v

theorem length_without_lt {vs gone : List String} (hsub : gone ⊆ vs) (hne : gone ≠ []) :
    (without vs gone).length < vs.length := by
  obtain ⟨v, hv⟩ := List.exists_mem_of_ne_nil gone hne
  exact List.length_filter_lt_length_iff_exists.2 ⟨v, hsub hv, by simp [hv]⟩

theorem sources_subset (arcs : List Arc) (vs : List String) : sources arcs vs ⊆ vs :=
  fun _ h => (List.mem_filter.1 h).1

def peel (arcs : List Arc) (vs : List String) : Layering :=
  if sources arcs vs = [] then ⟨[], vs⟩
  else
    let rest := peel arcs (without vs (sources arcs vs))
    ⟨sources arcs vs :: rest.layers, rest.unplaced⟩
termination_by vs.length
decreasing_by exact length_without_lt (sources_subset arcs vs) ‹_›

variable {arcs : List Arc} {vs : List String}

def Leads (arcs : List Arc) (vs : List String) (u v : String) : Prop :=
  (u, v) ∈ arcs ∧ u ∈ vs ∧ v ∈ vs

lemma inDegree_eq_zero_iff {v : String} :
    inDegree arcs vs v = 0 ↔ ∀ u ∈ vs, (u, v) ∉ arcs := by
  rw [inDegree, List.countP_eq_zero]
  constructor
  · intro h u hu ha
    exact h (u, v) ha (by simpa using hu)
  · rintro h ⟨u, w⟩ ha hp
    simp only [Bool.and_eq_true, beq_iff_eq, List.contains_eq_mem, decide_eq_true_eq] at hp
    obtain ⟨rfl, hu⟩ := hp
    exact h u hu ha

lemma mem_sources_iff {v : String} : v ∈ sources arcs vs ↔ v ∈ vs ∧ ∀ u ∈ vs, (u, v) ∉ arcs := by
  rw [sources, List.mem_filter, beq_iff_eq, inDegree_eq_zero_iff]

lemma mem_without_iff {gone : List String} {v : String} :
    v ∈ without vs gone ↔ v ∈ vs ∧ v ∉ gone := by
  simp [without]

lemma mem_unplaced_of_stuck {S : String → Prop} (hsub : ∀ v, S v → v ∈ vs)
    (hstuck : ∀ v, S v → ∃ u, S u ∧ (u, v) ∈ arcs) : ∀ v, S v → v ∈ (peel arcs vs).unplaced := by
  -- None of them is removed, since each waits for another one.
  induction vs using peel.induct arcs with
  | case1 vs hnone =>
    rw [peel, if_pos hnone]
    exact hsub
  | case2 vs hsome ih =>
    rw [peel, if_neg hsome]
    refine ih fun v hv => mem_without_iff.mpr ⟨hsub v hv, fun hmem => ?_⟩
    obtain ⟨u, hu, ha⟩ := hstuck v hv
    exact (mem_sources_iff.mp hmem).2 u (hsub u hu) ha

lemma unplaced_stuck : ∀ v ∈ (peel arcs vs).unplaced,
    ∃ u ∈ (peel arcs vs).unplaced, (u, v) ∈ arcs := by
  induction vs using peel.induct arcs with
  | case1 vs hnone =>
    rw [peel, if_pos hnone]
    intro v hv
    by_contra hno
    have hmem : v ∈ sources arcs vs :=
      mem_sources_iff.mpr ⟨hv, fun u hu ha => hno ⟨u, hu, ha⟩⟩
    rw [hnone] at hmem
    cases hmem
  | case2 vs hsome ih =>
    rw [peel, if_neg hsome]
    exact ih

lemma flatten_perm : ((peel arcs vs).layers.flatten ++ (peel arcs vs).unplaced).Perm vs := by
  induction vs using peel.induct arcs with
  | case1 vs hnone =>
    rw [peel, if_pos hnone]
    exact List.Perm.refl vs
  | case2 vs hsome ih =>
    rw [peel, if_neg hsome, List.flatten_cons, List.append_assoc]
    have hsources : sources arcs vs = vs.filter fun v => (sources arcs vs).contains v := by
      refine List.filter_congr fun v hv => ?_
      rw [List.contains_eq_mem, Bool.eq_iff_iff, decide_eq_true_iff, mem_sources_iff, beq_iff_eq,
        inDegree_eq_zero_iff]
      exact (and_iff_right hv).symm
    nth_rewrite 1 [hsources]
    exact (ih.append_left _).trans (List.filter_append_perm _ vs)

lemma unplaced_subset {v : String} (hv : v ∈ (peel arcs vs).unplaced) : v ∈ vs :=
  flatten_perm.subset (List.mem_append_right _ hv)

lemma exists_cycle_of_stuck {S : String → Prop} (hsub : ∀ v, S v → v ∈ vs)
    (hstuck : ∀ v, S v → ∃ u, S u ∧ (u, v) ∈ arcs) {v : String} (hv : S v) :
    ∃ u, S u ∧ TransGen (Leads arcs vs) u u := by
  by_contra hno
  have hfinite : Finite {u // S u} := by
    apply Set.Finite.subset (List.finite_toSet vs)
    exact fun u hu => hsub u hu
  let r (a b : {u // S u}) : Prop := TransGen (Leads arcs vs) a b
  have : IsTrans _ r := ⟨fun _ _ _ hab hbc => hab.trans hbc⟩
  have : Std.Irrefl r := ⟨fun a haa => hno ⟨a, a.2, haa⟩⟩
  have hwf : WellFounded r := Finite.wellFounded_of_trans_of_irrefl r
  -- A vertex that nothing leads to from inside would not wait for any other.
  obtain ⟨m, -, hmin⟩ := hwf.has_min Set.univ ⟨⟨v, hv⟩, trivial⟩
  obtain ⟨u, hu, ha⟩ := hstuck m m.2
  exact hmin ⟨u, hu⟩ trivial (TransGen.single ⟨ha, hsub u hu, hsub m m.2⟩)

lemma reached_of_unplaced {v : String} (hv : v ∈ (peel arcs vs).unplaced) :
    ∃ c, TransGen (Leads arcs vs) c c ∧ ReflTransGen (Leads arcs vs) c v := by
  by_contra hno
  let S (u : String) : Prop := u ∈ (peel arcs vs).unplaced ∧
    ¬ ∃ c, TransGen (Leads arcs vs) c c ∧ ReflTransGen (Leads arcs vs) c u
  have hsub : ∀ u, S u → u ∈ vs := fun u hu => unplaced_subset hu.1
  have hstuck : ∀ u, S u → ∃ w, S w ∧ (w, u) ∈ arcs := by
    rintro u ⟨hu, hfree⟩
    obtain ⟨w, hw, ha⟩ := unplaced_stuck u hu
    refine ⟨w, ⟨hw, ?_⟩, ha⟩
    rintro ⟨c, hc, hcw⟩
    exact hfree ⟨c, hc, hcw.tail ⟨ha, unplaced_subset hw, unplaced_subset hu⟩⟩
  obtain ⟨u, hu, hcycle⟩ := exists_cycle_of_stuck hsub hstuck ⟨hv, hno⟩
  exact hu.2 ⟨u, hcycle, ReflTransGen.refl⟩

lemma unplaced_of_reached {v : String}
    (hv : ∃ c, TransGen (Leads arcs vs) c c ∧ ReflTransGen (Leads arcs vs) c v) :
    v ∈ (peel arcs vs).unplaced := by
  let S (u : String) : Prop :=
    ∃ c, TransGen (Leads arcs vs) c c ∧ ReflTransGen (Leads arcs vs) c u
  have hback : ∀ u, S u → ∃ w, S w ∧ Leads arcs vs w u := by
    rintro u ⟨c, hc, hcu⟩
    rcases ReflTransGen.cases_tail hcu with rfl | ⟨w, hcw, hw⟩
    · obtain ⟨w, hcw, hw⟩ := TransGen.tail'_iff.mp hc
      exact ⟨w, ⟨_, hc, hcw⟩, hw⟩
    · exact ⟨w, ⟨c, hc, hcw⟩, hw⟩
  refine mem_unplaced_of_stuck (S := S) (fun u hu => ?_) (fun u hu => ?_) v hv
  · obtain ⟨w, -, hw⟩ := hback u hu
    exact hw.2.2
  · obtain ⟨w, hw, hwu⟩ := hback u hu
    exact ⟨w, hw, hwu.1⟩

theorem mem_unplaced_iff {v : String} : v ∈ (peel arcs vs).unplaced ↔
    ∃ c, TransGen (Leads arcs vs) c c ∧ ReflTransGen (Leads arcs vs) c v :=
  ⟨reached_of_unplaced, unplaced_of_reached⟩

lemma unplaced_eq_nil_iff :
    (peel arcs vs).unplaced = [] ↔ ∀ v, ¬ TransGen (Leads arcs vs) v v := by
  rw [List.eq_nil_iff_forall_not_mem]
  constructor
  · intro h v hv
    exact h v (mem_unplaced_iff.mpr ⟨v, hv, ReflTransGen.refl⟩)
  · intro h v hv
    obtain ⟨c, hc, -⟩ := mem_unplaced_iff.mp hv
    exact h c hc

def Acyclic (arcs : List Arc) : Prop := ∀ v, ¬ TransGen (fun u w => (u, w) ∈ arcs) v v

lemma leads_eq (h : ∀ a ∈ arcs, a.1 ∈ vs ∧ a.2 ∈ vs) :
    Leads arcs vs = fun u v => (u, v) ∈ arcs := by
  funext u v
  apply propext
  exact ⟨fun ha => ha.1, fun ha => ⟨ha, h (u, v) ha⟩⟩

lemma unplaced_eq_nil_iff_acyclic (h : ∀ a ∈ arcs, a.1 ∈ vs ∧ a.2 ∈ vs) :
    (peel arcs vs).unplaced = [] ↔ Acyclic arcs := by
  rw [unplaced_eq_nil_iff, leads_eq h, Acyclic]

lemma sublist_of_mem_layers : ∀ layer ∈ (peel arcs vs).layers, layer.Sublist vs := by
  induction vs using peel.induct arcs with
  | case1 vs hnone =>
    rw [peel, if_pos hnone]
    simp
  | case2 vs hsome ih =>
    rw [peel, if_neg hsome]
    intro layer hlayer
    rcases List.mem_cons.mp hlayer with rfl | hlayer
    · exact List.filter_sublist
    · exact (ih layer hlayer).trans List.filter_sublist

lemma lt_of_arc {u v : String} (ha : (u, v) ∈ arcs) {k l : Nat} {layer layer' : List String}
    (hk : (peel arcs vs).layers[k]? = some layer) (hu : u ∈ layer)
    (hl : (peel arcs vs).layers[l]? = some layer') (hv : v ∈ layer') : k < l := by
  induction vs using peel.induct arcs generalizing k l with
  | case1 vs hnone =>
    rw [peel, if_pos hnone] at hk
    cases hk
  | case2 vs hsome ih =>
    have hmem : u ∈ vs := (sublist_of_mem_layers layer (List.mem_of_getElem? hk)).subset hu
    rw [peel, if_neg hsome] at hk hl
    cases l with
    | zero =>
      cases hl
      exact absurd ha ((mem_sources_iff.mp hv).2 u hmem)
    | succ l =>
      cases k with
      | zero => exact Nat.succ_pos l
      | succ k => exact Nat.succ_lt_succ (ih hk hl)

lemma sources_ne_nil (hplaced : (peel arcs vs).unplaced = []) (hne : vs ≠ []) :
    sources arcs vs ≠ [] := by
  intro hnone
  rw [peel, if_pos hnone] at hplaced
  exact hne hplaced

lemma head_layers (hplaced : (peel arcs vs).unplaced = []) (hne : vs ≠ []) :
    (peel arcs vs).layers[0]? = some (sources arcs vs) := by
  rw [peel, if_neg (sources_ne_nil hplaced hne)]
  rfl

def InOrder (arcs : List Arc) : List String → List String → Prop
  | _, [] => True
  | done, v :: rest => (∀ u, (u, v) ∈ arcs → u ∈ done) ∧ InOrder arcs (v :: done) rest

lemma inOrder_append {done layer rest : List String}
    (hlayer : ∀ v ∈ layer, ∀ u, (u, v) ∈ arcs → u ∈ done)
    (hrest : ∀ done', done ⊆ done' → layer ⊆ done' → InOrder arcs done' rest) :
    InOrder arcs done (layer ++ rest) := by
  induction layer generalizing done with
  | nil => exact hrest done (List.Subset.refl _) (List.nil_subset _)
  | cons v layer ih =>
    obtain ⟨hv, hlayer⟩ := List.forall_mem_cons.mp hlayer
    refine ⟨hv, ih (fun w hw u ha => List.mem_cons_of_mem v (hlayer w hw u ha)) ?_⟩
    intro done' hdone hsub
    obtain ⟨hmem, hdone⟩ := List.cons_subset.mp hdone
    exact hrest done' hdone (List.cons_subset.mpr ⟨hmem, hsub⟩)

lemma layers_inOrder {done : List String}
    (h : ∀ v ∈ vs, ∀ u, (u, v) ∈ arcs → u ∈ vs ∨ u ∈ done) :
    InOrder arcs done (peel arcs vs).layers.flatten := by
  induction vs using peel.induct arcs generalizing done with
  | case1 vs hnone =>
    rw [peel, if_pos hnone]
    trivial
  | case2 vs hsome ih =>
    rw [peel, if_neg hsome, List.flatten_cons]
    apply inOrder_append
    · intro v hv u ha
      obtain ⟨hmem, hfree⟩ := mem_sources_iff.mp hv
      exact (h v hmem u ha).resolve_left fun hu => hfree u hu ha
    · intro done' hdone hlayer
      refine ih fun v hv u ha => ?_
      rcases h v (mem_without_iff.mp hv).1 u ha with hu | hu
      · by_cases hsource : u ∈ sources arcs vs
        · exact Or.inr (hlayer hsource)
        · exact Or.inl (mem_without_iff.mpr ⟨hu, hsource⟩)
      · exact Or.inr (hdone hu)

lemma InOrder.of_append {done before after : List String}
    (h : InOrder arcs done (before ++ after)) : InOrder arcs done before := by
  induction before generalizing done with
  | nil => trivial
  | cons v before ih => exact ⟨h.1, ih h.2⟩

lemma InOrder.mem_of_arc {done before after : List String} {u v : String}
    (h : InOrder arcs done (before ++ v :: after)) (ha : (u, v) ∈ arcs) :
    u ∈ done ∨ u ∈ before := by
  induction before generalizing done with
  | nil => exact Or.inl (h.1 u ha)
  | cons w before ih =>
    rcases ih h.2 with hu | hu
    · rcases List.mem_cons.mp hu with rfl | hu
      · exact Or.inr List.mem_cons_self
      · exact Or.inl hu
    · exact Or.inr (List.mem_cons_of_mem w hu)

end Recombine.Graph
