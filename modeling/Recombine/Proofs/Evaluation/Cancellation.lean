import Recombine.Proofs.Dag.Cycles
import Recombine.Proofs.Evaluation.Dependence
import Recombine.Proofs.Evaluation.Progress

/-! Cancelled evaluations. A flag that is set between two nodes stops the evaluation at the next
one: the result is the one without the flag, the fault of an earlier node, or no result at all. -/

namespace Recombine

open Attempt

namespace Dag

def conclude (d : Dag) (computed : Relations) : Except RunError Relations :=
  if d.terminals.isEmpty then .error (.noTerminals d.id)
  else .ok (computed.filter fun id _ => d.terminals.contains id)

section

variable (d : Dag) (cancelledAt : Option Nat)

def Earlier (id id' : String) : Prop :=
  ∃ k l, d.InLayer k id ∧ d.InLayer l id' ∧ (k < l ∨ k = l ∧ id < id')

def Sees (n : String) : Prop :=
  ∃ k i : Nat, cancelledAt = some k ∧ d.layers.flatten[i]? = some n ∧ k ≤ i

structure FirstToSee (n : String) : Prop where
  sees : d.Sees cancelledAt n
  least : ∀ n', d.Sees cancelledAt n' → n' = n ∨ d.Earlier n n'

end

structure Cancels (ops : Operators) (d : Dag) (data : Relations) (cancelledAt : Option Nat)
    (result : Except RunError Relations) : Prop where
  missing : ∀ id, IsLeast {id | id ∈ d.scanIds ∧ data.contains id = false} id →
    result = .error (.missingScanData id)
  fault : (∀ id ∈ d.scanIds, data.contains id = true) → ∀ n, d.FirstToSee cancelledAt n →
    ∀ id e, Fails ops d data id e → d.Earlier id n →
      ∃ first e', FailsFirst ops d data first e' ∧ d.Earlier first n ∧ result = .error e'
  cancelled : (∀ id ∈ d.scanIds, data.contains id = true) → ∀ n, d.FirstToSee cancelledAt n →
    (∀ id e, Fails ops d data id e → ¬ d.Earlier id n) → result = .error (.cancelled n)
  unseen : (∀ n, ¬ d.Sees cancelledAt n) → result = d.evaluate ops data none
  whole : ∀ out, result = .ok out → d.evaluate ops data none = .ok out ∧
    out.keys = d.terminals ∧ ∀ n, ¬ d.Sees cancelledAt n

variable {ops : Operators} {d : Dag} {data computed : Relations} {cancelledAt : Option Nat}

section Cuts

lemma evaluate_of_covered (hdata : ∀ id ∈ d.scanIds, data.contains id = true) :
    d.evaluate ops data cancelledAt =
      evaluateNodes ops d data cancelledAt ∅ d.layers.flatten >>= d.conclude := by
  rw [evaluate, missingScan?_eq_none_iff.mpr hdata]
  rfl

lemma evaluateNodes_cut {before after : List String} {n : String} :
    evaluateNodes ops d data (some before.length) computed (before ++ n :: after) =
      evaluateNodes ops d data none computed before >>= fun _ => .error (.cancelled n) := by
  induction before generalizing computed with
  | nil => rfl
  | cons id before ih =>
    rw [List.cons_append, evaluateNodes, evaluateNodes, if_neg (by simp), if_neg (by simp)]
    cases d.node? id with
    | none => exact ih
    | some m =>
      dsimp only
      cases nodeValue ops d data computed m with
      | ok rel => exact ih
      | error e => rfl

lemma evaluateNodes_uncut {ids : List String} {k : Nat} (h : ids.length ≤ k) :
    evaluateNodes ops d data (some k) computed ids =
      evaluateNodes ops d data none computed ids := by
  induction ids generalizing computed k with
  | nil => rfl
  | cons id ids ih =>
    rw [List.length_cons] at h
    have hrest : ids.length ≤ k - 1 := by omega
    have hne : some k ≠ some 0 := by
      rw [ne_eq, Option.some.injEq]
      omega
    rw [evaluateNodes, evaluateNodes, if_neg hne, if_neg (by simp)]
    cases d.node? id with
    | none => exact ih hrest
    | some m =>
      dsimp only
      cases nodeValue ops d data computed m with
      | ok rel => exact ih hrest
      | error e => rfl

end Cuts

section Order

lemma exists_split_of_getElem? {ids : List String} {k : Nat} {n : String}
    (hk : ids[k]? = some n) : ∃ before after, ids = before ++ n :: after ∧ before.length = k := by
  obtain ⟨hlt, rfl⟩ := List.getElem?_eq_some_iff.mp hk
  exact ⟨ids.take k, ids.drop (k + 1), by simp, by simp; omega⟩

variable (h : d.Sound)

include h

lemma Sound.layer_unique {k l : Nat} {id : String} (hk : d.InLayer k id) (hl : d.InLayer l id) :
    k = l := by
  rw [InLayer, h.layers_eq] at hk hl
  apply Nat.le_antisymm
  · exact Graph.le_of_pathTo h.ids (Graph.pathTo_of_puts hk) hl
  · exact Graph.le_of_pathTo h.ids (Graph.pathTo_of_puts hl) hk

lemma Sound.flatten_nodup : d.layers.flatten.Nodup := h.layers_isOrder.perm.nodup_iff.mpr h.ids

lemma Sound.earlier_iff {before after : List String} {id n : String}
    (hsplit : d.layers.flatten = before ++ n :: after) : d.Earlier id n ↔ id ∈ before := by
  constructor
  · rintro ⟨k, l, ⟨layer, hlayer, hid⟩, hl, hlt⟩
    obtain ⟨l', layer', hl', hn, hfirst⟩ := first_of_flatten_eq d.layers_ascending hsplit
    obtain rfl := h.layer_unique hl ⟨layer', hl', hn⟩
    by_contra hnot
    rcases hfirst k layer id hlayer hid hnot with hle | ⟨rfl, hle⟩
    · omega
    · rcases hlt with hlt | ⟨-, hlt⟩
      · omega
      · exact absurd hlt (String.not_lt.mpr hle)
  · intro hid
    obtain ⟨front, mid, rfl⟩ := List.append_of_mem hid
    have hnodup := h.flatten_nodup
    have hn : n ∈ d.layers.flatten := by simp [hsplit]
    rw [hsplit] at hnodup
    have hne : id ≠ n ∧ n ∉ front := by
      simp only [List.nodup_append, List.mem_append, List.mem_cons] at hnodup
      constructor
      · rintro rfl
        exact hnodup.2.2 id (Or.inr (Or.inl rfl)) id (Or.inl rfl) rfl
      · intro hmem
        exact hnodup.2.2 n (Or.inl hmem) n (Or.inl rfl) rfl
    rw [List.append_assoc, List.cons_append] at hsplit
    obtain ⟨k, layer, hk, hmem, hfirst⟩ := first_of_flatten_eq d.layers_ascending hsplit
    obtain ⟨l, layer', hl, hn⟩ := Graph.puts_iff_mem_flatten.mpr hn
    refine ⟨k, l, ⟨layer, hk, hmem⟩, ⟨layer', hl, hn⟩, ?_⟩
    exact (hfirst l layer' n hl hn hne.2).imp_right fun ⟨heq, hle⟩ =>
      ⟨heq, lt_of_le_of_ne hle hne.1⟩

lemma FirstToSee.exists_split {n : String} (hn : d.FirstToSee cancelledAt n) :
    ∃ before after, d.layers.flatten = before ++ n :: after ∧ cancelledAt = some before.length := by
  obtain ⟨k, i, rfl, hi, hki⟩ := hn.sees
  obtain ⟨hilen, -⟩ := List.getElem?_eq_some_iff.mp hi
  have hk := List.getElem?_eq_getElem (lt_of_le_of_lt hki hilen)
  obtain ⟨before, after, hsplit, rfl⟩ := exists_split_of_getElem? hk
  rcases hn.least _ ⟨_, _, rfl, hk, le_rfl⟩ with heq | hearlier
  · rw [heq] at hsplit
    exact ⟨before, after, hsplit, rfl⟩
  · have hbefore := (h.earlier_iff hsplit).mp hearlier
    have hnodup := h.flatten_nodup
    rw [hsplit, List.nodup_append'] at hnodup
    rw [hsplit, List.getElem?_append_right hki] at hi
    exact absurd (List.mem_of_getElem? hi) (hnodup.2.2 hbefore)

end Order

section Runs

variable (h : d.Sound)

include h

lemma Sound.missingScan?_eq_some {id : String}
    (hid : IsLeast {id | id ∈ d.scanIds ∧ data.contains id = false} id) :
    d.missingScan? data = some id := by
  have hascending : (d.scanIds.filter fun id => !data.contains id).Pairwise (· < ·) :=
    (List.pairwise_map.mpr (h.ascending.filter _)).filter _
  rw [missingScan?, ← List.head?_filter, Graph.head?_eq_some_iff_isLeast hascending]
  simpa using hid

variable (ops) (hdata : ∀ id ∈ d.scanIds, data.contains id = true) {before after : List String}
  {n : String} (hsplit : d.layers.flatten = before ++ n :: after)

include hdata hsplit

lemma Sound.evaluateNodes_before :
    (∃ out, evaluateNodes ops d data none ∅ before = .ok out ∧
      ∀ u ∈ before, ∃ rel, HasValue ops d data u rel) ∨
    ∃ first e, evaluateNodes ops d data none ∅ before = .error e ∧
      FailsFirst ops d data first e ∧ first ∈ before := by
  have horder := h.layers_isOrder
  have hids : ∀ id ∈ before, id ∈ d.nodeIds := by
    intro id hid
    apply horder.perm.mem_iff.mp
    rw [hsplit]
    exact List.mem_append_left _ hid
  have hinOrder := horder.inOrder
  rw [hsplit] at hinOrder
  cases hrun : evaluateNodes ops d data none ∅ before with
  | ok out =>
    have hdone := faithful_empty.evaluateNodes_ok h hdata hids hinOrder.of_append hrun
    refine Or.inl ⟨out, rfl, fun u hu => ?_⟩
    obtain ⟨rel, hrel⟩ := KeyMap.mem_keys_iff.mp ((hdone.keys u).mpr (by simpa using hu))
    exact ⟨rel, hdone.values u rel hrel⟩
  | error e =>
    obtain ⟨front, first, back, rfl, hfails, hfront⟩ :=
      faithful_empty.evaluateNodes_error h hdata hids hinOrder.of_append hrun
    rw [List.append_assoc] at hsplit
    exact Or.inr ⟨first, e, rfl, failsFirst_of_split h hsplit hfails hfront, by simp⟩

lemma Sound.evaluate_cut :
    d.evaluate ops data (some before.length) = .error (.cancelled n) ∧
      (∀ id e, Fails ops d data id e → ¬ d.Earlier id n) ∨
    ∃ first e, FailsFirst ops d data first e ∧ d.Earlier first n ∧
      d.evaluate ops data (some before.length) = .error e := by
  rw [evaluate_of_covered hdata, hsplit, evaluateNodes_cut]
  rcases h.evaluateNodes_before ops hdata hsplit with
    ⟨out, hout, hvalues⟩ | ⟨first, e, he, hfirst, hmem⟩
  · rw [hout]
    refine Or.inl ⟨rfl, fun id e hfails hearlier => ?_⟩
    obtain ⟨rel, hrel⟩ := hvalues id ((h.earlier_iff hsplit).mp hearlier)
    cases hrel.unique h.ids hfails
  · rw [he]
    exact Or.inr ⟨first, e, hfirst, (h.earlier_iff hsplit).mpr hmem, rfl⟩

end Runs

lemma evaluate_unseen (hnone : ∀ n, ¬ d.Sees cancelledAt n) :
    d.evaluate ops data cancelledAt = d.evaluate ops data none := by
  cases cancelledAt with
  | none => rfl
  | some k =>
    have hlength : d.layers.flatten.length ≤ k := by
      by_contra hlt
      exact hnone _ ⟨k, k, rfl, List.getElem?_eq_getElem (not_le.mp hlt), le_rfl⟩
    rw [evaluate, evaluate, evaluateNodes_uncut hlength]

lemma Sees.exists_split {n : String} (hn : d.Sees cancelledAt n) :
    ∃ before m after, d.layers.flatten = before ++ m :: after ∧
      cancelledAt = some before.length := by
  obtain ⟨k, i, rfl, hi, hki⟩ := hn
  obtain ⟨hlt, -⟩ := List.getElem?_eq_some_iff.mp hi
  have hk := List.getElem?_eq_getElem (lt_of_le_of_lt hki hlt)
  obtain ⟨before, after, hsplit, rfl⟩ := exists_split_of_getElem? hk
  exact ⟨before, _, after, hsplit, rfl⟩

lemma Sound.not_sees_of_ok (h : d.Sound) {out : Relations}
    (hout : d.evaluate ops data cancelledAt = .ok out) (n : String) : ¬ d.Sees cancelledAt n := by
  intro hn
  obtain ⟨before, m, after, hsplit, rfl⟩ := hn.exists_split
  rcases h.evaluate_cut ops (covered_of_evaluate hout) hsplit with
    ⟨hcut, -⟩ | ⟨_, _, -, -, hcut⟩
  · cases hout.symm.trans hcut
  · cases hout.symm.trans hcut

lemma Sound.error_of_evaluate (h : d.Sound) {e : RunError}
    (he : d.evaluate ops data cancelledAt = .error e) :
    (∃ id, e = .missingScanData id) ∨ (∃ id, e = .cancelled id) ∨ e = .noTerminals d.id ∨
      ∃ id, Fails ops d data id e := by
  cases hmissing : d.missingScan? data with
  | some id =>
    rw [evaluate, hmissing] at he
    cases he
    exact Or.inl ⟨id, rfl⟩
  | none =>
    have hdata := missingScan?_eq_none_iff.mp hmissing
    by_cases hseen : ∃ n, d.Sees cancelledAt n
    · obtain ⟨n, hn⟩ := hseen
      obtain ⟨before, m, after, hsplit, rfl⟩ := hn.exists_split
      rcases h.evaluate_cut ops hdata hsplit with ⟨hcut, -⟩ | ⟨id, e', hfirst, -, hcut⟩
      · cases he.symm.trans hcut
        exact Or.inr (Or.inl ⟨m, rfl⟩)
      · cases he.symm.trans hcut
        exact Or.inr (Or.inr (Or.inr ⟨id, hfirst.1⟩))
    · rw [evaluate_unseen (not_exists.mp hseen), evaluate_of_covered hdata] at he
      rcases bind_eq_error.mp he with he | ⟨computed, -, he⟩
      · obtain ⟨id, hfirst⟩ := failsFirst_of_error h hdata he
        exact Or.inr (Or.inr (Or.inr ⟨id, hfirst.1⟩))
      · rw [conclude] at he
        split at he
        next => cases he; exact Or.inr (Or.inr (Or.inl rfl))
        next => cases he

lemma Sound.cancels (h : d.Sound) (ops : Operators) (data : Relations)
    (cancelledAt : Option Nat) :
    Cancels ops d data cancelledAt (d.evaluate ops data cancelledAt) := by
  constructor
  · intro id hid
    rw [evaluate, h.missingScan?_eq_some hid]
  · intro hdata n hn id e hfails hearlier
    obtain ⟨before, after, hsplit, rfl⟩ := hn.exists_split h
    rcases h.evaluate_cut ops hdata hsplit with ⟨-, hnone⟩ | hfault
    · exact absurd hearlier (hnone id e hfails)
    · exact hfault
  · intro hdata n hn hnone
    obtain ⟨before, after, hsplit, rfl⟩ := hn.exists_split h
    rcases h.evaluate_cut ops hdata hsplit with ⟨hcut, -⟩ | ⟨first, e, hfirst, hearlier, -⟩
    · exact hcut
    · exact absurd hearlier (hnone first e hfirst.1)
  · exact evaluate_unseen
  · intro out hout
    have huncut := evaluate_of_cancelledAt hout
    refine ⟨huncut, ?_, h.not_sees_of_ok hout⟩
    apply keys_of_evaluate h ?_ huncut
    intro hnil
    rw [evaluate_of_no_nodes h hnil] at huncut
    cases huncut

end Dag

end Recombine
