import Mathlib.Data.List.Forall2
import Mathlib.Data.List.Induction
import Recombine.Engine.Tally
import Recombine.Proofs.Sequences

namespace Recombine.Tally

variable {κ α β : Type} [DecidableEq κ] {key : α → κ} {measures : List (Measure α)} {as : List α}
  {a : α} {k : κ} {t : Tally κ α}

def keysOf (key : α → κ) (as : List α) : List κ := (as.map key).eraseDups

def members (key : α → κ) (as : List α) (k : κ) : List α := as.filter fun a => key a = k

def totals (measures : List (Measure α)) (as : List α) : List Accumulator :=
  measures.map fun m => (as.map m.value).foldl .push (.start m.aggregation)

structure Sums (measures : List (Measure α)) (as : List α) (g : α × List Accumulator) : Prop where
  first : as.head? = some g.1
  totals : g.2 = totals measures as

structure Sound (key : α → κ) (measures : List (Measure α)) (as : List α) (t : Tally κ α) :
    Prop where
  slots : t.slots = (keysOf key as).zipIdx
  length : t.groups.length = (keysOf key as).length
  sums : ∀ (i : Nat) k g, (keysOf key as)[i]? = some k → t.groups[i]? = some g →
    Sums measures (members key as k) g

lemma mem_keysOf : k ∈ keysOf key as ↔ ∃ a ∈ as, key a = k := by
  rw [keysOf, List.mem_eraseDups, List.mem_map]

lemma keysOf_nodup : (keysOf key as).Nodup := Sequence.eraseDups_nodup _

lemma keysOf_concat : keysOf key (as ++ [a]) =
    if key a ∈ keysOf key as then keysOf key as else keysOf key as ++ [key a] := by
  rw [keysOf, List.map_append, List.map_singleton, Sequence.eraseDups_concat]
  simp only [List.contains_eq_mem, decide_eq_true_iff, keysOf, List.mem_eraseDups]

lemma keysOf_eq_nil_iff : keysOf key as = [] ↔ as = [] := by
  cases as with
  | nil => exact iff_of_true rfl rfl
  | cons a as =>
    refine iff_of_false (fun h => ?_) (List.cons_ne_nil a as)
    have ha : key a ∈ keysOf key (a :: as) := mem_keysOf.mpr ⟨a, List.mem_cons_self, rfl⟩
    rw [h] at ha
    cases ha

lemma findIdx_lt_length_iff :
    (as.findIdx fun a => key a = k) < as.length ↔ k ∈ keysOf key as := by
  simp only [List.findIdx_lt_length, decide_eq_true_iff, mem_keysOf]

lemma keysOf_ascending (key : α → κ) (as : List α) : (keysOf key as).Pairwise fun k l =>
    (as.findIdx fun a => key a = k) < as.findIdx fun a => key a = l := by
  induction as using List.reverseRecOn with
  | nil => exact List.Pairwise.nil
  | append_singleton as a ih =>
    have hold : ∀ k ∈ keysOf key as, ((as ++ [a]).findIdx fun b => key b = k) =
        as.findIdx fun b => key b = k := by
      intro k hk
      rw [List.findIdx_append, if_pos (findIdx_lt_length_iff.mpr hk)]
    have hkeys := ih.imp_of_mem fun {k l} hk hl hlt => by
      rwa [← hold k hk, ← hold l hl] at hlt
    rw [keysOf_concat]
    split
    next => exact hkeys
    next hnew =>
      refine List.pairwise_append.mpr ⟨hkeys, List.pairwise_singleton _ _, fun k hk l hl => ?_⟩
      rw [List.mem_singleton.mp hl, hold k hk, List.findIdx_append,
        if_neg (mt findIdx_lt_length_iff.mp hnew)]
      exact Nat.lt_add_left _ (findIdx_lt_length_iff.mpr hk)

lemma keysOf_of_nodup (h : (as.map key).Nodup) : keysOf key as = as.map key :=
  Sequence.eraseDups_eq_self h

lemma mem_members {b : α} : b ∈ members key as k ↔ b ∈ as ∧ key b = k := by
  rw [members, List.mem_filter, decide_eq_true_iff]

lemma members_concat : members key (as ++ [a]) k =
    if key a = k then members key as k ++ [a] else members key as k := by
  rw [members, List.filter_append, List.filter_singleton, ← members]
  by_cases hk : key a = k <;> simp [hk]

lemma members_ne_nil_iff : members key as k ≠ [] ↔ k ∈ keysOf key as := by
  rw [mem_keysOf, members, Ne, List.filter_eq_nil_iff]
  simp only [decide_eq_true_iff, not_forall, not_not, exists_prop]

lemma members_of_nodup (h : (as.map key).Nodup) (ha : a ∈ as) : members key as (key a) = [a] := by
  induction as with
  | nil => cases ha
  | cons b as ih =>
    obtain ⟨hb, has⟩ := List.nodup_cons.mp h
    rw [members, List.filter_cons, ← members]
    rcases List.mem_cons.mp ha with rfl | ha
    · rw [if_pos (decide_eq_true rfl), List.cons.injEq, and_iff_right rfl, ← not_ne_iff,
        members_ne_nil_iff, mem_keysOf, ← List.mem_map]
      exact hb
    · have hne : key b ≠ key a := fun heq => hb (heq ▸ List.mem_map_of_mem ha)
      rw [if_neg (by simpa using hne), ih has ha]

lemma flatMap_members_perm_filter (key : α → κ) (as : List α) {ks : List κ} (hks : ks.Nodup) :
    (ks.flatMap (members key as)).Perm (as.filter fun a => key a ∈ ks) := by
  induction ks with
  | nil => simp
  | cons k ks ih =>
    obtain ⟨hk, hks⟩ := List.nodup_cons.mp hks
    have hsplit := List.filter_append_perm (fun a => decide (key a = k))
      (as.filter fun a => key a ∈ k :: ks)
    have hfirst : ((as.filter fun a => key a ∈ k :: ks).filter fun a => key a = k) =
        members key as k := by
      rw [List.filter_filter]
      exact List.filter_congr fun a _ => by simp +contextual
    have hrest : ((as.filter fun a => key a ∈ k :: ks).filter fun a => !decide (key a = k)) =
        as.filter fun a => key a ∈ ks := by
      rw [List.filter_filter]
      refine List.filter_congr fun a _ => ?_
      by_cases ha : key a = k <;> simp [ha, hk]
    rw [hfirst, hrest] at hsplit
    rw [List.flatMap_cons]
    exact ((ih hks).append_left _).trans hsplit

lemma flatMap_members_perm (key : α → κ) (as : List α) :
    ((keysOf key as).flatMap (members key as)).Perm as := by
  have hall : (as.filter fun a => key a ∈ keysOf key as) = as :=
    List.filter_eq_self.mpr fun a ha => decide_eq_true (mem_keysOf.mpr ⟨a, ha, rfl⟩)
  have hperm := flatMap_members_perm_filter key as (keysOf_nodup : (keysOf key as).Nodup)
  rwa [hall] at hperm

lemma exists_unique_key (ha : a ∈ as) : ∃! k, k ∈ keysOf key as ∧ a ∈ members key as k := by
  refine ⟨key a, ⟨mem_keysOf.mpr ⟨a, ha, rfl⟩, mem_members.mpr ⟨ha, rfl⟩⟩, ?_⟩
  rintro k ⟨-, hk⟩
  exact (mem_members.mp hk).2.symm

lemma push_totals (g : α × List Accumulator) (h : g.2 = totals measures as) :
    (push measures a g).2 = totals measures (as ++ [a]) := by
  rw [push, h, totals, totals, List.zipWith_map_right, List.zipWith_self]
  refine List.map_congr_left fun m _ => ?_
  rw [List.map_append, List.foldl_append]
  rfl

lemma Sums.results {metrics : List Metric} {f : Metric → Measure α} {g : α × List Accumulator}
    (h : Sums (metrics.map f) as g) : (metrics.zip g.2).map (fun m => (m.1.name, m.2.result)) =
      metrics.map fun m =>
        (m.name, Accumulator.aggregate (f m).aggregation (as.map (f m).value)) := by
  rw [h.totals, Tally.totals, List.map_map, List.zip_map_right, List.map_map, List.zip_eq_zipWith,
    List.zipWith_self, List.map_map]
  rfl

structure Opened (key : α → κ) (measures : List (Measure α)) (as : List α) (a : α)
    (place : Nat) (t : Tally κ α) : Prop where
  slots : t.slots = (keysOf key (as ++ [a])).zipIdx
  length : t.groups.length = (keysOf key (as ++ [a])).length
  place : (keysOf key (as ++ [a]))[place]? = some (key a)
  sums : ∀ (i : Nat) k g, (keysOf key (as ++ [a]))[i]? = some k → t.groups[i]? = some g →
    (members key (as ++ [a]) k).head? = some g.1 ∧ g.2 = totals measures (members key as k)

lemma head?_members_concat (h : k ∈ keysOf key as) :
    (members key (as ++ [a]) k).head? = (members key as k).head? := by
  rw [members_concat]
  split
  next => exact List.head?_append_of_ne_nil _ (members_ne_nil_iff.mpr h)
  next => rfl

lemma Sound.mem_slots {i : Nat} (h : Sound key measures as t) :
    (k, i) ∈ t.slots ↔ (keysOf key as)[i]? = some k := by
  rw [h.slots]
  exact List.mem_zipIdx_iff_getElem?

lemma Sound.place_of_lookup {place : Nat} (h : Sound key measures as t)
    (hlookup : t.slots.lookup k = some place) : (keysOf key as)[place]? = some k := by
  obtain ⟨before, after, hslots, -⟩ := List.lookup_eq_some_iff.mp hlookup
  have hmem : (k, place) ∈ before ++ (k, place) :: after :=
    List.mem_append_right _ List.mem_cons_self
  exact h.mem_slots.mp (hslots ▸ hmem)

lemma Sound.not_mem_of_lookup (h : Sound key measures as t) (hlookup : t.slots.lookup k = none) :
    k ∉ keysOf key as := by
  intro hmem
  obtain ⟨i, hi⟩ := List.getElem?_of_mem hmem
  simpa using List.lookup_eq_none_iff.mp hlookup _ (h.mem_slots.mpr hi)

lemma Sound.sums_concat (h : Sound key measures as t) {i : Nat} {g : α × List Accumulator}
    (hk : (keysOf key as)[i]? = some k) (hg : t.groups[i]? = some g) :
    (members key (as ++ [a]) k).head? = some g.1 ∧ g.2 = totals measures (members key as k) := by
  obtain ⟨hfirst, htotals⟩ := h.sums i k g hk hg
  exact ⟨(head?_members_concat (List.mem_of_getElem? hk)).trans hfirst, htotals⟩

lemma Sound.opened (h : Sound key measures as t) (a : α) :
    Opened key measures as a (t.slot measures (key a) a).1 (t.slot measures (key a) a).2 := by
  rw [slot]
  cases hlookup : t.slots.lookup (key a) with
  | some place =>
    have hplace := h.place_of_lookup hlookup
    have hkeys : keysOf key (as ++ [a]) = keysOf key as := by
      rw [keysOf_concat, if_pos (List.mem_of_getElem? hplace)]
    refine ⟨hkeys ▸ h.slots, hkeys ▸ h.length, hkeys ▸ hplace, fun i k g hk hg => ?_⟩
    exact h.sums_concat (hkeys ▸ hk) hg
  | none =>
    have hnew := h.not_mem_of_lookup hlookup
    have hkeys : keysOf key (as ++ [a]) = keysOf key as ++ [key a] := by
      rw [keysOf_concat, if_neg hnew]
    constructor
    case slots =>
      rw [hkeys, List.zipIdx_append, ← h.slots, h.length]
      simp
    case length => simp [hkeys, h.length]
    case place => simp [hkeys, h.length]
    case sums =>
      intro i k g hk hg
      rw [hkeys] at hk
      by_cases hi : i < (keysOf key as).length
      · rw [List.getElem?_append_left hi] at hk
        rw [List.getElem?_append_left (h.length ▸ hi)] at hg
        exact h.sums_concat hk hg
      · have hi' : i = (keysOf key as).length := by
          have hlt := (List.getElem?_eq_some_iff.mp hk).1
          rw [List.length_append, List.length_singleton] at hlt
          omega
        rw [hi', List.getElem?_concat_length] at hk
        rw [hi', ← h.length, List.getElem?_concat_length] at hg
        cases hk
        cases hg
        have hnone : members key as (key a) = [] := by
          rw [← not_ne_iff, members_ne_nil_iff]
          exact hnew
        rw [members_concat, if_pos rfl, hnone]
        exact ⟨rfl, rfl⟩

lemma Sound.add (h : Sound key measures as t) (a : α) :
    Sound key measures (as ++ [a]) (t.add key measures a) := by
  have ho := h.opened a
  rw [Tally.add]
  constructor
  case slots => exact ho.slots
  case length => simpa using ho.length
  case sums =>
    intro i k g hk hg
    rw [List.getElem?_modify, Option.map_eq_map, Option.map_eq_some_iff] at hg
    obtain ⟨g, hg, rfl⟩ := hg
    obtain ⟨hfirst, htotals⟩ := ho.sums i k g hk hg
    split
    next heq =>
      subst heq
      obtain rfl := Option.some.inj (ho.place.symm.trans hk)
      refine ⟨hfirst, ?_⟩
      rw [push_totals g htotals, members_concat, if_pos rfl]
    next hne =>
      -- keys are not repeated, so that another place is that of another key
      have hk' : key a ≠ k := by
        intro heq
        have hlt := (List.getElem?_eq_some_iff.mp hk).1
        rw [← heq] at hk
        exact hne ((List.getElem?_inj hlt keysOf_nodup).mp (hk.trans ho.place.symm)).symm
      refine ⟨hfirst, ?_⟩
      rw [htotals, members_concat, if_neg hk']

lemma sound_empty : Sound key measures [] empty where
  slots := rfl
  length := rfl
  sums _ _ _ hk := by simp [keysOf] at hk

lemma sound_ofList (key : α → κ) (measures : List (Measure α)) (as : List α) :
    Sound key measures as (ofList key measures as) := by
  induction as using List.reverseRecOn with
  | nil => exact sound_empty
  | append_singleton as a ih =>
    rw [ofList, List.foldl_append]
    exact ih.add a

lemma groups_ofList (key : α → κ) (measures : List (Measure α)) (as : List α) :
    List.Forall₂ (fun k g => Sums measures (members key as k) g) (keysOf key as)
      (ofList key measures as).groups := by
  have h := sound_ofList key measures as
  refine List.forall₂_iff_get.mpr ⟨h.length.symm, fun i hi hi' => ?_⟩
  exact h.sums i _ _ (List.getElem?_eq_getElem hi) (List.getElem?_eq_getElem hi')

lemma map_groups {γ : Type} {f : α × List Accumulator → γ} {F : List α → γ}
    (h : ∀ bs g, Sums measures bs g → f g = F bs) :
    (ofList key measures as).groups.map f =
      (keysOf key as).map fun k => F (members key as k) := by
  rw [← List.forall₂_eq_eq_eq, List.forall₂_map_left_iff, List.forall₂_map_right_iff]
  exact (groups_ofList key measures as).flip.imp fun g k hg => h _ g hg

lemma keysOf_map (f : β → α) (bs : List β) :
    keysOf key (bs.map f) = keysOf (fun b => key (f b)) bs := by
  rw [keysOf, List.map_map]
  rfl

lemma members_map (f : β → α) (bs : List β) (k : κ) :
    members key (bs.map f) k = (members (fun b => key (f b)) bs k).map f := by
  rw [members, List.filter_map]
  rfl

end Recombine.Tally
