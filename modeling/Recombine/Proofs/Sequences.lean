import Mathlib.Data.List.Forall2
import Mathlib.Data.List.Nodup
import Mathlib.Data.List.Perm.Basic
import Mathlib.Data.List.ProdSigma

namespace Recombine.Sequence

section Keys

variable {α κ : Type} {f : α → κ} {as : List α} {a : α}

lemma append_of_mem_of_nodup (h : (as.map f).Nodup) (ha : a ∈ as) :
    ∃ before after, as = before ++ a :: after ∧ ∀ b ∈ before, f b ≠ f a := by
  obtain ⟨before, after, rfl⟩ := List.append_of_mem ha
  refine ⟨before, after, rfl, fun b hb heq => ?_⟩
  rw [List.map_append, List.map_cons, List.nodup_middle, List.nodup_cons] at h
  exact h.1 (List.mem_append_left _ (heq ▸ List.mem_map_of_mem hb))

lemma find?_of_nodup [BEq κ] [LawfulBEq κ] (h : (as.map f).Nodup) (ha : a ∈ as) :
    as.find? (fun b => f b == f a) = some a := by
  obtain ⟨before, after, heq, hne⟩ := append_of_mem_of_nodup h ha
  refine List.find?_eq_some_iff_append.mpr ⟨beq_self_eq_true _, before, after, heq, fun b hb => ?_⟩
  simpa using hne b hb

lemma lookup_of_nodup [BEq κ] [LawfulBEq κ] {es : List (κ × α)} {k : κ}
    (h : (es.map Prod.fst).Nodup) (he : (k, a) ∈ es) : es.lookup k = some a := by
  obtain ⟨before, after, heq, hne⟩ := append_of_mem_of_nodup h he
  refine List.lookup_eq_some_iff.mpr ⟨before, after, heq, fun e he' => ?_⟩
  simpa using (hne e he').symm

lemma mem_tail_iff_of_nodup (h : (as.map f).Nodup) :
    a ∈ as.tail ↔ a ∈ as ∧ as.head?.map f ≠ some (f a) := by
  cases as with
  | nil => exact iff_of_false List.not_mem_nil fun ha => List.not_mem_nil ha.1
  | cons b as =>
    rw [List.map_cons, List.nodup_cons] at h
    rw [List.tail_cons, List.head?_cons, Option.map_some, Ne, Option.some.injEq]
    constructor
    · intro ha
      exact ⟨List.mem_cons_of_mem _ ha, fun heq => h.1 (heq ▸ List.mem_map_of_mem ha)⟩
    · rintro ⟨ha, hne⟩
      exact (List.mem_cons.mp ha).resolve_left fun heq => hne (heq ▸ rfl)

lemma eq_of_map_fst_eq {es fs : List (κ × α)} (h : es.map Prod.fst = fs.map Prod.fst)
    (hval : ∀ e ∈ es, ∀ b, (e.1, b) ∈ fs → e.2 = b) : es = fs := by
  induction es generalizing fs with
  | nil => exact (List.map_eq_nil_iff.mp h.symm).symm
  | cons e es ih =>
    cases fs with
    | nil => cases h
    | cons f fs =>
      obtain ⟨hkey, hkeys⟩ := List.cons.inj h
      have hhead : e.2 = f.2 := hval e List.mem_cons_self f.2 (hkey ▸ List.mem_cons_self)
      rw [Prod.ext hkey hhead, ih hkeys]
      exact fun e' he' b hb => hval e' (List.mem_cons_of_mem e he') b (List.mem_cons_of_mem f hb)

end Keys

lemma map_fst_filter_zip_map {α β : Type} (f : α → β) (p : α → Bool) (as : List α) :
    (((as.map f).zip (as.map p)).filter Prod.snd).map Prod.fst = (as.filter p).map f := by
  induction as with
  | nil => rfl
  | cons a as ih => cases hp : p a <;> simp [hp, ih]

lemma append_cons_inj_of_not_mem {α : Type} {a : α} {as as' bs bs' : List α} (hbs : a ∉ bs)
    (hbs' : a ∉ bs') (h : as ++ a :: bs = as' ++ a :: bs') : as = as' ∧ bs = bs' := by
  rcases List.append_eq_append_iff.mp h with ⟨cs, rfl, hcs⟩ | ⟨cs, rfl, hcs⟩
  · cases cs with
    | nil => exact ⟨(List.append_nil as).symm, (List.cons.inj hcs).2⟩
    | cons c cs =>
      rw [(List.cons.inj hcs).2] at hbs
      exact absurd (List.mem_append_right cs List.mem_cons_self) hbs
  · cases cs with
    | nil => exact ⟨List.append_nil as', (List.cons.inj hcs).2.symm⟩
    | cons c cs =>
      rw [(List.cons.inj hcs).2] at hbs'
      exact absurd (List.mem_append_right cs List.mem_cons_self) hbs'

lemma concat_eq_append_cons {α : Type} {a b : α} {as bs cs : List α}
    (h : as ++ [b] = bs ++ a :: cs) :
    (cs = [] ∧ a = b ∧ bs = as) ∨ ∃ ds, cs = ds ++ [b] ∧ as = bs ++ a :: ds := by
  rcases List.eq_nil_or_concat cs with rfl | ⟨ds, c, rfl⟩
  · obtain ⟨rfl, heq⟩ := List.append_inj' h rfl
    cases heq
    exact Or.inl ⟨rfl, rfl, rfl⟩
  · rw [List.concat_eq_append, ← List.cons_append, ← List.append_assoc] at h
    obtain ⟨rfl, heq⟩ := List.append_inj' h rfl
    cases heq
    exact Or.inr ⟨ds, List.concat_eq_append, rfl⟩

section Related

variable {α β γ : Type} {R : α → β → Prop} {as : List α} {bs : List β}

lemma exists_of_mem_right (h : List.Forall₂ R as bs) {b : β} (hb : b ∈ bs) : ∃ a ∈ as, R a b := by
  induction h with
  | nil => cases hb
  | cons hab _ ih =>
    rcases List.mem_cons.mp hb with rfl | hb
    · exact ⟨_, List.mem_cons_self, hab⟩
    · obtain ⟨a, ha, hr⟩ := ih hb
      exact ⟨a, List.mem_cons_of_mem _ ha, hr⟩

lemma exists_of_mem_left (h : List.Forall₂ R as bs) {a : α} (ha : a ∈ as) : ∃ b ∈ bs, R a b :=
  exists_of_mem_right h.flip ha

lemma flatMap_perm (h : List.Forall₂ R as bs) {f : α → List γ} {g : β → List γ}
    (hfg : ∀ a b, R a b → (f a).Perm (g b)) : (as.flatMap f).Perm (bs.flatMap g) := by
  induction h with
  | nil => exact List.Perm.refl _
  | cons hab _ ih =>
    rw [List.flatMap_cons, List.flatMap_cons]
    exact (hfg _ _ hab).append ih

lemma map_eq_map_iff {f : α → γ} {g : β → γ} (h : ∀ a ∈ as, ∀ b ∈ bs, f a = g b ↔ R a b) :
    as.map f = bs.map g ↔ List.Forall₂ R as bs := by
  induction as generalizing bs with
  | nil =>
    cases bs with
    | nil => simp
    | cons b bs => simp
  | cons a as ih =>
    cases bs with
    | nil => simp
    | cons b bs =>
      obtain ⟨hhead, htail⟩ := List.forall_mem_cons.mp h
      rw [List.map_cons, List.map_cons, List.cons.injEq, List.forall₂_cons,
        hhead b List.mem_cons_self,
        ih fun a ha b hb => htail a ha b (List.mem_cons_of_mem _ hb)]

lemma map_perm_map_iff {f : α → γ} {g : β → γ} :
    (as.map f).Perm (bs.map g) ↔ ∃ cs, as.Perm cs ∧ cs.map f = bs.map g := by
  constructor
  · intro h
    have himage : List.Forall₂ (fun a c => f a = c) as (as.map f) :=
      List.forall₂_map_right_iff.mpr (List.forall₂_same.mpr fun _ _ => rfl)
    have hcomp : Relation.Comp (List.Forall₂ fun a c => f a = c) List.Perm as (bs.map g) :=
      ⟨_, himage, h⟩
    rw [List.forall₂_comp_perm_eq_perm_comp_forall₂] at hcomp
    obtain ⟨cs, hperm, hcs⟩ := hcomp
    refine ⟨cs, hperm, ?_⟩
    rw [← List.forall₂_eq_eq_eq, List.forall₂_map_left_iff]
    exact hcs
  · rintro ⟨cs, hperm, heq⟩
    rw [← heq]
    exact hperm.map f

lemma map_filterMap_sublist {f : α → Option β} {g : β → γ} {k : α → γ}
    (h : ∀ a b, f a = some b → g b = k a) : ((as.filterMap f).map g).Sublist (as.map k) := by
  induction as with
  | nil => exact List.Sublist.refl _
  | cons a as ih =>
    cases hf : f a with
    | none =>
      rw [List.filterMap_cons_none hf]
      exact ih.cons _
    | some b =>
      rw [List.filterMap_cons_some hf, List.map_cons, List.map_cons, h a b hf]
      exact ih.cons_cons _

end Related

section Sorting

variable {α κ : Type} (cmp : κ → κ → Ordering)

lemma isLE_total [Std.OrientedCmp cmp] (a b : κ) : ((cmp a b).isLE || (cmp b a).isLE) = true := by
  have hswap : cmp b a = (cmp a b).swap := Std.OrientedCmp.eq_swap
  rw [hswap]
  cases cmp a b <;> rfl

variable [Std.TransCmp cmp]

lemma isLE_trans (a b c : κ) (hab : (cmp a b).isLE = true) (hbc : (cmp b c).isLE = true) :
    (cmp a c).isLE = true :=
  Std.TransCmp.isLE_trans hab hbc

lemma pairwise_mergeSort (f : α → κ) (as : List α) :
    (as.mergeSort fun a b => (cmp (f a) (f b)).isLE).Pairwise
      fun a b => (cmp (f a) (f b)).isLE = true := by
  apply List.pairwise_mergeSort
  · exact fun a b c => isLE_trans cmp (f a) (f b) (f c)
  · exact fun a b => isLE_total cmp (f a) (f b)

lemma pairwise_mergeSort_stable {R : κ → κ → Prop} {as : List κ} (h : as.Pairwise R) :
    (as.mergeSort fun a b => (cmp a b).isLE).Pairwise
      fun a b => cmp a b = .lt ∨ cmp a b = .eq ∧ R a b := by
  let le := fun a b => (cmp a b).isLE
  have hsorted : (as.zipIdx.mergeSort (List.zipIdxLE le)).Pairwise fun p q =>
      List.zipIdxLE le p q = true :=
    List.pairwise_mergeSort (List.zipIdxLE_trans (isLE_trans cmp))
      (List.zipIdxLE_total (isLE_total cmp)) as.zipIdx
  have hperm := List.mergeSort_perm as.zipIdx (List.zipIdxLE le)
  have hnodup : ((as.zipIdx.mergeSort (List.zipIdxLE le)).map Prod.snd).Nodup := by
    rw [(hperm.map _).nodup_iff, List.zipIdx_map_snd]
    exact List.nodup_range'
  -- the same list comes out when ties are broken by places
  rw [← List.mergeSort_zipIdx, List.pairwise_map]
  refine (hsorted.and (List.pairwise_map.mp hnodup)).imp_of_mem ?_
  rintro ⟨a, i⟩ ⟨b, j⟩ ha hb ⟨hle, hne⟩
  obtain ⟨hi, ha⟩ := List.getElem?_eq_some_iff.mp
    (List.mem_zipIdx_iff_getElem?.mp (hperm.mem_iff.mp ha))
  obtain ⟨hj, hb⟩ := List.getElem?_eq_some_iff.mp
    (List.mem_zipIdx_iff_getElem?.mp (hperm.mem_iff.mp hb))
  have hswap : cmp b a = (cmp a b).swap := Std.OrientedCmp.eq_swap
  simp only [List.zipIdxLE, le, hswap] at hle
  cases hcmp : cmp a b with
  | lt => exact Or.inl rfl
  | gt => simp [hcmp] at hle
  | eq =>
    simp only [hcmp, Ordering.swap_eq, Ordering.isLE_eq, if_true, decide_eq_true_iff] at hle
    have hab := List.pairwise_iff_getElem.mp h i j hi hj (Nat.lt_of_le_of_ne hle hne)
    rw [ha, hb] at hab
    exact Or.inr ⟨rfl, hab⟩

end Sorting

lemma pairwise_mergeSort_le {α : Type} (f : α → Nat) (as : List α) :
    (as.mergeSort fun a b => f a ≤ f b).Pairwise fun a b => f a ≤ f b := by
  refine (List.pairwise_mergeSort ?_ ?_ as).imp of_decide_eq_true
  · intro a b c hab hbc
    exact decide_eq_true (Nat.le_trans (of_decide_eq_true hab) (of_decide_eq_true hbc))
  · intro a b
    rw [Bool.or_eq_true, decide_eq_true_iff, decide_eq_true_iff]
    exact Nat.le_total _ _

lemma mergeSort_eq_of_perm {α : Type} {f : α → Nat} {as bs : List α} (hperm : as.Perm bs)
    (hsorted : bs.Pairwise fun a b => f a < f b) : (as.mergeSort fun a b => f a ≤ f b) = bs := by
  have hsame := (List.mergeSort_perm as fun a b => f a ≤ f b).trans hperm
  have hnodup : (bs.map f).Nodup :=
    List.pairwise_map.mpr (hsorted.imp fun hlt => Nat.ne_of_lt hlt)
  refine hsame.eq_of_pairwise ?_ (pairwise_mergeSort_le f as) (hsorted.imp Nat.le_of_lt)
  intro a b ha hb hab hba
  exact List.inj_on_of_nodup_map hnodup (hsame.mem_iff.mp ha) hb (Nat.le_antisymm hab hba)

variable {α : Type} [BEq α] [LawfulBEq α]

lemma eraseDups_nodup (as : List α) : as.eraseDups.Nodup := by
  cases as with
  | nil => exact List.nodup_nil
  | cons a as =>
    rw [List.eraseDups_cons, List.nodup_cons, List.mem_eraseDups, List.mem_filter]
    refine ⟨?_, eraseDups_nodup (as.filter fun b => !b == a)⟩
    rintro ⟨-, hne⟩
    simp at hne
termination_by as.length
decreasing_by exact Nat.lt_succ_of_le (List.length_filter_le _ as)

lemma eraseDups_eq_self {as : List α} (h : as.Nodup) : as.eraseDups = as := by
  induction as with
  | nil => rfl
  | cons a as ih =>
    obtain ⟨ha, has⟩ := List.nodup_cons.mp h
    have hfilter : as.filter (fun b => !b == a) = as := by
      refine List.filter_eq_self.mpr fun b hb => ?_
      have hne : b ≠ a := fun heq => ha (heq ▸ hb)
      simpa using hne
    rw [List.eraseDups_cons, hfilter, ih has]

lemma eraseDups_filter (p : α → Bool) (as : List α) :
    (as.filter p).eraseDups = as.eraseDups.filter p := by
  cases as with
  | nil => rfl
  | cons a as =>
    have ih := eraseDups_filter p (as.filter fun b => !b == a)
    rw [List.eraseDups_cons, List.filter_cons, List.filter_cons, ← ih]
    split
    next =>
      rw [List.eraseDups_cons, List.filter_filter, List.filter_filter]
      simp only [Bool.and_comm]
    next hp =>
      rw [List.filter_filter]
      congr 1
      refine List.filter_congr fun b _ => ?_
      by_cases hb : b = a
      · subst hb
        simpa using hp
      · simp [hb]
termination_by as.length
decreasing_by exact Nat.lt_succ_of_le (List.length_filter_le _ as)

lemma eraseDups_append_eq (as bs : List α) :
    (as ++ bs).eraseDups = as.eraseDups ++ bs.eraseDups.filter fun b => !as.contains b := by
  rw [List.eraseDups_append, ← eraseDups_filter]
  rfl

lemma eraseDups_concat (as : List α) (a : α) :
    (as ++ [a]).eraseDups = if as.contains a then as.eraseDups else as.eraseDups ++ [a] := by
  rw [eraseDups_append_eq, eraseDups_eq_self (List.nodup_singleton a), List.filter_singleton]
  cases as.contains a with
  | true => exact List.append_nil _
  | false => rfl

lemma eraseDups_flatten_map (ls : List (List α)) :
    (ls.map List.eraseDups).flatten.eraseDups = ls.flatten.eraseDups := by
  induction ls with
  | nil => rfl
  | cons l ls ih =>
    rw [List.map_cons, List.flatten_cons, List.flatten_cons, eraseDups_append_eq, ih,
      eraseDups_append_eq, eraseDups_eq_self (eraseDups_nodup l)]
    simp only [List.contains_eq_mem, List.mem_eraseDups]

lemma zip_append_of_length_le {α β : Type} {as : List α} {bs : List β}
    (h : bs.length ≤ as.length) (rest : List α) : (as ++ rest).zip bs = as.zip bs := by
  induction as generalizing bs with
  | nil =>
    rw [List.eq_nil_of_length_eq_zero (Nat.le_zero.mp h), List.zip_nil_right, List.zip_nil_right]
  | cons a as ih =>
    cases bs with
    | nil => rfl
    | cons b bs =>
      rw [List.cons_append, List.zip_cons_cons, List.zip_cons_cons, ih (Nat.le_of_succ_le_succ h)]

lemma pairwise_product {α β : Type} {R : α → α → Prop} {S : β → β → Prop} {as : List α}
    {bs : List β} (has : as.Pairwise R) (hbs : bs.Pairwise S) :
    (as ×ˢ bs).Pairwise (Prod.Lex R S) := by
  refine List.pairwise_flatMap.mpr ⟨fun a _ => ?_, has.imp fun {a b} hab => ?_⟩
  · exact List.pairwise_map.mpr (hbs.imp fun h => Prod.Lex.right a h)
  · intro p hp q hq
    obtain ⟨c, -, rfl⟩ := List.mem_map.mp hp
    obtain ⟨d, -, rfl⟩ := List.mem_map.mp hq
    exact Prod.Lex.left c d hab

end Recombine.Sequence
