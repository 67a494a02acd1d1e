import Mathlib.Data.List.Induction
import Recombine.Proofs.Cache.Recency

/-! What a cache holds after any calls, told by the calls: the latest outputs under each key, until
they are cleared, found expired or, as those that were used least recently, give way. -/

namespace Recombine

def CacheCall.Puts (key : String) : CacheCall → Prop
  | .put _ k _ _ => k = key
  | _ => False

namespace Cache

def fresh (capacity lifetime : Nat) : Cache := { capacity, lifetime }

def Uses (c : Cache) (key : String) : CacheCall → Prop
  | .get now k => k = key ∧ (c.get now k).1.isSome = true
  | .put _ k _ _ => k = key
  | _ => False

structure UsedLast (c : Cache) (calls : List CacheCall) (key : String) (place : Nat) : Prop where
  used : ∃ call, calls[place]? = some call ∧ (c.run (calls.take place)).Uses key call
  unused : ∀ later call, place < later → calls[later]? = some call →
    ¬ (c.run (calls.take later)).Uses key call

def Oldest (c : Cache) (calls : List CacheCall) (key : String) : Prop :=
  key ∈ (c.run calls).entries.keys ∧ ∀ other ∈ (c.run calls).entries.keys, other ≠ key →
    ∀ place place', c.UsedLast calls key place → c.UsedLast calls other place' → place < place'

def Drops (c : Cache) (calls : List CacheCall) (h : Held) : CacheCall → Prop
  | .get now key => key = h.key ∧ h.isExpired now = true
  | .put _ key _ _ => key ∉ (c.run calls).entries.keys ∧ (c.run calls).size = c.capacity ∧
    c.Oldest calls h.key
  | .clear => True
  | .sweep now => h.isExpired now = true

/-- One of the calls stores the entry, and none after it replaces it or takes it away. -/
def Stands (c : Cache) (calls : List CacheCall) (h : Held) : Prop :=
  ∃ before lifetime after, h.lifetime = lifetime.getD c.lifetime ∧
    calls = before ++ .put h.storedAt h.key h.outputs lifetime :: after ∧
    ∀ mid call rest, after = mid ++ call :: rest → ¬ call.Puts h.key ∧
      ¬ c.Drops (before ++ .put h.storedAt h.key h.outputs lifetime :: mid) h call

variable {c : Cache} {calls : List CacheCall} {call : CacheCall} {key : String} {place : Nat}

lemma run_concat (c : Cache) (calls : List CacheCall) (call : CacheCall) :
    c.run (calls ++ [call]) = ((c.run calls).answer call).2 := by
  rw [run, List.foldl_append]
  rfl

section Uses

lemma UsedLast.lt_length (h : c.UsedLast calls key place) : place < calls.length := by
  obtain ⟨call, hcall, -⟩ := h.used
  exact (List.getElem?_eq_some_iff.mp hcall).1

lemma UsedLast.unique (h : c.UsedLast calls key place) {place' : Nat}
    (h' : c.UsedLast calls key place') : place = place' := by
  obtain ⟨call, hcall, huses⟩ := h.used
  obtain ⟨call', hcall', huses'⟩ := h'.used
  rcases Nat.lt_trichotomy place place' with hlt | heq | hlt
  · exact absurd huses' (h.unused place' call' hlt hcall')
  · exact heq
  · exact absurd huses (h'.unused place call hlt hcall)

lemma usedLast_concat (h : (c.run calls).Uses key call) :
    c.UsedLast (calls ++ [call]) key calls.length := by
  constructor
  · refine ⟨call, List.getElem?_concat_length, ?_⟩
    rwa [List.take_left]
  · intro later call' hlt hcall'
    have hlen := (List.getElem?_eq_some_iff.mp hcall').1
    rw [List.length_append, List.length_singleton] at hlen
    omega

lemma UsedLast.concat (h : c.UsedLast calls key place) (hnot : ¬ (c.run calls).Uses key call) :
    c.UsedLast (calls ++ [call]) key place := by
  constructor
  · obtain ⟨used, hused, huses⟩ := h.used
    refine ⟨used, ?_, ?_⟩
    · rwa [List.getElem?_append_left h.lt_length]
    · rwa [List.take_append_of_le_length (Nat.le_of_lt h.lt_length)]
  · intro later call' hlt hcall'
    have hlen := (List.getElem?_eq_some_iff.mp hcall').1
    rw [List.length_append, List.length_singleton] at hlen
    rcases Nat.lt_or_ge later calls.length with hlater | hlater
    · rw [List.getElem?_append_left hlater] at hcall'
      rw [List.take_append_of_le_length (Nat.le_of_lt hlater)]
      exact h.unused later call' hlt hcall'
    · obtain rfl : later = calls.length := by omega
      rw [List.getElem?_concat_length] at hcall'
      cases hcall'
      rwa [List.take_left]

lemma kept_sublist (s : Shelf) (key : String) : (s.kept key).Sublist (s.others key) := by
  rw [Shelf.kept]
  split
  · exact List.Sublist.refl _
  · exact List.tail_sublist _

lemma ne_of_mem_others {s : Shelf} {x : Held} (hx : x ∈ s.others key) : key ≠ x.key := by
  have hne := (List.mem_filter.mp hx).2
  exact (bne_iff_ne.mp hne).symm

lemma held_eq_nil (h : c.Sound) (hzero : c.capacity = 0) : c.shelf.held = [] := by
  have hsize := h.size_le
  rw [hzero, ← length_held] at hsize
  exact List.eq_nil_of_length_eq_zero (Nat.le_zero.mp hsize)

lemma Sound.held_answer (h : c.Sound) (call : CacheCall) : ∃ kept used,
    (c.answer call).2.shelf.held = kept ++ used ∧ kept.Sublist c.shelf.held ∧
      (∀ x ∈ kept, ¬ c.Uses x.key call) ∧ ∀ x ∈ used, used = [x] ∧ c.Uses x.key call := by
  obtain ⟨-, hreply, hshelf⟩ := h.ticked.answer h.size_le call
  rw [hshelf]
  cases call with
  | get now key =>
    have hreply : (c.get now key).1 = (c.shelf.get now key).1 := hreply
    rw [Shelf.answer]
    rcases c.shelf.get_cases c.keys_held_nodup now key with
      ⟨x, -, hkey, -, hfound, hheld⟩ | ⟨hnone, hheld, -⟩
    · refine ⟨_, [x], hheld, List.filter_sublist, ?_, ?_⟩
      · exact fun y hy huses => ne_of_mem_others hy huses.1
      · intro y hy
        obtain rfl := List.mem_singleton.mp hy
        exact ⟨rfl, hkey.symm, by rw [hreply, hfound]; rfl⟩
    · refine ⟨_, [], hheld.trans (List.append_nil _).symm, List.filter_sublist, ?_,
        List.forall_mem_nil _⟩
      exact fun y hy huses => ne_of_mem_others hy huses.1
  | put now key outputs lifetime =>
    rw [Shelf.answer, Shelf.put]
    split
    next hzero =>
      exact ⟨[], [], held_eq_nil h hzero, List.nil_sublist _, List.forall_mem_nil _,
        List.forall_mem_nil _⟩
    next =>
      refine ⟨_, _, rfl, (kept_sublist _ key).trans List.filter_sublist, ?_, ?_⟩
      · exact fun x hx => ne_of_mem_others ((kept_sublist _ key).subset hx)
      · intro x hx
        obtain rfl := List.mem_singleton.mp hx
        exact ⟨rfl, rfl⟩
  | clear =>
    exact ⟨[], [], rfl, List.nil_sublist _, List.forall_mem_nil _, List.forall_mem_nil _⟩
  | sweep now =>
    exact ⟨_, [], (List.append_nil _).symm, List.filter_sublist, fun x _ => id,
      List.forall_mem_nil _⟩

structure Ordered (c : Cache) (calls : List CacheCall) : Prop where
  used : ∀ x ∈ (c.run calls).shelf.held, ∃ place, c.UsedLast calls x.key place
  pairwise : (c.run calls).shelf.held.Pairwise fun x y =>
    ∀ place place', c.UsedLast calls x.key place → c.UsedLast calls y.key place' → place < place'

lemma Ordered.concat (h : c.Ordered calls) (hsound : (c.run calls).Sound) (call : CacheCall) :
    c.Ordered (calls ++ [call]) := by
  obtain ⟨kept, used, hheld, hsub, hkept, hused⟩ := hsound.held_answer call
  have hold : ∀ x ∈ kept, ∃ place, c.UsedLast calls x.key place ∧
      c.UsedLast (calls ++ [call]) x.key place := by
    intro x hx
    obtain ⟨place, hplace⟩ := h.used x (hsub.subset hx)
    exact ⟨place, hplace, hplace.concat (hkept x hx)⟩
  have hnew : ∀ x ∈ used, c.UsedLast (calls ++ [call]) x.key calls.length :=
    fun x hx => usedLast_concat (hused x hx).2
  constructor
  · rw [run_concat, hheld]
    intro x hx
    rcases List.mem_append.mp hx with hx | hx
    · obtain ⟨place, -, hplace⟩ := hold x hx
      exact ⟨place, hplace⟩
    · exact ⟨_, hnew x hx⟩
  · rw [run_concat, hheld, List.pairwise_append]
    refine ⟨?_, ?_, ?_⟩
    · refine (h.pairwise.sublist hsub).imp_of_mem fun {x y} hx hy hlt place place' hp hp' => ?_
      obtain ⟨m, hm, hm'⟩ := hold x hx
      obtain ⟨n, hn, hn'⟩ := hold y hy
      rw [hp.unique hm', hp'.unique hn']
      exact hlt m n hm hn
    · cases used with
      | nil => exact List.Pairwise.nil
      | cons x rest =>
        rw [(hused x List.mem_cons_self).1]
        exact List.pairwise_singleton _ _
    · -- What the call uses has been used after everything else.
      intro x hx y hy place place' hp hp'
      obtain ⟨m, hm, hm'⟩ := hold x hx
      rw [hp.unique hm', hp'.unique (hnew y hy)]
      exact hm.lt_length

end Uses

lemma mem_keys_iff_held : key ∈ c.entries.keys ↔ ∃ x ∈ c.shelf.held, x.key = key := by
  rw [← c.keys_held_perm.mem_iff, List.mem_map]

lemma Ordered.oldest_iff (h : c.Ordered calls) :
    c.Oldest calls key ↔ (c.run calls).shelf.held.head?.map Held.key = some key := by
  have hpairwise := h.pairwise
  have hused := h.used
  have hkeys := (c.run calls).keys_held_nodup
  rw [Oldest]
  simp only [mem_keys_iff_held]
  cases hheld : (c.run calls).shelf.held with
  | nil =>
    refine iff_of_false (fun hold => ?_) (fun hhead => nomatch hhead)
    obtain ⟨⟨x, hx, -⟩, -⟩ := hold
    cases hx
  | cons first rest =>
    rw [hheld] at hpairwise hused hkeys
    obtain ⟨hfirst, -⟩ := List.pairwise_cons.mp hpairwise
    rw [List.map_cons, List.nodup_cons] at hkeys
    rw [List.head?_cons, Option.map_some, Option.some.injEq]
    constructor
    · rintro ⟨⟨x, hx, rfl⟩, hold⟩
      by_contra hne
      have hrest : x ∈ rest := (List.mem_cons.mp hx).resolve_left fun heq => hne (heq ▸ rfl)
      obtain ⟨place, hplace⟩ := hused first List.mem_cons_self
      obtain ⟨place', hplace'⟩ := hused x hx
      have hlt := hold first.key ⟨first, List.mem_cons_self, rfl⟩ hne place' place hplace' hplace
      exact Nat.lt_asymm hlt (hfirst x hrest place place' hplace hplace')
    · rintro rfl
      refine ⟨⟨first, List.mem_cons_self, rfl⟩, ?_⟩
      rintro _ ⟨x, hx, rfl⟩ hne
      exact hfirst x ((List.mem_cons.mp hx).resolve_left fun heq => hne (heq ▸ rfl))

lemma held_run_nil (hempty : c.entries = ∅) : (c.run []).shelf.held = [] := by
  rw [run, List.foldl_nil, shelf, hempty, byUse_empty]
  rfl

section Histories

variable (hsound : c.Sound)

include hsound

lemma run_settings (calls : List CacheCall) :
    (c.run calls).capacity = c.capacity ∧ (c.run calls).lifetime = c.lifetime := by
  have hshelf := (hsound.run calls).2.2
  obtain ⟨hcapacity, hlifetime⟩ := c.shelf.run_settings calls
  rw [← hshelf] at hcapacity hlifetime
  exact ⟨hcapacity, hlifetime⟩

lemma ordered_run (hempty : c.entries = ∅) (calls : List CacheCall) : c.Ordered calls := by
  induction calls using List.reverseRecOn with
  | nil =>
    constructor
    · rw [held_run_nil hempty]
      exact List.forall_mem_nil _
    · rw [held_run_nil hempty]
      exact List.Pairwise.nil
  | append_singleton calls call ih => exact ih.concat (hsound.run calls).1 call

lemma mem_kept_iff (h : c.Ordered calls) (x : Held) : x ∈ (c.run calls).shelf.kept key ↔
    x ∈ (c.run calls).shelf.held ∧ key ≠ x.key ∧ ¬ (key ∉ (c.run calls).entries.keys ∧
      (c.run calls).size = c.capacity ∧ c.Oldest calls x.key) := by
  obtain ⟨hcapacity, -⟩ := run_settings hsound calls
  have hsize := (hsound.run calls).1.size_le
  have hshelf : (c.run calls).shelf.capacity = (c.run calls).capacity := rfl
  rw [Shelf.kept]
  cases hcontains : (c.run calls).entries.contains key with
  | true =>
    have hmem := KeyMap.contains_iff.mp hcontains
    have hlt := length_others_lt hcontains
    rw [if_pos (by omega), Shelf.others, List.mem_filter, bne_iff_ne]
    exact and_congr_right fun _ => ⟨fun hne => ⟨hne.symm, fun hdrop => hdrop.1 hmem⟩,
      fun hne => hne.1.symm⟩
  | false =>
    have hnot : key ∉ (c.run calls).entries.keys := by
      rw [← KeyMap.contains_iff, hcontains]
      exact Bool.false_ne_true
    have hne : ∀ y ∈ (c.run calls).shelf.held, key ≠ y.key := by
      intro y hy heq
      exact hnot (mem_keys_iff_held.mpr ⟨y, hy, heq.symm⟩)
    rw [others_eq_self hcontains, length_held]
    by_cases hfull : (c.run calls).size < (c.run calls).shelf.capacity
    · rw [if_pos hfull]
      refine ⟨fun hx => ⟨hx, hne x hx, fun hdrop => ?_⟩, fun hx => hx.1⟩
      have hsame := hdrop.2.1
      omega
    · -- The list is full of other keys, and its first entry is the oldest one.
      have hsame : (c.run calls).size = c.capacity := by omega
      rw [if_neg hfull, Sequence.mem_tail_iff_of_nodup (c.run calls).keys_held_nodup, Ne,
        ← h.oldest_iff]
      constructor
      · rintro ⟨hx, hyoung⟩
        exact ⟨hx, hne x hx, fun hdrop => hyoung hdrop.2.2⟩
      · rintro ⟨hx, -, hkeep⟩
        exact ⟨hx, fun hold => hkeep ⟨hnot, hsame, hold⟩⟩

lemma mem_put_iff (hpos : c.capacity ≠ 0) (h : c.Ordered calls) (now : Nat) (key : String)
    (outputs : Relations) (lifetime : Option Nat) (x : Held) :
    x ∈ ((c.run calls).shelf.put now key outputs lifetime).held ↔
      x = { key, outputs, storedAt := now, lifetime := lifetime.getD c.lifetime } ∨
      x ∈ (c.run calls).shelf.held ∧ key ≠ x.key ∧ ¬ (key ∉ (c.run calls).entries.keys ∧
        (c.run calls).size = c.capacity ∧ c.Oldest calls x.key) := by
  obtain ⟨hcapacity, hlifetime⟩ := run_settings hsound calls
  have hshelf : (c.run calls).shelf.capacity = c.capacity := hcapacity
  have hshelf' : (c.run calls).shelf.lifetime = c.lifetime := hlifetime
  rw [Shelf.put, hshelf, hshelf', if_neg hpos]
  dsimp only
  rw [List.mem_append, List.mem_singleton, mem_kept_iff hsound h, or_comm]

lemma mem_held_concat_iff (hpos : c.capacity ≠ 0) (h : c.Ordered calls) (call : CacheCall)
    (x : Held) : x ∈ (c.run (calls ++ [call])).shelf.held ↔
      (∃ lifetime, x.lifetime = lifetime.getD c.lifetime ∧
        call = .put x.storedAt x.key x.outputs lifetime) ∨
      x ∈ (c.run calls).shelf.held ∧ ¬ call.Puts x.key ∧ ¬ c.Drops calls x call := by
  have hrun := (hsound.run calls).1
  rw [run_concat, (hrun.ticked.answer hrun.size_le call).2.2]
  cases call with
  | get now key =>
    refine Iff.trans ?_ (or_iff_right (by rintro ⟨_, -, ⟨⟩⟩)).symm
    rw [Shelf.answer]
    rcases (c.run calls).shelf.get_cases (c.run calls).keys_held_nodup now key with
      ⟨y, hy, hkey, hfresh, -, hheld⟩ | ⟨-, hheld, hexpired⟩
    · rw [hheld, List.mem_append, List.mem_singleton, Shelf.others, List.mem_filter, bne_iff_ne]
      constructor
      · rintro (⟨hx, hne⟩ | rfl)
        · exact ⟨hx, id, fun hdrop => hne hdrop.1.symm⟩
        · exact ⟨hy, id, fun hdrop => Bool.false_ne_true (hfresh.symm.trans hdrop.2)⟩
      · rintro ⟨hx, -, -⟩
        by_cases hsame : x.key = key
        · exact Or.inr (List.inj_on_of_nodup_map (c.run calls).keys_held_nodup hx hy
            (hsame.trans hkey.symm))
        · exact Or.inl ⟨hx, hsame⟩
    · rw [hheld, Shelf.others, List.mem_filter, bne_iff_ne]
      refine and_congr_right fun hx => ⟨fun hne => ⟨id, fun hdrop => hne hdrop.1.symm⟩, ?_⟩
      exact fun hkeep hsame => hkeep.2 ⟨hsame.symm, hexpired x hx hsame⟩
  | put now key outputs lifetime =>
    rw [Shelf.answer, mem_put_iff hsound hpos h]
    refine or_congr ?_ Iff.rfl
    constructor
    · rintro rfl
      exact ⟨lifetime, rfl, rfl⟩
    · rintro ⟨lifetime', hlifetime, heq⟩
      cases heq
      rw [← hlifetime]
  | clear =>
    refine iff_of_false List.not_mem_nil ?_
    rintro (⟨_, -, hput⟩ | ⟨-, -, hkeep⟩)
    · cases hput
    · exact hkeep trivial
  | sweep now =>
    refine Iff.trans ?_ (or_iff_right (by rintro ⟨_, -, ⟨⟩⟩)).symm
    rw [Shelf.answer, Shelf.sweep, List.mem_filter, Bool.not_eq_true', ← Bool.not_eq_true]
    exact and_congr_right fun _ => ⟨fun hkeep => ⟨id, hkeep⟩, fun hkeep => hkeep.2⟩

omit hsound in
lemma stands_concat_iff (call : CacheCall) (x : Held) : c.Stands (calls ++ [call]) x ↔
    (∃ lifetime, x.lifetime = lifetime.getD c.lifetime ∧
      call = .put x.storedAt x.key x.outputs lifetime) ∨
    c.Stands calls x ∧ ¬ call.Puts x.key ∧ ¬ c.Drops calls x call := by
  constructor
  · rintro ⟨before, lifetime, after, hlifetime, hcalls, hkeep⟩
    rcases Sequence.concat_eq_append_cons hcalls with ⟨-, rfl, -⟩ | ⟨after', rfl, rfl⟩
    · exact Or.inl ⟨lifetime, hlifetime, rfl⟩
    · refine Or.inr ⟨⟨before, lifetime, after', hlifetime, rfl, ?_⟩, hkeep after' call [] rfl⟩
      intro mid other rest hafter
      exact hkeep mid other (rest ++ [call]) (by rw [hafter, List.append_assoc]; rfl)
  · rintro (⟨lifetime, hlifetime, rfl⟩ | ⟨⟨before, lifetime, after, hlifetime, rfl, hkeep⟩, hlast⟩)
    · refine ⟨calls, lifetime, [], hlifetime, rfl, fun mid other rest hafter => ?_⟩
      cases mid <;> cases hafter
    · refine ⟨before, lifetime, after ++ [call], hlifetime, by rw [List.append_assoc]; rfl, ?_⟩
      intro mid other rest hafter
      rcases Sequence.concat_eq_append_cons hafter with ⟨-, rfl, rfl⟩ | ⟨rest', rfl, rfl⟩
      · exact hlast
      · exact hkeep mid other rest' rfl

theorem mem_held_iff_stands (hpos : c.capacity ≠ 0) (hempty : c.entries = ∅)
    (calls : List CacheCall) (x : Held) : x ∈ (c.run calls).shelf.held ↔ c.Stands calls x := by
  induction calls using List.reverseRecOn with
  | nil =>
    rw [held_run_nil hempty]
    refine iff_of_false List.not_mem_nil ?_
    rintro ⟨before, lifetime, after, -, hcalls, -⟩
    cases before <;> cases hcalls
  | append_singleton calls call ih =>
    rw [mem_held_concat_iff hsound hpos (ordered_run hsound hempty calls), stands_concat_iff, ih]

end Histories

section Operations

variable {now : Nat} {outputs : Relations} {lifetime : Option Nat}

lemma get?_put_of_ne (hpos : c.capacity ≠ 0) {k : String} (hne : k ≠ key) :
    (c.put now key outputs lifetime).entries.get? k = (c.makeRoom key).entries.get? k := by
  rw [put, if_neg hpos]
  dsimp only
  rw [KeyMap.get?_insert, if_neg hne]

lemma makeRoom_of_room (h : key ∈ c.entries.keys ∨ c.size < c.capacity) : c.makeRoom key = c := by
  rw [makeRoom]
  refine if_neg fun hfull => ?_
  rcases h with hmem | hroom
  · rw [KeyMap.contains_iff.mpr hmem] at hfull
    cases hfull.2
  · omega

lemma get?_makeRoom_of_full (hfull : c.capacity ≤ c.size) (hnew : key ∉ c.entries.keys)
    {victim : String} (hvictim : c.leastRecent? = some victim) (k : String) :
    (c.makeRoom key).entries.get? k = if k = victim then none else c.entries.get? k := by
  have hcontains : c.entries.contains key = false := by
    rw [← Bool.not_eq_true, KeyMap.contains_iff]
    exact hnew
  rw [makeRoom, if_pos ⟨hfull, by rw [hcontains]; rfl⟩, evict, hvictim]
  exact KeyMap.get?_erase _ _ _

lemma Ticked.leastRecent?_eq (h : c.Ticked) :
    c.leastRecent? = c.shelf.held.head?.map Held.key := by
  rw [h.apart.leastRecent?_eq, shelf, List.head?_map, Option.map_map]
  rfl

lemma Ordered.exists_victim (h : c.Ordered calls) (hsound : (c.run calls).Sound)
    (hnew : key ∉ (c.run calls).entries.keys)
    (hfull : (c.run calls).size = (c.run calls).capacity) (hpos : (c.run calls).capacity ≠ 0) :
    ∃ victim, c.Oldest calls victim ∧ (∀ other, c.Oldest calls other → other = victim) ∧
      ∀ k, k ≠ key → ((c.run calls).put now key outputs lifetime).entries.get? k =
        if k = victim then none else (c.run calls).entries.get? k := by
  have hne : (c.run calls).shelf.held ≠ [] := by
    rw [← List.length_pos_iff, length_held]
    omega
  obtain ⟨x, rest, hheld⟩ := List.exists_cons_of_ne_nil hne
  have hhead : (c.run calls).shelf.held.head?.map Held.key = some x.key := by
    rw [hheld]
    rfl
  refine ⟨x.key, h.oldest_iff.mpr hhead, fun other hother => ?_, fun k hk => ?_⟩
  · exact Option.some.inj ((h.oldest_iff.mp hother).symm.trans hhead)
  · rw [get?_put_of_ne hpos hk]
    apply get?_makeRoom_of_full hfull.ge hnew
    rw [hsound.ticked.leastRecent?_eq, hhead]

lemma get_eq_some_iff (h : c.Sound) : (c.get now key).1 = some outputs ↔
    ∃ x ∈ c.shelf.held, x.key = key ∧ x.outputs = outputs ∧ x.isExpired now = false := by
  rw [(h.ticked.get now key).2.1]
  rcases c.shelf.get_cases c.keys_held_nodup now key with
    ⟨x, hx, hkey, hfresh, hfound, -⟩ | ⟨hnone, -, hexpired⟩
  · rw [hfound, Option.some.injEq]
    constructor
    · intro houtputs
      exact ⟨x, hx, hkey, houtputs, hfresh⟩
    · rintro ⟨y, hy, hkey', houtputs, -⟩
      rw [List.inj_on_of_nodup_map c.keys_held_nodup hx hy (hkey.trans hkey'.symm)]
      exact houtputs
  · rw [hnone]
    refine iff_of_false (fun hsome => nomatch hsome) ?_
    rintro ⟨x, hx, hkey, -, hfresh⟩
    exact Bool.false_ne_true (hfresh.symm.trans (hexpired x hx hkey))

lemma held_get_of_none (h : c.Sound) (hnone : (c.get now key).1 = none) :
    (c.get now key).2.shelf.held = c.shelf.others key := by
  obtain ⟨-, hreply, hshelf⟩ := h.ticked.get now key
  rw [hreply] at hnone
  rw [hshelf]
  rcases c.shelf.get_cases c.keys_held_nodup now key with ⟨x, -, -, -, hfound, -⟩ | ⟨-, hheld, -⟩
  · cases hnone.symm.trans hfound
  · exact hheld

lemma held_put_of_mem (h : c.Sound) (hmem : key ∈ c.entries.keys) :
    (c.put now key outputs lifetime).shelf.held = c.shelf.others key ++
      [{ key, outputs, storedAt := now, lifetime := lifetime.getD c.lifetime }] := by
  have hlt := length_others_lt (KeyMap.contains_iff.mpr hmem)
  have hsize := h.size_le
  have hshelf : c.shelf.capacity = c.capacity := rfl
  rw [(h.ticked.put h.size_le outputs lifetime).2, Shelf.put, if_neg (by omega), Shelf.kept,
    if_pos (by omega)]
  rfl

end Operations

/-- A cache after any calls: it has answered like the list, of which no more than the capacity is
held, and what it finds, puts out and keeps in order is told by the calls. -/
structure KeepsRecent (capacity lifetime : Nat) (c : Cache) (calls : List CacheCall) : Prop where
  answers : c.answers calls = ({ capacity, lifetime } : Shelf).answers calls
  order : (c.run calls).shelf = ({ capacity, lifetime } : Shelf).run calls
  size_le : (c.run calls).size ≤ capacity
  found : ∀ now key outputs, ((c.run calls).get now key).1 = some outputs ↔ capacity ≠ 0 ∧
    ∃ x, c.Stands calls x ∧ x.key = key ∧ x.outputs = outputs ∧ x.isExpired now = false
  used : ∀ key ∈ (c.run calls).entries.keys, ∃ place, c.UsedLast calls key place
  evicts : ∀ now key outputs lifetime, key ∉ (c.run calls).entries.keys →
    (c.run calls).size = capacity → capacity ≠ 0 →
      ∃ victim, c.Oldest calls victim ∧ (∀ other, c.Oldest calls other → other = victim) ∧
        ∀ k, k ≠ key → ((c.run calls).put now key outputs lifetime).entries.get? k =
          if k = victim then none else (c.run calls).entries.get? k
  keeps : ∀ now key outputs lifetime, key ∈ (c.run calls).entries.keys ∨
    (c.run calls).size < capacity → ∀ k, k ≠ key →
      ((c.run calls).put now key outputs lifetime).entries.get? k = (c.run calls).entries.get? k
  replaces : ∀ now key outputs life, key ∈ (c.run calls).entries.keys →
    ((c.run calls).put now key outputs life).shelf.held = (c.run calls).shelf.others key ++
      [{ key, outputs, storedAt := now, lifetime := life.getD lifetime }]
  misses : ∀ now key, ((c.run calls).get now key).1 = none →
    ((c.run calls).get now key).2.shelf.held = (c.run calls).shelf.others key

lemma sound_fresh (capacity lifetime : Nat) : (fresh capacity lifetime).Sound :=
  ⟨⟨List.nodup_nil, List.forall_mem_nil _⟩, Nat.zero_le _⟩

lemma shelf_fresh (capacity lifetime : Nat) :
    (fresh capacity lifetime).shelf = { capacity, lifetime } := by
  rw [shelf, fresh, byUse_empty]
  rfl

theorem run_fresh_keepsRecent (capacity lifetime : Nat) (calls : List CacheCall) :
    KeepsRecent capacity lifetime (fresh capacity lifetime) calls := by
  have hfresh := sound_fresh capacity lifetime
  obtain ⟨hrun, hanswers, hshelf⟩ := hfresh.run calls
  have hordered := ordered_run hfresh rfl calls
  have hsettings := run_settings hfresh calls
  have hcapacity : ((fresh capacity lifetime).run calls).capacity = capacity := hsettings.1
  have hlifetime : ((fresh capacity lifetime).run calls).lifetime = lifetime := hsettings.2
  rw [shelf_fresh] at hanswers hshelf
  exact {
    answers := hanswers
    order := hshelf
    size_le := hrun.size_le.trans_eq hcapacity
    found := by
      intro now key outputs
      rw [get_eq_some_iff hrun]
      by_cases hzero : capacity = 0
      · rw [held_eq_nil hrun (hcapacity.trans hzero)]
        refine iff_of_false ?_ fun hpos => hpos.1 hzero
        rintro ⟨x, hx, -⟩
        cases hx
      · have hstands := mem_held_iff_stands hfresh hzero rfl calls
        simp only [hstands, and_iff_right hzero]
    used := by
      intro key hkey
      obtain ⟨x, hx, rfl⟩ := mem_keys_iff_held.mp hkey
      exact hordered.used x hx
    evicts := fun now key outputs life hnew hfull hpos =>
      hordered.exists_victim hrun hnew (hfull.trans hcapacity.symm) (hcapacity.trans_ne hpos)
    keeps := by
      intro now key outputs life hroom k hk
      by_cases hzero : capacity = 0
      · rw [put, if_pos (hcapacity.trans hzero)]
      · rw [get?_put_of_ne (hcapacity.trans_ne hzero) hk]
        rw [makeRoom_of_room (hroom.imp_right fun hlt => hlt.trans_eq hcapacity.symm)]
    replaces := by
      intro now key outputs life hmem
      rw [held_put_of_mem hrun hmem, hlifetime]
    misses := fun now key hnone => held_get_of_none hrun hnone }

end Cache

end Recombine
