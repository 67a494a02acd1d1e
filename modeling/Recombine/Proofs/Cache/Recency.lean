import Recombine.Cache.Recency
import Recombine.Proofs.KeyMaps

/-! A cache is a list in order of use: the numbers of last uses differ and are bounded by the number
of all uses, and sorted by them the entries behave like the list. -/

namespace Recombine

section Orders

variable {m : KeyMap CacheEntry} {es : List (String × CacheEntry)} {key : String} {e : CacheEntry}

def lastUse (e : String × CacheEntry) : Nat := e.2.lastUsed

def byUse (m : KeyMap CacheEntry) : List (String × CacheEntry) :=
  m.entries.mergeSort fun e f => decide (lastUse e ≤ lastUse f)

def UsedApart (m : KeyMap CacheEntry) : Prop := (m.entries.map lastUse).Nodup

lemma byUse_perm (m : KeyMap CacheEntry) : (byUse m).Perm m.entries := List.mergeSort_perm _ _

lemma byUse_empty : byUse ∅ = [] := List.perm_nil.mp (byUse_perm ∅)

lemma byUse_pairwise_le (m : KeyMap CacheEntry) :
    (byUse m).Pairwise fun x y => lastUse x ≤ lastUse y :=
  Sequence.pairwise_mergeSort_le lastUse m.entries

lemma UsedApart.byUse_pairwise (h : UsedApart m) :
    (byUse m).Pairwise fun x y => lastUse x < lastUse y := by
  have hne : (byUse m).Pairwise fun x y => lastUse x ≠ lastUse y :=
    List.pairwise_map.mp (((byUse_perm m).map lastUse).nodup_iff.mpr h)
  exact (byUse_pairwise_le m).imp₂ (fun _ _ => Nat.lt_of_le_of_ne) hne

lemma byUse_eq (hperm : m.entries.Perm es)
    (hsorted : es.Pairwise fun x y => lastUse x < lastUse y) : byUse m = es :=
  Sequence.mergeSort_eq_of_perm hperm hsorted

lemma UsedApart.filter (h : UsedApart m) (p : String → CacheEntry → Bool) :
    UsedApart (m.filter p) := h.sublist (List.filter_sublist.map lastUse)

lemma UsedApart.byUse_filter (h : UsedApart m) (p : String → CacheEntry → Bool) :
    byUse (m.filter p) = (byUse m).filter fun x => p x.1 x.2 :=
  byUse_eq ((byUse_perm m).filter _).symm (h.byUse_pairwise.filter _)

lemma entries_insert_perm (m : KeyMap CacheEntry) (key : String) (e : CacheEntry) :
    (m.insert key e).entries.Perm ((m.erase key).entries ++ [(key, e)]) := by
  have hnot : ∀ x ∈ (m.erase key).entries, x ≠ (key, e) := by
    rintro ⟨k, f⟩ hx heq
    cases heq
    rw [← KeyMap.get?_eq_some_iff, KeyMap.get?_erase, if_pos rfl] at hx
    cases hx
  have hnodup : ((m.erase key).entries ++ [(key, e)]).Nodup := by
    rw [List.nodup_append]
    refine ⟨(m.erase key).entries_nodup, List.nodup_singleton _, fun x hx y hy => ?_⟩
    rw [List.mem_singleton.mp hy]
    exact hnot x hx
  rw [List.perm_ext_iff_of_nodup (KeyMap.entries_nodup _) hnodup]
  rintro ⟨k, f⟩
  rw [List.mem_append, List.mem_singleton, ← KeyMap.get?_eq_some_iff, ← KeyMap.get?_eq_some_iff,
    KeyMap.get?_insert, KeyMap.get?_erase, Prod.mk.injEq]
  by_cases hk : k = key
  · simp [hk, eq_comm]
  · simp [hk]

lemma UsedApart.insert (h : UsedApart m) (hlast : ∀ x ∈ m.entries, lastUse x < e.lastUsed) :
    UsedApart (m.insert key e) := by
  rw [UsedApart, ((entries_insert_perm m key e).map lastUse).nodup_iff, List.map_append,
    List.nodup_append]
  refine ⟨h.filter _, List.nodup_singleton _, fun n hn l hl => ?_⟩
  obtain ⟨x, hx, rfl⟩ := List.mem_map.mp hn
  rw [List.map_singleton, List.mem_singleton] at hl
  rw [hl]
  exact Nat.ne_of_lt (hlast x (List.mem_filter.mp hx).1)

lemma UsedApart.byUse_insert (h : UsedApart m) (hlast : ∀ x ∈ m.entries, lastUse x < e.lastUsed) :
    byUse (m.insert key e) = ((byUse m).filter fun x => x.1 != key) ++ [(key, e)] := by
  apply byUse_eq
  · exact (entries_insert_perm m key e).trans (((byUse_perm m).symm.filter _).append_right _)
  · rw [List.pairwise_append]
    refine ⟨h.byUse_pairwise.filter _, List.pairwise_singleton _ _, fun x hx y hy => ?_⟩
    rw [List.mem_singleton.mp hy]
    exact hlast x ((byUse_perm m).mem_iff.mp (List.mem_filter.mp hx).1)

lemma lessRecent_foldl_mem (es : List (String × CacheEntry)) (x : String × CacheEntry) :
    es.foldl Cache.lessRecent x ∈ x :: es := by
  induction es generalizing x with
  | nil => exact List.mem_cons_self
  | cons y es ih =>
    rw [List.foldl_cons]
    rcases List.mem_cons.mp (ih (Cache.lessRecent x y)) with hhead | htail
    · rw [hhead, Cache.lessRecent]
      split
      · exact List.mem_cons_of_mem x List.mem_cons_self
      · exact List.mem_cons_self
    · exact List.mem_cons_of_mem x (List.mem_cons_of_mem y htail)

lemma lastUse_lessRecent_le (x y : String × CacheEntry) :
    lastUse (Cache.lessRecent x y) ≤ lastUse x ∧ lastUse (Cache.lessRecent x y) ≤ lastUse y := by
  rw [Cache.lessRecent]
  split
  next hlt => exact ⟨Nat.le_of_lt hlt, Nat.le_refl _⟩
  next hle => exact ⟨Nat.le_refl _, Nat.not_lt.mp hle⟩

lemma lastUse_foldl_le (es : List (String × CacheEntry)) (x : String × CacheEntry) :
    ∀ y ∈ x :: es, lastUse (es.foldl Cache.lessRecent x) ≤ lastUse y := by
  induction es generalizing x with
  | nil =>
    intro y hy
    rw [List.mem_singleton.mp hy]
    exact Nat.le_refl _
  | cons z es ih =>
    obtain ⟨hx, hz⟩ := lastUse_lessRecent_le x z
    obtain ⟨hleast, hrest⟩ := List.forall_mem_cons.mp (ih (Cache.lessRecent x z))
    rw [List.foldl_cons]
    exact List.forall_mem_cons.mpr
      ⟨hleast.trans hx, List.forall_mem_cons.mpr ⟨hleast.trans hz, hrest⟩⟩

lemma UsedApart.leastRecent?_eq {c : Cache} (h : UsedApart c.entries) :
    c.leastRecent? = (byUse c.entries).head?.map Prod.fst := by
  have hperm := byUse_perm c.entries
  rw [Cache.leastRecent?]
  cases hentries : c.entries.entries with
  | nil =>
    rw [hentries, List.perm_nil] at hperm
    rw [hperm]
    rfl
  | cons x es =>
    have hmem := lessRecent_foldl_mem es x
    have hle := lastUse_foldl_le es x
    rw [← hentries] at hmem hle
    cases hbyUse : byUse c.entries with
    | nil =>
      rw [hbyUse, List.nil_perm, hentries] at hperm
      cases hperm
    | cons y rest =>
      have hsorted := h.byUse_pairwise
      rw [hbyUse, List.pairwise_cons] at hsorted
      rw [hbyUse] at hperm
      have hfirst : es.foldl Cache.lessRecent x = y := by
        rcases List.mem_cons.mp (hperm.mem_iff.mpr hmem) with heq | hrest
        · exact heq
        · have hy := hle y (hperm.mem_iff.mp List.mem_cons_self)
          exact absurd (hsorted.1 _ hrest) (Nat.not_lt.mpr hy)
      dsimp only
      rw [hfirst]
      rfl

end Orders

def CacheEntry.held (x : String × CacheEntry) : Held where
  key := x.1
  outputs := x.2.outputs
  storedAt := x.2.storedAt
  lifetime := x.2.lifetime

namespace Cache

variable {c : Cache} {now : Nat} {key : String}

def shelf (c : Cache) : Shelf where
  capacity := c.capacity
  lifetime := c.lifetime
  held := (byUse c.entries).map CacheEntry.held

structure Ticked (c : Cache) : Prop where
  apart : UsedApart c.entries
  bounded : ∀ x ∈ c.entries.entries, lastUse x ≤ c.uses

lemma length_held (c : Cache) : c.shelf.held.length = c.size := by
  rw [shelf, List.length_map, (byUse_perm c.entries).length_eq]
  rfl

lemma mem_held_iff {h : Held} : h ∈ c.shelf.held ↔
    ∃ e, c.entries.get? h.key = some e ∧ CacheEntry.held (h.key, e) = h := by
  rw [shelf, List.mem_map]
  constructor
  · rintro ⟨x, hx, rfl⟩
    exact ⟨x.2, KeyMap.get?_eq_some_iff.mpr ((byUse_perm _).mem_iff.mp hx), rfl⟩
  · rintro ⟨e, he, heq⟩
    exact ⟨(h.key, e), (byUse_perm _).mem_iff.mpr (KeyMap.get?_eq_some_iff.mp he), heq⟩

lemma keys_held (c : Cache) : c.shelf.held.map Held.key = (byUse c.entries).map Prod.fst := by
  rw [shelf, List.map_map]
  rfl

lemma keys_held_perm (c : Cache) : (c.shelf.held.map Held.key).Perm c.entries.keys := by
  rw [keys_held]
  exact (byUse_perm c.entries).map Prod.fst

lemma keys_held_nodup (c : Cache) : (c.shelf.held.map Held.key).Nodup :=
  c.keys_held_perm.nodup_iff.mpr c.entries.keys_nodup

lemma find?_held (c : Cache) (key : String) : (c.shelf.held.find? fun h => h.key == key) =
    (c.entries.get? key).map fun e => CacheEntry.held (key, e) := by
  cases hentry : c.entries.get? key with
  | none =>
    rw [Option.map_none, List.find?_eq_none]
    intro h hh hkey
    obtain ⟨e, he, -⟩ := mem_held_iff.mp hh
    rw [beq_iff_eq.mp hkey, hentry] at he
    cases he
  | some e =>
    have hmem : CacheEntry.held (key, e) ∈ c.shelf.held := mem_held_iff.mpr ⟨e, hentry, rfl⟩
    exact Sequence.find?_of_nodup c.keys_held_nodup hmem

lemma others_shelf (c : Cache) (key : String) : c.shelf.others key =
    ((byUse c.entries).filter fun x => x.1 != key).map CacheEntry.held := List.filter_map

lemma isExpired_held (x : String × CacheEntry) (now : Nat) :
    (CacheEntry.held x).isExpired now = x.2.isExpired now := rfl

section Steps

lemma Ticked.shelf_erase (h : c.Ticked) : (byUse (c.entries.erase key)).map CacheEntry.held =
    c.shelf.others key := by
  rw [others_shelf, KeyMap.erase, h.apart.byUse_filter]

lemma Ticked.lt_next (h : c.Ticked) : ∀ x ∈ c.entries.entries, lastUse x < c.uses + 1 :=
  fun x hx => Nat.lt_succ_of_le (h.bounded x hx)

lemma bounded_insert {m : KeyMap CacheEntry} {e : CacheEntry} {n : Nat}
    (h : ∀ x ∈ m.entries, lastUse x ≤ n) (he : e.lastUsed ≤ n) :
    ∀ x ∈ (m.insert key e).entries, lastUse x ≤ n := by
  intro x hx
  rcases List.mem_append.mp ((entries_insert_perm m key e).mem_iff.mp hx) with hx | hx
  · exact h x (List.mem_filter.mp hx).1
  · rw [List.mem_singleton.mp hx]
    exact he

lemma Ticked.get (h : c.Ticked) (now : Nat) (key : String) : (c.get now key).2.Ticked ∧
    (c.get now key).1 = (c.shelf.get now key).1 ∧
    (c.get now key).2.shelf = (c.shelf.get now key).2 := by
  rw [Cache.get, Shelf.get, find?_held]
  cases hentry : c.entries.get? key with
  | none => exact ⟨⟨h.apart, fun x hx => Nat.le_of_lt (h.lt_next x hx)⟩, rfl, rfl⟩
  | some e =>
    dsimp only [Option.map_some]
    rw [isExpired_held]
    split
    next =>
      refine ⟨⟨h.apart.filter _, fun x hx => ?_⟩, rfl, ?_⟩
      · exact Nat.le_of_lt (h.lt_next x (List.mem_filter.mp hx).1)
      · rw [← h.shelf_erase]
        rfl
    next =>
      refine ⟨⟨h.apart.insert h.lt_next, ?_⟩, rfl, ?_⟩
      · exact bounded_insert (fun x hx => Nat.le_of_lt (h.lt_next x hx)) (Nat.le_refl _)
      · rw [others_shelf, shelf, h.apart.byUse_insert h.lt_next, List.map_append]
        rfl

lemma Ticked.evict (h : c.Ticked) : c.evict.Ticked ∧ c.evict.uses = c.uses ∧
    c.evict.capacity = c.capacity ∧ c.evict.lifetime = c.lifetime ∧
    c.evict.shelf.held = c.shelf.held.tail := by
  rw [Cache.evict, h.apart.leastRecent?_eq]
  cases hbyUse : byUse c.entries with
  | nil =>
    have hheld : c.shelf.held = [] := by
      rw [shelf, hbyUse]
      rfl
    refine ⟨h, rfl, rfl, rfl, ?_⟩
    rw [hheld]
    exact hheld
  | cons x rest =>
    refine ⟨⟨h.apart.filter _, fun y hy => h.bounded y (List.mem_filter.mp hy).1⟩, rfl, rfl,
      rfl, ?_⟩
    have hkeys := c.keys_held_nodup
    rw [keys_held, hbyUse, List.map_cons, List.nodup_cons] at hkeys
    have hrest : (rest.filter fun y => y.1 != x.1) = rest := by
      refine List.filter_eq_self.mpr fun y hy => ?_
      rw [bne_iff_ne]
      intro heq
      exact hkeys.1 (heq ▸ List.mem_map_of_mem hy)
    dsimp only [List.head?_cons, Option.map_some]
    rw [shelf, h.shelf_erase, others_shelf, shelf, hbyUse, List.filter_cons_of_neg (by simp), hrest]
    rfl

lemma others_eq_self (h : c.entries.contains key = false) : c.shelf.others key = c.shelf.held := by
  refine List.filter_eq_self.mpr fun x hx => ?_
  obtain ⟨e, he, -⟩ := mem_held_iff.mp hx
  rw [bne_iff_ne]
  intro heq
  rw [KeyMap.contains_eq_isSome, ← heq, he] at h
  cases h

lemma length_others_lt (h : c.entries.contains key = true) :
    (c.shelf.others key).length < c.size := by
  rw [KeyMap.contains_iff, ← c.keys_held_perm.mem_iff] at h
  obtain ⟨x, hx, rfl⟩ := List.mem_map.mp h
  rw [← length_held]
  exact List.length_filter_lt_length_iff_exists.mpr ⟨x, hx, by simp⟩

lemma Ticked.makeRoom (h : c.Ticked) (hsize : c.size ≤ c.capacity) (key : String) :
    (c.makeRoom key).Ticked ∧ (c.makeRoom key).uses = c.uses ∧
      (c.makeRoom key).capacity = c.capacity ∧ (c.makeRoom key).lifetime = c.lifetime ∧
      (c.makeRoom key).shelf.others key = c.shelf.kept key := by
  rw [Cache.makeRoom, Shelf.kept]
  have hcapacity : c.shelf.capacity = c.capacity := rfl
  cases hcontains : c.entries.contains key with
  | true =>
    have hlt := length_others_lt hcontains
    rw [if_neg (by simp), if_pos (by omega)]
    exact ⟨h, rfl, rfl, rfl, rfl⟩
  | false =>
    rw [others_eq_self hcontains, length_held]
    by_cases hfull : c.capacity ≤ c.size
    · obtain ⟨hticked, huses, hcap, hlifetime, hheld⟩ := h.evict
      rw [if_pos ⟨hfull, rfl⟩, if_neg (by omega)]
      refine ⟨hticked, huses, hcap, hlifetime, ?_⟩
      rw [Shelf.others, hheld]
      refine List.filter_eq_self.mpr fun x hx => ?_
      have hmem : x ∈ c.shelf.others key := by
        rw [others_eq_self hcontains]
        exact List.mem_of_mem_tail hx
      exact (List.mem_filter.mp hmem).2
    · rw [if_neg (by simp [hfull]), if_pos (by omega)]
      exact ⟨h, rfl, rfl, rfl, others_eq_self hcontains⟩

lemma Ticked.put (h : c.Ticked) (hsize : c.size ≤ c.capacity) (outputs : Relations)
    (lifetime : Option Nat) : (c.put now key outputs lifetime).Ticked ∧
      (c.put now key outputs lifetime).shelf = c.shelf.put now key outputs lifetime := by
  obtain ⟨hticked, huses, hcap, hlifetime, hothers⟩ := h.makeRoom hsize key
  have hcapacity : c.shelf.capacity = c.capacity := rfl
  rw [Cache.put, Shelf.put, ← hothers, hcapacity]
  split
  next => exact ⟨h, rfl⟩
  next =>
    refine ⟨⟨hticked.apart.insert hticked.lt_next, ?_⟩, ?_⟩
    · exact bounded_insert (fun x hx => Nat.le_of_lt (hticked.lt_next x hx)) (Nat.le_refl _)
    · rw [others_shelf, shelf, hticked.apart.byUse_insert hticked.lt_next, List.map_append]
      dsimp only
      rw [hcap, hlifetime]
      rfl

lemma ticked_clear (c : Cache) : c.clear.Ticked ∧ c.clear.shelf = c.shelf.clear := by
  refine ⟨⟨List.nodup_nil, fun x hx => nomatch hx⟩, ?_⟩
  rw [Cache.clear, shelf, byUse_empty]
  rfl

lemma Ticked.sweep (h : c.Ticked) : (c.sweep now).Ticked ∧
    (c.sweep now).shelf = c.shelf.sweep now := by
  refine ⟨⟨h.apart.filter _, fun x hx => h.bounded x (List.mem_filter.mp hx).1⟩, ?_⟩
  rw [Cache.sweep, Shelf.sweep, shelf]
  dsimp only
  rw [h.apart.byUse_filter, shelf, List.filter_map]
  rfl

lemma Ticked.answer (h : c.Ticked) (hsize : c.size ≤ c.capacity) (call : CacheCall) :
    (c.answer call).2.Ticked ∧ (c.answer call).1 = (c.shelf.answer call).1 ∧
      (c.answer call).2.shelf = (c.shelf.answer call).2 := by
  -- One step of the simulation: a call gives the same on both sides and keeps them alike.
  cases call with
  | get now key => exact h.get now key
  | put now key outputs lifetime =>
    obtain ⟨hticked, hshelf⟩ := h.put hsize outputs lifetime
    exact ⟨hticked, rfl, hshelf⟩
  | clear => exact ⟨c.ticked_clear.1, rfl, c.ticked_clear.2⟩
  | sweep now => exact ⟨h.sweep.1, rfl, h.sweep.2⟩

end Steps

end Cache

namespace Shelf

variable {s : Shelf}

lemma capacity_answer (s : Shelf) (call : CacheCall) :
    (s.answer call).2.capacity = s.capacity ∧ (s.answer call).2.lifetime = s.lifetime := by
  cases call with
  | get now key =>
    rw [answer, get]
    split
    next => exact ⟨rfl, rfl⟩
    next => split <;> exact ⟨rfl, rfl⟩
  | put now key outputs lifetime =>
    rw [answer, put]
    split <;> exact ⟨rfl, rfl⟩
  | clear => exact ⟨rfl, rfl⟩
  | sweep now => exact ⟨rfl, rfl⟩

lemma get_cases (s : Shelf) (hkeys : (s.held.map Held.key).Nodup) (now : Nat) (key : String) :
    (∃ x ∈ s.held, x.key = key ∧ x.isExpired now = false ∧
      (s.get now key).1 = some x.outputs ∧ (s.get now key).2.held = s.others key ++ [x]) ∨
    ((s.get now key).1 = none ∧ (s.get now key).2.held = s.others key ∧
      ∀ x ∈ s.held, x.key = key → x.isExpired now = true) := by
  rw [get]
  cases hfind : s.held.find? fun x => x.key == key with
  | none =>
    have hnone : ∀ x ∈ s.held, x.key ≠ key := by simpa using hfind
    refine Or.inr ⟨rfl, ?_, fun x hx hkey => absurd hkey (hnone x hx)⟩
    exact (List.filter_eq_self.mpr fun x hx => bne_iff_ne.mpr (hnone x hx)).symm
  | some x =>
    have hx : x ∈ s.held := List.mem_of_find?_eq_some hfind
    have hkey : x.key = key := by simpa using List.find?_some hfind
    cases hexpired : x.isExpired now with
    | false => exact Or.inl ⟨x, hx, hkey, hexpired, by simp [hexpired], by simp [hexpired]⟩
    | true =>
      refine Or.inr ⟨by simp [hexpired], by simp [hexpired], fun y hy hkey' => ?_⟩
      rw [List.inj_on_of_nodup_map hkeys hy hx (hkey'.trans hkey.symm)]
      exact hexpired

lemma run_settings (s : Shelf) (calls : List CacheCall) :
    (s.run calls).capacity = s.capacity ∧ (s.run calls).lifetime = s.lifetime := by
  induction calls generalizing s with
  | nil => exact ⟨rfl, rfl⟩
  | cons call calls ih =>
    obtain ⟨hcapacity, hlifetime⟩ := s.capacity_answer call
    rw [← hcapacity, ← hlifetime]
    exact ih (s.answer call).2

lemma length_others_le (s : Shelf) (key : String) : (s.others key).length ≤ s.held.length :=
  List.length_filter_le _ _

lemma length_kept_lt (h : s.held.length ≤ s.capacity) (hpos : s.capacity ≠ 0) (key : String) :
    (s.kept key).length < s.capacity := by
  have hle := s.length_others_le key
  rw [kept]
  split
  next hlt => exact hlt
  next =>
    rw [List.length_tail]
    omega

lemma length_answer_le (hkeys : (s.held.map Held.key).Nodup) (h : s.held.length ≤ s.capacity)
    (call : CacheCall) : (s.answer call).2.held.length ≤ s.capacity := by
  cases call with
  | get now key =>
    rw [answer]
    rcases s.get_cases hkeys now key with ⟨x, hx, rfl, -, -, hheld⟩ | ⟨-, hheld, -⟩
    · have hlt : (s.others x.key).length < s.held.length :=
        List.length_filter_lt_length_iff_exists.mpr ⟨x, hx, by simp⟩
      rw [hheld, List.length_append, List.length_singleton]
      omega
    · rw [hheld]
      exact (s.length_others_le key).trans h
  | put now key outputs lifetime =>
    rw [answer, put]
    split
    next => exact h
    next hpos =>
      have hlt := length_kept_lt h hpos key
      rw [List.length_append, List.length_singleton]
      omega
  | clear => exact Nat.zero_le _
  | sweep now => exact (List.length_filter_le _ _).trans h

end Shelf

namespace Cache

structure Sound (c : Cache) : Prop where
  ticked : c.Ticked
  size_le : c.size ≤ c.capacity

lemma Sound.answer {c : Cache} (h : c.Sound) (call : CacheCall) : (c.answer call).2.Sound := by
  obtain ⟨hticked, -, hshelf⟩ := h.ticked.answer h.size_le call
  refine ⟨hticked, ?_⟩
  have hcapacity := congrArg Shelf.capacity hshelf
  rw [(c.shelf.capacity_answer call).1] at hcapacity
  have hlen := c.length_held.trans_le h.size_le
  have hlen := Shelf.length_answer_le c.keys_held_nodup hlen call
  rw [← hshelf, length_held] at hlen
  exact hlen.trans_eq hcapacity.symm

theorem Sound.run {c : Cache} (h : c.Sound) (calls : List CacheCall) :
    (c.run calls).Sound ∧ c.answers calls = c.shelf.answers calls ∧
      (c.run calls).shelf = c.shelf.run calls := by
  induction calls generalizing c with
  | nil => exact ⟨h, rfl, rfl⟩
  | cons call calls ih =>
    obtain ⟨-, hreply, hshelf⟩ := h.ticked.answer h.size_le call
    obtain ⟨hsound, hreplies, hrun⟩ := ih (h.answer call)
    refine ⟨hsound, ?_, ?_⟩
    · rw [Cache.answers, Shelf.answers, hreply, hreplies, hshelf]
    · rw [Cache.run, List.foldl_cons, ← Cache.run, hrun, hshelf]
      rfl

end Cache

end Recombine
