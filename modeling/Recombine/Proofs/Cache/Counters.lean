import Recombine.Proofs.Cache.Entries
import Recombine.Proofs.Cache.History

/-! The counters of a cache after any calls. Each lookup is a hit or a miss, and every key that has
been added is still there, has been counted when it went, or was cleared. -/

namespace Recombine

def CacheCall.isGet : CacheCall → Bool
  | .get .. => true
  | _ => false

namespace Cache

def total (count : Cache → CacheCall → Nat) (c : Cache) : List CacheCall → Nat
  | [] => 0
  | call :: calls => count c call + total count (c.answer call).2 calls

def lost (before after : Cache) : Nat :=
  before.entries.keys.countP fun key => key ∉ after.entries.keys

def found (c : Cache) : CacheCall → Nat
  | .get now key => (c.get now key).1.isSome.toNat
  | _ => 0

def added (c : Cache) : CacheCall → Nat
  | .put now key outputs lifetime =>
    if key ∉ c.entries.keys ∧ key ∈ (c.put now key outputs lifetime).entries.keys then 1 else 0
  | _ => 0

def cleared (c : Cache) : CacheCall → Nat
  | .clear => c.lost c.clear
  | _ => 0

def swept (c : Cache) : CacheCall → Nat
  | .sweep now => c.lost (c.sweep now)
  | _ => 0

/-- The counters and the number of entries change by what has been counted in between. -/
structure Balance (before after : Cache) (gets found swept added cleared : Nat) : Prop where
  lookups : after.stats.hits + after.stats.misses = before.stats.hits + before.stats.misses + gets
  hits : after.stats.hits = before.stats.hits + found
  expirations : after.stats.expirations + before.stats.misses ≤
    before.stats.expirations + after.stats.misses + swept
  entries : before.size + before.stats.evictions + before.stats.expirations + added =
    after.size + after.stats.evictions + after.stats.expirations + cleared

variable {c d e : Cache} {call : CacheCall} {now : Nat} {key : String}

lemma Balance.refl (c : Cache) : Balance c c 0 0 0 0 0 :=
  ⟨rfl, rfl, Nat.le_refl _, rfl⟩

lemma Balance.trans {g f s a l g' f' s' a' l' : Nat} (h : Balance c d g f s a l)
    (h' : Balance d e g' f' s' a' l') :
    Balance c e (g + g') (f + f') (s + s') (a + a') (l + l') := by
  obtain ⟨hlookups, hhits, hexpirations, hentries⟩ := h
  obtain ⟨hlookups', hhits', hexpirations', hentries'⟩ := h'
  constructor <;> omega

section Entries

lemma lost_add_size {after : Cache} (h : after.entries.keys ⊆ c.entries.keys) :
    c.lost after + after.size = c.size := by
  have hkept : (c.entries.keys.filter (· ∈ after.entries.keys)).Perm after.entries.keys := by
    refine (List.perm_ext_iff_of_nodup (c.entries.keys_nodup.filter _)
      after.entries.keys_nodup).mpr fun key => ?_
    rw [List.mem_filter, decide_eq_true_iff]
    exact and_iff_right_of_imp fun hkey => h hkey
  have hsplit := c.entries.keys.length_eq_countP_add_countP (· ∈ after.entries.keys)
  simp only [decide_eq_true_eq] at hsplit
  rw [List.countP_eq_length_filter, hkept.length_eq] at hsplit
  rw [lost, size, size, KeyMap.size_eq_length_keys, KeyMap.size_eq_length_keys, hsplit]
  exact Nat.add_comm _ _

lemma lost_clear (c : Cache) : c.lost c.clear = c.size := by
  have hsub : c.clear.entries.keys ⊆ c.entries.keys := List.nil_subset _
  exact lost_add_size hsub

lemma lost_sweep_add_size (c : Cache) (now : Nat) :
    c.lost (c.sweep now) + (c.sweep now).size = c.size := by
  refine lost_add_size fun key hkey => ?_
  obtain ⟨e, he⟩ := KeyMap.mem_keys_iff.mp hkey
  exact KeyMap.mem_keys_iff.mpr ⟨e, (KeyMap.get?_filter_eq_some_iff.mp he).1⟩

lemma leastRecent?_mem (h : c.leastRecent? = some key) : key ∈ c.entries.keys := by
  rw [leastRecent?] at h
  split at h
  next => cases h
  next e es hentries =>
    cases h
    rw [KeyMap.keys, hentries]
    exact List.mem_map_of_mem (lessRecent_foldl_mem es e)

end Entries

lemma balance_evict (c : Cache) : Balance c c.evict 0 0 0 0 0 := by
  rw [evict]
  split
  next => exact Balance.refl c
  next least hleast =>
    have hsize := KeyMap.size_erase_of_mem (leastRecent?_mem hleast)
    constructor <;> simp only [size] <;> omega

lemma balance_makeRoom (c : Cache) (key : String) : Balance c (c.makeRoom key) 0 0 0 0 0 := by
  rw [makeRoom]
  split
  next => exact balance_evict c
  next => exact Balance.refl c

lemma mem_keys_makeRoom_iff : key ∈ (c.makeRoom key).entries.keys ↔ key ∈ c.entries.keys := by
  rw [makeRoom]
  split
  next h =>
    have hnot : key ∉ c.entries.keys := by simpa [← KeyMap.contains_iff] using h.2
    refine iff_of_false (fun hmem => hnot ?_) hnot
    rw [evict] at hmem
    split at hmem
    next => exact hmem
    next =>
      rw [KeyMap.erase, KeyMap.keys_filter] at hmem
      exact (List.mem_filter.mp hmem).1
  next => exact Iff.rfl

lemma balance_get (c : Cache) (now : Nat) (key : String) :
    Balance c (c.get now key).2 1 (c.found (.get now key)) 0 0 0 := by
  rw [found, get]
  dsimp only
  split
  next =>
    constructor <;> dsimp only [size, Option.isSome_none, Bool.toNat_false] <;> omega
  next e hentry =>
    have hmem := KeyMap.mem_keys_iff.mpr ⟨e, hentry⟩
    split
    next =>
      have hsize := KeyMap.size_erase_of_mem hmem
      constructor <;> simp only [size, Option.isSome_none, Bool.toNat_false] <;> omega
    next =>
      have hsize := KeyMap.size_insert_of_mem (a := { e with lastUsed := c.uses + 1 }) hmem
      constructor <;> simp only [size, Option.isSome_some, Bool.toNat_true, hsize] <;> omega

lemma size_put (hcapacity : c.capacity ≠ 0) (now : Nat) (key : String) (outputs : Relations)
    (lifetime : Option Nat) : (c.put now key outputs lifetime).size =
      (c.makeRoom key).size + c.added (.put now key outputs lifetime) := by
  have hput : key ∈ (c.put now key outputs lifetime).entries.keys :=
    KeyMap.mem_keys_iff.mpr ⟨_, get?_put hcapacity⟩
  rw [added]
  by_cases hmem : key ∈ c.entries.keys
  · rw [if_neg fun h => h.1 hmem, put, if_neg hcapacity]
    exact KeyMap.size_insert_of_mem (mem_keys_makeRoom_iff.mpr hmem)
  · rw [if_pos ⟨hmem, hput⟩, put, if_neg hcapacity]
    exact KeyMap.size_insert_of_not_mem (mem_keys_makeRoom_iff.not.mpr hmem)

lemma balance_put (c : Cache) (now : Nat) (key : String) (outputs : Relations)
    (lifetime : Option Nat) : Balance c (c.put now key outputs lifetime) 0 0 0
      (c.added (.put now key outputs lifetime)) 0 := by
  by_cases hcapacity : c.capacity = 0
  · rw [added, put, if_pos hcapacity, if_neg fun h => h.1 h.2]
    exact Balance.refl c
  · obtain ⟨hlookups, hhits, hexpirations, hentries⟩ := balance_makeRoom c key
    have hsize := size_put hcapacity now key outputs lifetime
    have hstats : (c.put now key outputs lifetime).stats = (c.makeRoom key).stats := by
      rw [put, if_neg hcapacity]
    constructor <;> rw [hstats] <;> omega

lemma balance_clear (c : Cache) : Balance c c.clear 0 0 0 0 (c.lost c.clear) := by
  have hsize : c.clear.size = 0 := rfl
  rw [lost_clear]
  refine ⟨rfl, rfl, Nat.le_refl _, ?_⟩
  dsimp only [clear] at hsize ⊢
  omega

lemma balance_sweep (c : Cache) (now : Nat) :
    Balance c (c.sweep now) 0 0 (c.lost (c.sweep now)) 0 0 := by
  have hlost := c.lost_sweep_add_size now
  have hstats : (c.sweep now).stats =
      { c.stats with expirations := c.stats.expirations + c.lost (c.sweep now) } := by
    rw [← Nat.sub_eq_of_eq_add hlost.symm]
    rfl
  constructor <;> rw [hstats] <;> dsimp only <;> omega

lemma balance_answer (c : Cache) (call : CacheCall) :
    Balance c (c.answer call).2 (if call.isGet then 1 else 0) (c.found call) (c.swept call)
      (c.added call) (c.cleared call) := by
  cases call with
  | get now key => exact balance_get c now key
  | put now key outputs lifetime => exact balance_put c now key outputs lifetime
  | clear => exact balance_clear c
  | sweep now => exact balance_sweep c now

lemma balance_run (c : Cache) (calls : List CacheCall) :
    Balance c (c.run calls) (calls.countP CacheCall.isGet) (c.total found calls)
      (c.total swept calls) (c.total added calls) (c.total cleared calls) := by
  induction calls generalizing c with
  | nil => exact Balance.refl c
  | cons call calls ih =>
    have h := (balance_answer c call).trans (ih (c.answer call).2)
    rwa [Nat.add_comm (ite _ _ _), ← List.countP_cons] at h

theorem run_fresh_counters (capacity lifetime : Nat) (calls : List CacheCall) :
    let c := fresh capacity lifetime
    let s := (c.run calls).stats
    s.hits + s.misses = calls.countP CacheCall.isGet ∧
      s.hits = c.total found calls ∧
      s.expirations ≤ s.misses + c.total swept calls ∧
      c.total added calls =
        (c.run calls).size + s.evictions + s.expirations + c.total cleared calls := by
  obtain ⟨hlookups, hhits, hexpirations, hentries⟩ := balance_run (fresh capacity lifetime) calls
  have hsize : (fresh capacity lifetime).size = 0 := rfl
  have hstats : (fresh capacity lifetime).stats = {} := rfl
  rw [hstats] at hlookups hhits hexpirations hentries
  dsimp only at *
  refine ⟨by omega, by omega, by omega, by omega⟩

example : ((fresh 1 5).run [.put 0 "a" ∅ none, .put 1 "b" ∅ none, .get 1 "a", .get 1 "b",
    .get 9 "b"]).stats = { hits := 1, misses := 2, evictions := 1, expirations := 1 } := by
  decide

end Cache

end Recombine
