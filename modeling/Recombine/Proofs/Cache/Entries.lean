import Recombine.Cache.Basic
import Recombine.Cache.Key
import Recombine.Engine.Basic
import Recombine.Proofs.KeyMaps

namespace Recombine

namespace Cache

variable {c : Cache} {now : Nat} {key k : String} {outputs : Relations}

def Holds (c : Cache) (key : String) (outputs : Relations) : Prop :=
  ∃ e, c.entries.get? key = some e ∧ e.outputs = outputs

lemma get_cases (c : Cache) (now : Nat) (key : String) :
    (∃ e, c.entries.get? key = some e ∧ e.isExpired now = false ∧
      (c.get now key).1 = some e.outputs ∧
      (c.get now key).2.entries = c.entries.insert key { e with lastUsed := c.uses + 1 }) ∨
    ((c.get now key).1 = none ∧ ((c.get now key).2.entries = c.entries ∨
      (c.get now key).2.entries = c.entries.erase key)) := by
  rw [get]
  cases hentry : c.entries.get? key with
  | none => exact Or.inr ⟨rfl, Or.inl rfl⟩
  | some e =>
    cases hexpired : e.isExpired now with
    | false => exact Or.inl ⟨e, rfl, hexpired, by simp [hexpired], by simp [hexpired]⟩
    | true => exact Or.inr ⟨by simp [hexpired], Or.inr (by simp [hexpired])⟩

lemma holds_of_get (h : (c.get now key).1 = some outputs) : c.Holds key outputs := by
  rcases c.get_cases now key with ⟨e, hentry, -, hfound, -⟩ | ⟨hfound, -⟩
  · rw [hfound] at h
    exact ⟨e, hentry, Option.some.inj h⟩
  · rw [hfound] at h
    cases h

lemma holds_of_erase {m : KeyMap CacheEntry} {e : CacheEntry}
    (h : (m.erase key).get? k = some e) : m.get? k = some e := by
  rw [KeyMap.get?_erase] at h
  split at h
  next => cases h
  next => exact h

lemma Holds.of_get (h : (c.get now key).2.Holds k outputs) : c.Holds k outputs := by
  obtain ⟨e, hentry, houtputs⟩ := h
  rcases c.get_cases now key with ⟨f, hfound, -, -, hentries⟩ | ⟨-, hentries | hentries⟩
  · rw [hentries, KeyMap.get?_insert] at hentry
    split at hentry
    next heq =>
      cases hentry
      rw [heq]
      exact ⟨f, hfound, houtputs⟩
    next => exact ⟨e, hentry, houtputs⟩
  · rw [hentries] at hentry
    exact ⟨e, hentry, houtputs⟩
  · rw [hentries] at hentry
    exact ⟨e, holds_of_erase hentry, houtputs⟩

lemma Holds.of_makeRoom (h : (c.makeRoom key).Holds k outputs) : c.Holds k outputs := by
  obtain ⟨e, hentry, houtputs⟩ := h
  rw [makeRoom] at hentry
  split at hentry
  next =>
    rw [evict] at hentry
    split at hentry
    next => exact ⟨e, hentry, houtputs⟩
    next => exact ⟨e, holds_of_erase hentry, houtputs⟩
  next => exact ⟨e, hentry, houtputs⟩

lemma Holds.of_put {stored : Relations} {lifetime : Option Nat}
    (h : (c.put now key stored lifetime).Holds k outputs) :
    (k = key ∧ outputs = stored) ∨ c.Holds k outputs := by
  obtain ⟨e, hentry, houtputs⟩ := h
  rw [put] at hentry
  split at hentry
  next => exact Or.inr ⟨e, hentry, houtputs⟩
  next =>
    dsimp only at hentry
    rw [KeyMap.get?_insert] at hentry
    split at hentry
    next heq =>
      cases hentry
      exact Or.inl ⟨heq, houtputs.symm⟩
    next => exact Or.inr (Holds.of_makeRoom ⟨e, hentry, houtputs⟩)

lemma lifetime_makeRoom (c : Cache) (key : String) : (c.makeRoom key).lifetime = c.lifetime := by
  rw [makeRoom, evict]
  split
  next => split <;> rfl
  next => rfl

lemma get_settings (c : Cache) (now : Nat) (key : String) :
    (c.get now key).2.capacity = c.capacity ∧ (c.get now key).2.lifetime = c.lifetime := by
  rw [get]
  split
  next => exact ⟨rfl, rfl⟩
  next => split <;> exact ⟨rfl, rfl⟩

lemma get?_put {lifetime : Option Nat} (hcapacity : c.capacity ≠ 0) :
    (c.put now key outputs lifetime).entries.get? key = some {
      outputs, storedAt := now, lifetime := lifetime.getD c.lifetime
      lastUsed := (c.makeRoom key).uses + 1 } := by
  rw [put, if_neg hcapacity, ← lifetime_makeRoom c key]
  dsimp only
  rw [KeyMap.get?_insert, if_pos rfl]

lemma get_put {now' : Nat} {lifetime : Option Nat} (hcapacity : c.capacity ≠ 0)
    (hlifetime : now' - now ≤ lifetime.getD c.lifetime) :
    ((c.put now key outputs lifetime).get now' key).1 = some outputs := by
  rw [get, get?_put hcapacity]
  dsimp only
  rw [CacheEntry.isExpired, decide_eq_false (Nat.not_lt.mpr hlifetime)]
  rfl

end Cache

lemma Sha256.colon_not_mem_hexOfString (s : String) : ':' ∉ (hexOfString s).toList := by
  have hdigit : ∀ n < 16, Nat.digitChar n ≠ ':' := by decide
  intro h
  rw [hexOfString, hex, String.toList_ofList] at h
  obtain ⟨w, -, hw⟩ := List.mem_flatMap.mp h
  obtain ⟨i, -, hi⟩ := List.mem_map.mp hw
  exact hdigit _ (Nat.mod_lt _ (by decide)) hi

lemma Engine.colon_not_mem_name (e : Engine) : ':' ∉ e.name.toList := by
  cases e <;> decide

lemma Engine.name_inj {e e' : Engine} (h : e.name = e'.name) : e = e' := by
  cases e <;> cases e' <;> first | rfl | exact absurd h (by decide)

lemma cacheKey_inj {dag dag' print print' : String} {e e' : Engine}
    (hprint : ':' ∉ print.toList) (hprint' : ':' ∉ print'.toList)
    (h : cacheKey dag e.name print = cacheKey dag' e'.name print') :
    dag = dag' ∧ e = e' ∧ print = print' := by
  have htoList (dag print : String) (e : Engine) : (cacheKey dag e.name print).toList =
      (dag.toList ++ ':' :: e.name.toList) ++ ':' :: print.toList := by
    simp [cacheKey, String.toList_append]
  have hkeys := congrArg String.toList h
  rw [htoList, htoList] at hkeys
  obtain ⟨hparts, hprints⟩ := Sequence.append_cons_inj_of_not_mem hprint hprint' hkeys
  obtain ⟨hdags, hnames⟩ :=
    Sequence.append_cons_inj_of_not_mem e.colon_not_mem_name e'.colon_not_mem_name hparts
  exact ⟨String.toList_injective hdags, Engine.name_inj (String.toList_injective hnames),
    String.toList_injective hprints⟩

end Recombine
