import Mathlib.Data.List.Sort
import Recombine.KeyMap
import Recombine.Proofs.Sequences

namespace Recombine.KeyMap

variable {α : Type}

lemma get?_eq_some_iff {m : KeyMap α} {k : String} {a : α} :
    m.get? k = some a ↔ (k, a) ∈ m.entries := by
  constructor
  · intro h
    obtain ⟨e, he, rfl⟩ := Option.map_eq_some_iff.mp h
    have hk : e.1 = k := by simpa using List.find?_some he
    rw [← hk]
    exact List.mem_of_find?_eq_some he
  · intro h
    rw [get?, Sequence.find?_of_nodup (f := Prod.fst) m.keys_nodup h, Option.map_some]

lemma mem_keys_iff {m : KeyMap α} {k : String} : k ∈ m.keys ↔ ∃ a, m.get? k = some a := by
  simp only [get?_eq_some_iff, keys, List.mem_map, Prod.exists, exists_and_right, exists_eq_right]

lemma contains_iff {m : KeyMap α} {k : String} : m.contains k = true ↔ k ∈ m.keys := by
  rw [contains_eq_isSome, Option.isSome_iff_exists, mem_keys_iff]

lemma keys_ascending (m : KeyMap α) : m.keys.Pairwise (· < ·) :=
  List.pairwise_map.mpr m.ascending

lemma entries_nodup (m : KeyMap α) : m.entries.Nodup :=
  List.Nodup.of_map Prod.fst m.keys_nodup

lemma ext_get? {m n : KeyMap α} (h : ∀ k, m.get? k = n.get? k) : m = n := by
  apply ext
  have hmem : ∀ e, e ∈ m.entries ↔ e ∈ n.entries := by
    rintro ⟨k, a⟩
    rw [← get?_eq_some_iff, ← get?_eq_some_iff, h k]
  have hperm : m.entries.Perm n.entries :=
    (List.perm_ext_iff_of_nodup m.entries_nodup n.entries_nodup).mpr hmem
  refine List.Perm.eq_of_pairwise ?_ m.ascending n.ascending hperm
  intro x y _ _ hxy hyx
  exact absurd (String.lt_trans hxy hyx) (String.lt_irrefl _)

lemma mem_keys_insert {m : KeyMap α} {k k' : String} {a : α} :
    k' ∈ (m.insert k a).keys ↔ k' = k ∨ k' ∈ m.keys := by
  simp only [mem_keys_iff, get?_insert]
  by_cases h : k' = k <;> simp [h]

lemma get?_filter_eq_some_iff {m : KeyMap α} {f : String → α → Bool} {k : String} {a : α} :
    (m.filter f).get? k = some a ↔ m.get? k = some a ∧ f k a = true := by
  rw [get?_eq_some_iff, get?_eq_some_iff, filter, List.mem_filter]

lemma keys_filter (m : KeyMap α) (p : String → Bool) :
    (m.filter fun k _ => p k).keys = m.keys.filter p := by
  rw [keys, keys, List.filter_map]
  rfl

lemma erase_comm (m : KeyMap α) (k l : String) : (m.erase k).erase l = (m.erase l).erase k := by
  apply ext_get?
  intro k'
  simp only [get?_erase]
  split_ifs <;> rfl

def insertAll (m : KeyMap α) (es : List (String × α)) : KeyMap α :=
  es.foldl (fun m e => m.insert e.1 e.2) m

lemma insertAll_append (m : KeyMap α) (es fs : List (String × α)) :
    m.insertAll (es ++ fs) = (m.insertAll es).insertAll fs := List.foldl_append

lemma size_insertAll_le (m : KeyMap α) (es : List (String × α)) :
    (m.insertAll es).size ≤ m.size + es.length := by
  induction es generalizing m with
  | nil => simp [insertAll]
  | cons e es ih =>
    have hrest := ih (m.insert e.1 e.2)
    have hfirst := m.size_insert_le e.1 e.2
    rw [insertAll, List.foldl_cons, ← insertAll, List.length_cons]
    omega

lemma mem_keys_insertAll {m : KeyMap α} {es : List (String × α)} {k : String} :
    k ∈ (m.insertAll es).keys ↔ k ∈ m.keys ∨ k ∈ es.map Prod.fst := by
  induction es generalizing m with
  | nil => simp [insertAll]
  | cons e es ih =>
    rw [insertAll, List.foldl_cons, ← insertAll, ih, mem_keys_insert, List.map_cons, List.mem_cons]
    tauto

lemma get?_insertAll_of_not_mem {m : KeyMap α} {es : List (String × α)} {k : String}
    (h : k ∉ es.map Prod.fst) : (m.insertAll es).get? k = m.get? k := by
  induction es generalizing m with
  | nil => rfl
  | cons e es ih =>
    rw [List.map_cons, List.mem_cons, not_or] at h
    rw [insertAll, List.foldl_cons, ← insertAll, ih h.2, get?_insert, if_neg h.1]

lemma get?_insertAll_of_mem {m : KeyMap α} {es : List (String × α)} {k : String} {a : α}
    (hd : (es.map Prod.fst).Nodup) (h : (k, a) ∈ es) : (m.insertAll es).get? k = some a := by
  induction es generalizing m with
  | nil => cases h
  | cons e es ih =>
    rw [List.map_cons, List.nodup_cons] at hd
    rw [insertAll, List.foldl_cons, ← insertAll]
    rcases List.mem_cons.mp h with rfl | h
    · rw [get?_insertAll_of_not_mem hd.1, get?_insert, if_pos rfl]
    · exact ih hd.2 h

def Fresh (m : KeyMap α) (ks : List String) : Prop := ks.Nodup ∧ ∀ k ∈ ks, k ∉ m.keys

lemma fresh_nil (m : KeyMap α) : m.Fresh [] := ⟨List.nodup_nil, fun _ h => nomatch h⟩

lemma fresh_empty_iff {ks : List String} : (∅ : KeyMap α).Fresh ks ↔ ks.Nodup :=
  and_iff_left fun _ _ => List.not_mem_nil

lemma fresh_append_iff {m : KeyMap α} {es : List (String × α)} {ks : List String} :
    m.Fresh (es.map Prod.fst ++ ks) ↔ m.Fresh (es.map Prod.fst) ∧ (m.insertAll es).Fresh ks := by
  simp only [Fresh, List.nodup_append', mem_keys_insertAll, List.mem_append, List.Disjoint]
  constructor
  · rintro ⟨⟨hes, hks, hdisj⟩, hnew⟩
    refine ⟨⟨hes, fun k hk => hnew k (Or.inl hk)⟩, hks, ?_⟩
    rintro k hk (hold | hmem)
    · exact hnew k (Or.inr hk) hold
    · exact hdisj hmem hk
  · rintro ⟨⟨hes, hnew⟩, hks, hnew'⟩
    refine ⟨⟨hes, hks, fun k hmem hk => hnew' k hk (Or.inr hmem)⟩, ?_⟩
    rintro k (hk | hk)
    · exact hnew k hk
    · exact fun hold => hnew' k hk (Or.inl hold)

lemma ofList_eq (es : List (String × α)) : ofList es = (∅ : KeyMap α).insertAll es := rfl

lemma mem_keys_ofList {es : List (String × α)} {k : String} :
    k ∈ (ofList es).keys ↔ k ∈ es.map Prod.fst := by
  rw [ofList_eq, mem_keys_insertAll]
  exact or_iff_right List.not_mem_nil

lemma mem_entries_ofList {es : List (String × α)} (hd : (es.map Prod.fst).Nodup)
    {e : String × α} : e ∈ (ofList es).entries ↔ e ∈ es := by
  obtain ⟨k, a⟩ := e
  rw [← get?_eq_some_iff]
  constructor
  · intro h
    have hk : k ∈ es.map Prod.fst := mem_keys_ofList.mp (mem_keys_iff.mpr ⟨a, h⟩)
    obtain ⟨⟨k', b⟩, hb, rfl⟩ := List.mem_map.mp hk
    have hb' := get?_insertAll_of_mem (m := ∅) hd hb
    rw [← ofList_eq] at hb'
    rwa [Option.some.inj (h.symm.trans hb')]
  · exact get?_insertAll_of_mem hd

lemma mem_of_mem_entries_insertAll {m : KeyMap α} {es : List (String × α)} {e : String × α}
    (h : e ∈ (m.insertAll es).entries) : e ∈ m.entries ∨ e ∈ es := by
  induction es generalizing m with
  | nil => exact Or.inl h
  | cons f fs ih =>
    rcases ih h with h | h
    · obtain ⟨k, a⟩ := e
      rw [← get?_eq_some_iff, get?_insert] at h
      split at h
      next hk =>
        cases h
        rw [hk]
        exact Or.inr List.mem_cons_self
      next => exact Or.inl (get?_eq_some_iff.mp h)
    · exact Or.inr (List.mem_cons_of_mem f h)

lemma mem_of_mem_entries_ofList {es : List (String × α)} {e : String × α}
    (h : e ∈ (ofList es).entries) : e ∈ es :=
  (mem_of_mem_entries_insertAll h).resolve_left List.not_mem_nil

lemma get?_ofList_eq_some_iff {es : List (String × α)} (hd : (es.map Prod.fst).Nodup) {k : String}
    {a : α} : (ofList es).get? k = some a ↔ (k, a) ∈ es := by
  rw [get?_eq_some_iff, mem_entries_ofList hd]

lemma ofList_congr {es fs : List (String × α)} (hd : (es.map Prod.fst).Nodup)
    (hp : es.Perm fs) : ofList es = ofList fs := by
  have hd' : (fs.map Prod.fst).Nodup := (hp.map Prod.fst).nodup_iff.mp hd
  apply ext_get?
  intro k
  apply Option.ext
  intro a
  rw [get?_ofList_eq_some_iff hd, get?_ofList_eq_some_iff hd', hp.mem_iff]

lemma entries_ofList_perm {es : List (String × α)} (hd : (es.map Prod.fst).Nodup) :
    (ofList es).entries.Perm es :=
  (List.perm_ext_iff_of_nodup (ofList es).entries_nodup (List.Nodup.of_map Prod.fst hd)).mpr
    fun _ => mem_entries_ofList hd

lemma ofList_eq_ofList_iff {es fs : List (String × α)} (hd : (es.map Prod.fst).Nodup)
    (hd' : (fs.map Prod.fst).Nodup) : ofList es = ofList fs ↔ es.Perm fs := by
  constructor
  · intro h
    have hperm := entries_ofList_perm hd
    rw [h] at hperm
    exact hperm.symm.trans (entries_ofList_perm hd')
  · exact ofList_congr hd

lemma ofList_entries (m : KeyMap α) : ofList m.entries = m := by
  apply ext_get?
  intro k
  apply Option.ext
  intro a
  rw [get?_ofList_eq_some_iff m.keys_nodup, get?_eq_some_iff]

lemma get?_map {β : Type} (m : KeyMap α) (f : α → β) (k : String) :
    (m.map f).get? k = (m.get? k).map f := by
  rw [get?, get?, map, List.find?_map]
  simp [Function.comp_def]

lemma keys_map {β : Type} (m : KeyMap α) (f : α → β) : (m.map f).keys = m.keys := by
  rw [keys, keys, map, List.map_map]
  rfl

lemma get?_insertAll (m : KeyMap α) (es : List (String × α)) (k : String) :
    (m.insertAll es).get? k = ((ofList es).get? k).or (m.get? k) := by
  rw [ofList_eq]
  induction es generalizing m with
  | nil => rfl
  | cons e es ih =>
    have hcons (n : KeyMap α) : n.insertAll (e :: es) = (n.insert e.1 e.2).insertAll es := rfl
    rw [hcons, hcons, ih (m.insert e.1 e.2), ih ((∅ : KeyMap α).insert e.1 e.2), get?_insert,
      get?_insert, Option.or_assoc]
    split <;> rfl

lemma get?_ofList_append (es fs : List (String × α)) (k : String) :
    (ofList (es ++ fs)).get? k = ((ofList fs).get? k).or ((ofList es).get? k) := by
  rw [ofList_eq, insertAll_append, get?_insertAll, ← ofList_eq]

lemma mem_keys_ofKeys {ks : List String} {k : String} : k ∈ (ofKeys ks).keys ↔ k ∈ ks := by
  rw [ofKeys, mem_keys_ofList, List.map_map]
  exact ⟨fun h => by simpa using h, fun h => by simpa using h⟩

lemma ofKeys_eq_iff {ks ls : List String} : ofKeys ks = ofKeys ls ↔ ∀ k, k ∈ ks ↔ k ∈ ls := by
  constructor
  · intro h k
    rw [← mem_keys_ofKeys, h, mem_keys_ofKeys]
  · intro h
    apply ext_get?
    intro k
    apply Option.ext
    rintro ⟨⟩
    have hkey : ∀ m : KeyMap Unit, m.get? k = some () ↔ k ∈ m.keys := by
      intro m
      rw [mem_keys_iff]
      exact ⟨fun hk => ⟨(), hk⟩, fun ⟨_, hk⟩ => hk⟩
    rw [hkey, hkey, mem_keys_ofKeys, mem_keys_ofKeys, h k]

lemma nodup_of_ascending {ks : List String} (h : ks.Pairwise (· < ·)) : ks.Nodup := by
  refine h.imp fun {k l} hlt heq => ?_
  rw [heq] at hlt
  exact String.lt_irrefl l hlt

lemma eq_of_ascending {ks ls : List String} (hks : ks.Pairwise (· < ·))
    (hls : ls.Pairwise (· < ·)) (h : ∀ k, k ∈ ks ↔ k ∈ ls) : ks = ls := by
  have hperm : ks.Perm ls :=
    (List.perm_ext_iff_of_nodup (nodup_of_ascending hks) (nodup_of_ascending hls)).mpr h
  refine List.Perm.eq_of_pairwise ?_ hks hls hperm
  intro k l _ _ hkl hlk
  exact absurd (String.lt_trans hkl hlk) (String.lt_irrefl _)

lemma keys_insert_of_mem {m : KeyMap α} {k : String} {a : α} (h : k ∈ m.keys) :
    (m.insert k a).keys = m.keys := by
  apply eq_of_ascending (keys_ascending _) (keys_ascending _)
  intro l
  rw [mem_keys_insert]
  exact ⟨fun hl => hl.elim (fun heq => heq ▸ h) id, Or.inr⟩

lemma size_eq_length_keys (m : KeyMap α) : m.size = m.keys.length :=
  (List.length_map Prod.fst).symm

lemma size_insert_of_mem {m : KeyMap α} {k : String} {a : α} (h : k ∈ m.keys) :
    (m.insert k a).size = m.size := by
  rw [size_eq_length_keys, size_eq_length_keys, keys_insert_of_mem h]

lemma size_insert_of_not_mem {m : KeyMap α} {k : String} {a : α} (h : k ∉ m.keys) :
    (m.insert k a).size = m.size + 1 := by
  have hperm : (m.insert k a).keys.Perm (k :: m.keys) := by
    refine (List.perm_ext_iff_of_nodup (keys_nodup _)
      (List.nodup_cons.mpr ⟨h, m.keys_nodup⟩)).mpr fun l => ?_
    rw [mem_keys_insert, List.mem_cons]
  rw [size_eq_length_keys, size_eq_length_keys, hperm.length_eq, List.length_cons]

lemma size_erase_of_mem {m : KeyMap α} {k : String} (h : k ∈ m.keys) :
    (m.erase k).size + 1 = m.size := by
  rw [size_eq_length_keys, size_eq_length_keys, erase, keys_filter,
    ← List.Nodup.erase_eq_filter m.keys_nodup, List.length_erase_add_one h]

lemma keys_ofKeys_of_ascending {ks : List String} (h : ks.Pairwise (· < ·)) :
    (ofKeys ks).keys = ks :=
  eq_of_ascending (keys_ascending _) h fun _ => mem_keys_ofKeys

end Recombine.KeyMap
