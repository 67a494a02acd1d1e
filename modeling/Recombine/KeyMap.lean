namespace Recombine

universe u v

variable {α : Type u} {β : Type v}

structure KeyMap (α : Type u) where
  entries : List (String × α)
  ascending : entries.Pairwise fun x y => x.1 < y.1

namespace KeyMap

@[ext] theorem ext {m n : KeyMap α} (h : m.entries = n.entries) : m = n := by
  cases m; cases n; cases h; rfl

def empty : KeyMap α := ⟨[], .nil⟩

instance : EmptyCollection (KeyMap α) := ⟨empty⟩

instance : Inhabited (KeyMap α) := ⟨empty⟩

instance [DecidableEq α] : DecidableEq (KeyMap α) := fun m n =>
  decidable_of_iff (m.entries = n.entries) ⟨ext, fun h => h ▸ rfl⟩

def place (k : String) (a : α) : List (String × α) → List (String × α)
  | [] => [(k, a)]
  | e :: es =>
    if k < e.1 then (k, a) :: e :: es
    else if k = e.1 then (k, a) :: es
    else e :: place k a es

theorem fst_mem_place {k : String} {a : α} {es : List (String × α)} {x : String × α}
    (h : x ∈ place k a es) : x.1 = k ∨ x ∈ es := by
  induction es with
  | nil => simp_all [place]
  | cons e es ih =>
    simp only [place] at h
    split at h
    · simp_all
      rcases h with rfl | h <;> simp_all
    · split at h
      · simp_all
        rcases h with rfl | h <;> simp_all
      · rcases List.mem_cons.1 h with rfl | h
        · simp
        · rcases ih h with h | h <;> simp [h]

theorem lt_of_not_lt_of_ne {x y : String} (h : ¬ x < y) (hne : x ≠ y) : y < x := by
  rcases String.le_total x y with hle | hle
  · exact absurd (String.le_antisymm hle (String.not_lt.1 h)) hne
  · exact Decidable.byContradiction fun hn => hne (String.le_antisymm (String.not_lt.1 hn) hle)

theorem place_ascending {k : String} {a : α} {es : List (String × α)}
    (h : es.Pairwise fun x y => x.1 < y.1) : (place k a es).Pairwise fun x y => x.1 < y.1 := by
  induction es with
  | nil => simp [place]
  | cons e es ih =>
    obtain ⟨he, hes⟩ := List.pairwise_cons.1 h
    simp only [place]
    split
    next hk =>
      refine List.pairwise_cons.2 ⟨fun x hx => ?_, h⟩
      rcases List.mem_cons.1 hx with rfl | hx
      · exact hk
      · exact String.lt_trans hk (he x hx)
    next hk =>
      split
      next heq => exact List.pairwise_cons.2 ⟨fun x hx => heq ▸ he x hx, hes⟩
      next hne =>
        refine List.pairwise_cons.2 ⟨fun x hx => ?_, ih hes⟩
        rcases fst_mem_place hx with hx | hx
        · exact hx ▸ lt_of_not_lt_of_ne hk hne
        · exact he x hx

def insert (m : KeyMap α) (k : String) (a : α) : KeyMap α :=
  ⟨place k a m.entries, place_ascending m.ascending⟩

def ofList (es : List (String × α)) : KeyMap α := es.foldl (fun m e => m.insert e.1 e.2) ∅

def ofKeys (ks : List String) : KeyMap Unit := ofList (ks.map fun k => (k, ()))

def get? (m : KeyMap α) (k : String) : Option α :=
  (m.entries.find? fun e => e.1 == k).map Prod.snd

def contains (m : KeyMap α) (k : String) : Bool := m.entries.any fun e => e.1 == k

def keys (m : KeyMap α) : List String := m.entries.map Prod.fst

def values (m : KeyMap α) : List α := m.entries.map Prod.snd

def size (m : KeyMap α) : Nat := m.entries.length

def isEmpty (m : KeyMap α) : Bool := m.entries.isEmpty

def filter (m : KeyMap α) (p : String → α → Bool) : KeyMap α :=
  ⟨m.entries.filter fun e => p e.1 e.2, m.ascending.filter _⟩

def erase (m : KeyMap α) (k : String) : KeyMap α := m.filter fun k' _ => k' != k

theorem size_erase_lt {m : KeyMap α} {k : String} {a : α} (h : m.get? k = some a) :
    (m.erase k).size < m.size := by
  obtain ⟨e, he, -⟩ := Option.map_eq_some_iff.1 h
  refine List.length_filter_lt_length_iff_exists.2 ⟨e, List.mem_of_find?_eq_some he, ?_⟩
  simpa using List.find?_some he

theorem length_filter_place (p : String → α → Bool) {k : String} {a : α} (b : α)
    {es : List (String × α)} (h : es.Pairwise fun x y => x.1 < y.1) (hmem : (k, a) ∈ es) :
    ((place k b es).filter fun e => p e.1 e.2).length + (p k a).toNat =
      (es.filter fun e => p e.1 e.2).length + (p k b).toNat := by
  induction es with
  | nil => cases hmem
  | cons e es ih =>
    obtain ⟨he, hes⟩ := List.pairwise_cons.1 h
    rcases List.mem_cons.1 hmem with rfl | hmem
    · simp only [place, String.lt_irrefl, if_false, if_true, List.filter_cons]
      cases p k a <;> cases p k b <;> simp
    · have hlt := he _ hmem
      have hne : k ≠ e.1 := fun heq => String.lt_irrefl k (heq ▸ hlt)
      have hnot : ¬ k < e.1 := fun h => String.lt_irrefl k (String.lt_trans h hlt)
      have := ih hes hmem
      simp only [place, hnot, hne, if_false, List.filter_cons]
      cases p e.1 e.2 <;> simp <;> omega

theorem size_filter_insert (p : String → α → Bool) {m : KeyMap α} {k : String} {a : α}
    (h : m.get? k = some a) (b : α) :
    ((m.insert k b).filter p).size + (p k a).toNat = (m.filter p).size + (p k b).toNat := by
  obtain ⟨e, he, rfl⟩ := Option.map_eq_some_iff.1 h
  have hk : e.1 = k := by simpa using List.find?_some he
  refine length_filter_place p b m.ascending ?_
  rw [← hk]
  exact List.mem_of_find?_eq_some he

theorem length_place_le (k : String) (a : α) (es : List (String × α)) :
    (place k a es).length ≤ es.length + 1 := by
  induction es with
  | nil => simp [place]
  | cons e es ih =>
    simp only [place]
    split
    · simp
    · split
      · simp
      · simpa using ih

theorem size_insert_le (m : KeyMap α) (k : String) (a : α) : (m.insert k a).size ≤ m.size + 1 :=
  length_place_le k a m.entries

def map (m : KeyMap α) (f : α → β) : KeyMap β :=
  ⟨m.entries.map fun e => (e.1, f e.2), by simpa [List.pairwise_map] using m.ascending⟩

theorem find?_place (k k' : String) (a : α) (es : List (String × α)) :
    (place k a es).find? (fun e => e.1 == k') =
      if k' = k then some (k, a) else es.find? fun e => e.1 == k' := by
  induction es with
  | nil => by_cases h : k' = k <;> simp [place, h, Ne.symm]
  | cons e es ih =>
    simp only [place]
    split
    · by_cases h : k' = k
      · simp [h]
      · simp [List.find?_cons, Ne.symm h, h]
    · split
      next heq =>
        by_cases h : k' = k
        · simp [h]
        · simp [← heq, Ne.symm h, h]
      next hne =>
        by_cases h : k' = k
        · subst h
          simp [Ne.symm hne, ih]
        · simp only [List.find?_cons, ih, h, if_false]

@[simp] theorem get?_empty (k : String) : (∅ : KeyMap α).get? k = none := rfl

theorem get?_insert (m : KeyMap α) (k k' : String) (a : α) :
    (m.insert k a).get? k' = if k' = k then some a else m.get? k' := by
  simp only [get?, insert, find?_place]
  split <;> rfl

theorem get?_erase (m : KeyMap α) (k k' : String) :
    (m.erase k).get? k' = if k' = k then none else m.get? k' := by
  simp only [get?, erase, filter, List.find?_filter]
  by_cases h : k' = k
  · subst h
    simp
  · simp only [h, if_false]
    congr 2
    funext e
    by_cases he : e.1 = k' <;> simp [he, h]

theorem contains_eq_isSome (m : KeyMap α) (k : String) : m.contains k = (m.get? k).isSome := by
  simp only [contains, get?, Option.isSome_map, List.isSome_find?]

theorem keys_nodup (m : KeyMap α) : m.keys.Nodup := by
  rw [keys, List.Nodup, List.pairwise_map]
  exact m.ascending.imp fun {x y} h (heq : x.1 = y.1) => String.lt_irrefl y.1 (heq ▸ h)

end KeyMap

end Recombine
