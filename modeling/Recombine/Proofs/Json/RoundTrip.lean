import Recombine.Proofs.Json.Decoding

namespace Recombine.Json

open Attempt

variable {α β : Type}

namespace Decoder

lemma run_text {f : Decoder α} {j : Json} {a : α} (hheight : j.toDoc.height ≤ maxDepth)
    (h : f j.toDoc = .ok a) : f.run j.text = .ok a :=
  run_of_ofText (ofText_text hheight) h

lemma mapM_itemDocs {f : Decoder α} {g : α → Json} {as : List α}
    (h : ∀ a ∈ as, f (g a).toDoc = .ok a) : (itemDocs (as.map g)).mapM f = .ok as := by
  rw [itemDocs_eq, List.map_map, mapM_eq_ok, List.forall₂_map_left_iff, List.forall₂_same]
  exact h

lemma list_toDoc {f : Decoder α} {g : α → Json} {as : List α}
    (h : ∀ a ∈ as, f (g a).toDoc = .ok a) : list f (Json.list g as).toDoc = .ok as := by
  rw [Json.list, toDoc, list, mapM_itemDocs h]
  rfl

lemma strings_toDoc (ss : List String) : list string (strings ss).toDoc = .ok ss :=
  list_toDoc fun _ _ => rfl

lemma entries_toDoc {f : Decoder α} {g : α → Json} {es : List (String × α)}
    (h : ∀ e ∈ es, f (g e.2).toDoc = .ok e.2) :
    entries f (object (es.map fun e => (e.1, g e.2))).toDoc = .ok es := by
  rw [entries_eq_ok_iff, toDoc, memberDocs_eq, List.map_map]
  refine ⟨_, rfl, ?_⟩
  rw [List.forall₂_map_left_iff, List.forall₂_same]
  exact fun e he => ⟨rfl, h e he⟩

lemma keyMap_toDoc {f : Decoder Json} {m : KeyMap Json}
    (h : ∀ e ∈ m.entries, f e.2.toDoc = .ok e.2) :
    keyMap f (object m.entries).toDoc = .ok m := by
  have hentries := entries_toDoc (g := id) h
  rw [show m.entries.map (fun e => (e.1, id e.2)) = m.entries from List.map_id _] at hentries
  exact map_eq_ok.mpr ⟨m.entries, hentries, KeyMap.ofList_entries m⟩

lemma choice_toDoc {f : String → Option α} {s : String} {a : α} (h : f s = some a) :
    choice f (Json.string s).toDoc = .ok a := by
  rw [toDoc, choice, h]

lemma count_eq_ok {d : Doc} {n : Nat} (h : count d = .ok n) : n < 2 ^ 64 := by
  unfold count at h
  split at h
  next =>
    split at h
    next i _ =>
      split at h
      next hi =>
        cases h
        have hsize : (UInt64.size : Int) = 2 ^ 64 := rfl
        omega
      next => cases h
    next => cases h
  next => cases h

lemma option_count_eq_ok {d : Doc} {n : Nat} (h : option count d = .ok (some n)) : n < 2 ^ 64 := by
  unfold option at h
  split at h
  next => cases h
  next =>
    obtain ⟨k, hk, heq⟩ := map_eq_ok.mp h
    cases heq
    exact count_eq_ok hk

lemma option_count_toDoc {n : Option Nat} (h : ∀ k, n = some k → k < 2 ^ 64) :
    option count (ofOption (fun k => int k) n).toDoc = .ok n := by
  cases n with
  | none => rfl
  | some k =>
    have hk := h k rfl
    have hsize : (UInt64.size : Int) = 2 ^ 64 := rfl
    have hcount : count (int k).toDoc = .ok k := by
      rw [toDoc, count, Decimal.int?_integer]
      dsimp only
      rw [if_pos ⟨by omega, by omega⟩]
      rfl
    exact map_eq_ok.mpr ⟨k, hcount, rfl⟩

end Decoder

namespace Record

variable {ms : List (String × Json)} {name : String} {j : Json} {ending : Option Fault}

lemma map_read {g : α → β} {r : Record α} {ns : Members} {a : α} (h : r.read ns = .ok a) :
    (g <$> r).read ns = .ok (g a) :=
  map_read_eq_ok.mpr ⟨a, h, rfl⟩

lemma seq_read {f : Record (α → β)} {r : Record α} {ns : Members} {g : α → β} {a : α}
    (hf : f.read ns = .ok g) (h : r.read ns = .ok a) : (f <*> r).read ns = .ok (g a) :=
  seq_read_eq_ok.mpr ⟨g, a, hf, h, rfl⟩

lemma exists_findIdx? (h : ms.lookup name = some j) : ∃ i,
    (memberDocs ms).findIdx? (fun m => m.1 == some name) = some i ∧
      ((memberDocs ms).map Prod.snd).getD i .null = j.toDoc := by
  induction ms with
  | nil => cases h
  | cons m ms ih =>
    obtain ⟨k, j'⟩ := m
    rw [List.lookup_cons] at h
    rw [memberDocs, List.findIdx?_cons]
    by_cases hk : name = k
    · rw [beq_iff_eq.mpr hk] at h
      cases h
      refine ⟨0, ?_, rfl⟩
      rw [if_pos (beq_iff_eq.mpr (congrArg some hk.symm))]
    · rw [beq_eq_false_iff_ne.mpr hk] at h
      obtain ⟨i, hi, hvalue⟩ := ih h
      refine ⟨i + 1, ?_, hvalue⟩
      have hne : (some k == some name) = false :=
        beq_eq_false_iff_ne.mpr fun heq => hk (Option.some.inj heq).symm
      rw [if_neg (by rw [hne]; decide), hi]
      rfl

lemma findIdx?_eq_none (h : ms.lookup name = none) :
    (memberDocs ms).findIdx? (fun m => m.1 == some name) = none := by
  rw [List.findIdx?_eq_none_iff, memberDocs_eq, List.forall_mem_map]
  intro m hm
  have hne := bne_iff_ne.mp (List.lookup_eq_none_iff.mp h m hm)
  exact beq_eq_false_iff_ne.mpr fun heq => hne (Option.some.inj heq).symm

lemma field_read {f : Decoder α} {absent : Members → Except Located α} {a : α}
    (hj : ms.lookup name = some j) (h : f j.toDoc = .ok a) :
    (field name f absent).read ⟨memberDocs ms, ending⟩ = .ok a := by
  obtain ⟨i, hi, hvalue⟩ := exists_findIdx? hj
  rw [field]
  dsimp only
  rw [hi]
  dsimp only
  rw [hvalue, h]
  rfl

lemma optional_read_absent {f : Decoder α} {default : α} (h : ms.lookup name = none) :
    (optional name default f).read ⟨memberDocs ms, ending⟩ = .ok default := by
  rw [optional, field]
  dsimp only
  rw [findIdx?_eq_none h]

lemma memberFault_eq_none {names seen : List String} (hkeys : (ms.map Prod.fst).Nodup)
    (hseen : ∀ m ∈ ms, m.1 ∉ seen) (hnames : ∀ m ∈ ms, m.1 ∈ names) (i : Nat) :
    memberFault names i seen (memberDocs ms) = none := by
  induction ms generalizing seen i with
  | nil => rfl
  | cons m ms ih =>
    obtain ⟨hm, hkeys⟩ := List.nodup_cons.mp hkeys
    obtain ⟨hnew, hseen⟩ := List.forall_mem_cons.mp hseen
    obtain ⟨hname, hnames⟩ := List.forall_mem_cons.mp hnames
    rw [memberDocs, memberFault, if_pos (List.contains_iff_mem.mpr hname),
      if_neg (by simpa using hnew)]
    refine ih hkeys (fun m' hm' hmem => ?_) hnames (i + 1)
    rcases List.mem_cons.mp hmem with heq | hmem
    · exact hm (heq ▸ List.mem_map_of_mem hm')
    · exact hseen m' hm' hmem

lemma decode_toDoc {r : Record α} {a : α} (hnames : r.names.Nodup)
    (hkeys : (ms.map Prod.fst).Sublist r.names) (h : r.read ⟨memberDocs ms, none⟩ = .ok a) :
    r.decode (object ms).toDoc = .ok a := by
  have hfault : fault r.names ⟨memberDocs ms, none⟩ = .ok () := by
    rw [fault, memberFault_eq_none (hkeys.nodup hnames) (fun _ _ => List.not_mem_nil)
      fun m hm => hkeys.subset (List.mem_map_of_mem hm)]
  rw [decode, toDoc, Members.ofDoc]
  dsimp only [bind, Except.bind]
  rw [if_pos rfl, hfault, h]
  rfl

lemma member?_keys (k : String) (f : α → Json) (o : Option α) :
    ((member? k f o).map Prod.fst).Sublist [k] := by
  cases o with
  | none => exact List.nil_sublist _
  | some a => exact List.Sublist.refl _

lemma option_read_member? {s : Option String}
    (h : ms.lookup name = (member? name .string s).lookup name) :
    (optional name none (.option .string)).read ⟨memberDocs ms, ending⟩ = .ok s := by
  cases s with
  | none => exact optional_read_absent h
  | some s =>
    rw [member?, List.lookup_cons_self] at h
    exact field_read h rfl

end Record

section Values

def IsSettled (j : Json) : Prop := decode j.toDoc = .ok j

lemma isSettled_iff {j : Json} : j.IsSettled ↔ j.toDoc.sound = true ∧ ofDoc j.toDoc = j := by
  rw [IsSettled, decode, Decoder.whole_eq_ok, Except.ok.injEq]

lemma isSettled_int {i : Int} (hmin : Int64.minValue.toInt ≤ i) (hmax : i < UInt64.size) :
    (int i).IsSettled := by
  have habs : i.natAbs < 2 ^ 64 := by
    have hmin' : Int64.minValue.toInt = -2 ^ 63 := rfl
    have hsize : (UInt64.size : Int) = 2 ^ 64 := rfl
    omega
  refine isSettled_iff.mpr ⟨Decimal.float?_integer_isSome habs, ?_⟩
  rw [toDoc, ofDoc, Decimal.int?_integer]
  exact if_pos ⟨hmin, hmax⟩

lemma isSettled_float {x : Float} (h : Number.isFinite x = true) : (float x).IsSettled := by
  rw [isSettled_iff, toDoc, if_pos h, Doc.sound, ofDoc, Decimal.int?_numeral h,
    Decimal.float?_numeral h]
  exact ⟨rfl, rfl⟩

lemma soundItems_itemDocs {js : List Json} (h : ∀ j ∈ js, j.toDoc.sound = true) :
    Doc.soundItems (itemDocs js) = true := by
  rw [Doc.soundItems_iff, itemDocs_eq, List.forall_mem_map]
  exact h

lemma isSettled_array {js : List Json} (h : ∀ j ∈ js, j.IsSettled) : (array js).IsSettled := by
  have hitems : ofItems (itemDocs js) = js := by
    induction js with
    | nil => rfl
    | cons j js ih =>
      obtain ⟨hj, hjs⟩ := List.forall_mem_cons.mp h
      rw [itemDocs, ofItems, (isSettled_iff.mp hj).2, ih hjs]
  have hsound := soundItems_itemDocs fun j hj => (isSettled_iff.mp (h j hj)).1
  rw [isSettled_iff, toDoc, Doc.sound, ofDoc, hsound, hitems]
  exact ⟨rfl, rfl⟩

lemma isSettled_object {m : KeyMap Json} (h : ∀ e ∈ m.entries, e.2.IsSettled) :
    (object m.entries).IsSettled := by
  have hmembers (ms : List (String × Json)) (h : ∀ e ∈ ms, e.2.IsSettled) :
      Doc.soundMembers (memberDocs ms) = true ∧ ofMembers (memberDocs ms) = ms := by
    induction ms with
    | nil => exact ⟨rfl, rfl⟩
    | cons e ms ih =>
      obtain ⟨he, hms⟩ := List.forall_mem_cons.mp h
      obtain ⟨hsound, hvalue⟩ := isSettled_iff.mp he
      obtain ⟨hsounds, hvalues⟩ := ih hms
      rw [memberDocs, Doc.soundMembers, ofMembers, hsound, hsounds, hvalue, hvalues]
      exact ⟨rfl, rfl⟩
  obtain ⟨hsound, hvalue⟩ := hmembers m.entries h
  rw [isSettled_iff, toDoc, Doc.sound, ofDoc, hsound, hvalue, KeyMap.ofList_entries]
  exact ⟨rfl, rfl⟩

lemma IsNormal.isSettled {j : Json} (h : j.IsNormal) : j.IsSettled := by
  induction h with
  | null => rfl
  | bool => rfl
  | int i hmin hmax => exact isSettled_int hmin hmax
  | float x h => exact isSettled_float h
  | string => rfl
  | array js _ ih => exact isSettled_array ih
  | object m _ ih => exact isSettled_object ih

lemma height_array {js : List Json} {n : Nat} (h : ∀ j ∈ js, j.toDoc.height ≤ n) :
    (array js).toDoc.height ≤ n + 1 := by
  refine Nat.succ_le_succ (Doc.itemsHeight_le ?_)
  rw [itemDocs_eq]
  exact List.forall_mem_map.mpr h

lemma height_list {f : α → Json} {as : List α} {n : Nat} (h : ∀ a ∈ as, (f a).toDoc.height ≤ n) :
    (list f as).toDoc.height ≤ n + 1 :=
  height_array (List.forall_mem_map.mpr h)

lemma height_object {ms : List (String × Json)} {n : Nat} (h : ∀ m ∈ ms, m.2.toDoc.height ≤ n) :
    (object ms).toDoc.height ≤ n + 1 := by
  refine Nat.succ_le_succ (Doc.membersHeight_le ?_)
  rw [memberDocs_eq]
  exact List.forall_mem_map.mpr h

lemma height_float (x : Float) : (float x).toDoc.height = 0 := by
  rw [toDoc]
  split <;> rfl

mutual

theorem height_toDoc_ofDoc : ∀ d : Doc, (ofDoc d).toDoc.height ≤ d.height
  | .null | .bool _ | .string _ | .deep | .cut => Nat.zero_le _
  | .number n => by
    rw [ofDoc]
    split
    next =>
      split
      next => exact Nat.zero_le _
      next => exact (height_float _).trans_le (Nat.zero_le _)
    next => exact (height_float _).trans_le (Nat.zero_le _)
  | .array items _ => height_array (height_toDoc_of_mem_ofItems items)
  | .object members _ => height_object fun e he =>
    height_toDoc_of_mem_ofMembers members e (KeyMap.mem_of_mem_entries_ofList he)

theorem height_toDoc_of_mem_ofItems : ∀ ds : List Doc, ∀ j ∈ ofItems ds,
    j.toDoc.height ≤ Doc.itemsHeight ds
  | [], _, hj => nomatch hj
  | d :: ds, j, hj => by
    rcases List.mem_cons.mp hj with rfl | hj
    · exact (height_toDoc_ofDoc d).trans (le_max_left _ _)
    · exact (height_toDoc_of_mem_ofItems ds j hj).trans (le_max_right _ _)

theorem height_toDoc_of_mem_ofMembers : ∀ ms : List (Option String × Doc), ∀ m ∈ ofMembers ms,
    m.2.toDoc.height ≤ Doc.membersHeight ms
  | [], _, hm => nomatch hm
  | (k, d) :: ms, m, hm => by
    rcases List.mem_cons.mp hm with rfl | hm
    · exact (height_toDoc_ofDoc d).trans (le_max_left _ _)
    · exact (height_toDoc_of_mem_ofMembers ms m hm).trans (le_max_right _ _)

end

lemma height_of_decode {d : Doc} {j : Json} (h : decode d = .ok j) : j.toDoc.height ≤ d.height := by
  obtain ⟨-, h⟩ := Decoder.whole_eq_ok.mp h
  cases h
  exact height_toDoc_ofDoc d

end Values

end Recombine.Json
