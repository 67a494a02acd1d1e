import Mathlib.Data.List.Pairwise
import Recombine.Proofs.Json.Decoding

namespace Recombine.Json

open Attempt

variable {α β : Type}

namespace Doc

def HasAtMost (n : Nat) : Doc → Prop
  | .array items _ => items.length ≤ n
  | _ => True

lemma completeItems_iff {ds : List Doc} :
    completeItems ds = true ↔ ∀ d ∈ ds, d.complete = true := by
  induction ds with
  | nil => exact iff_of_true rfl (List.forall_mem_nil _)
  | cons d ds ih => rw [completeItems, Bool.and_eq_true_iff, List.forall_mem_cons, ih]

lemma completeMembers_iff {ms : List (Option String × Doc)} :
    completeMembers ms = true ↔ ∀ m ∈ ms, m.2.complete = true := by
  induction ms with
  | nil => exact iff_of_true rfl (List.forall_mem_nil _)
  | cons m ms ih => rw [completeMembers, Bool.and_eq_true_iff, List.forall_mem_cons, ih]

mutual

theorem complete_of_sound : ∀ d : Doc, d.sound = true → d.complete = true
  | .null, _ | .bool _, _ | .number _, _ | .string _, _ | .deep, _ => by simp [complete]
  | .array items closed, h => by
    obtain ⟨hitems, hclosed⟩ := Bool.and_eq_true_iff.mp h
    exact Bool.and_eq_true_iff.mpr ⟨completeItems_of_sound items hitems, hclosed⟩
  | .object members closed, h => by
    obtain ⟨hmembers, hclosed⟩ := Bool.and_eq_true_iff.mp h
    exact Bool.and_eq_true_iff.mpr ⟨completeMembers_of_sound members hmembers, hclosed⟩

theorem completeItems_of_sound : ∀ ds : List Doc, soundItems ds = true → completeItems ds = true
  | [], _ => rfl
  | d :: ds, h => by
    obtain ⟨hd, hds⟩ := Bool.and_eq_true_iff.mp h
    exact Bool.and_eq_true_iff.mpr ⟨complete_of_sound d hd, completeItems_of_sound ds hds⟩

theorem completeMembers_of_sound : ∀ ms : List (Option String × Doc),
    soundMembers ms = true → completeMembers ms = true
  | [], _ => rfl
  | (k, d) :: ms, h => by
    obtain ⟨hhead, hms⟩ := Bool.and_eq_true_iff.mp h
    obtain ⟨-, hd⟩ := Bool.and_eq_true_iff.mp hhead
    exact Bool.and_eq_true_iff.mpr ⟨complete_of_sound d hd, completeMembers_of_sound ms hms⟩

end

end Doc

namespace Decoder

def Completes (f : Decoder α) : Prop := ∀ d a, f d = .ok a → d.complete = true

variable {f : Decoder α}

lemma Completes.whole (f : Doc → Except Fault α) : (whole f).Completes :=
  fun d _ h => d.complete_of_sound (whole_eq_ok.mp h).1

lemma Completes.map {f : Decoder α} (hf : f.Completes) (g : α → β) :
    Completes fun d => g <$> f d := by
  intro d b h
  obtain ⟨a, ha, -⟩ := map_eq_ok.mp h
  exact hf d a ha

lemma Completes.option (hf : f.Completes) : (option f).Completes := by
  intro d o h
  unfold Decoder.option at h
  split at h
  next => rfl
  next => exact hf.map some d o h

lemma Completes.list (hf : f.Completes) : (list f).Completes := by
  intro d as h
  unfold Decoder.list at h
  split at h
  next items closed =>
    obtain ⟨as', has, h⟩ := bind_eq_ok.mp h
    cases closed with
    | false => cases h
    | true =>
      refine Bool.and_eq_true_iff.mpr ⟨Doc.completeItems_iff.mpr fun item hitem => ?_, rfl⟩
      obtain ⟨a, -, ha⟩ := Sequence.exists_of_mem_left (mapM_eq_ok.mp has) hitem
      exact hf item a ha
  next => cases h

lemma Completes.entries (hf : f.Completes) : (entries f).Completes := by
  intro d es h
  unfold Decoder.entries at h
  split at h
  next members closed =>
    obtain ⟨es', hes, h⟩ := bind_eq_ok.mp h
    cases closed with
    | false => cases h
    | true =>
      refine Bool.and_eq_true_iff.mpr ⟨Doc.completeMembers_iff.mpr ?_, rfl⟩
      rintro ⟨k, d⟩ hmem
      obtain ⟨e, -, he⟩ := Sequence.exists_of_mem_left (mapM_eq_ok.mp hes) hmem
      cases k with
      | none => cases he
      | some k =>
        obtain ⟨a, ha, -⟩ := map_eq_ok.mp he
        exact hf d a ha
  next => cases h

lemma Completes.keyMap (hf : f.Completes) : (keyMap f).Completes := hf.entries.map KeyMap.ofList

lemma Completes.choice (f : String → Option α) : (choice f).Completes := by
  intro d a h
  unfold Decoder.choice at h
  split at h
  next => rfl
  next s d rest closed =>
    split at h
    next => cases h
    next =>
      split at h
      next hend =>
        obtain ⟨hrest, rfl⟩ := Bool.and_eq_true_iff.mp hend
        rw [List.isEmpty_iff.mp hrest]
        rfl
      next => cases h
    next => cases h
  next => cases h

end Decoder

namespace Record

/-- Every member has a key, none of the names is the key of two, and members with other keys can be
skipped. -/
structure Separate (names : List String) (ms : List (Option String × Doc)) : Prop where
  keyed : ∀ m ∈ ms, m.1 ≠ none
  once : ms.Pairwise fun m m' => ∀ k ∈ names, m.1 = some k → m'.1 ≠ some k
  skipped : ∀ m ∈ ms, ∀ k ∉ names, m.1 = some k → m.2.complete = true

variable {names extra : List String} {ms : Members} {r : Record α} {s : Record β} {d : Doc} {a : α}
  {b : β}

section Members

variable {k : String} {ms : List (Option String × Doc)}

lemma not_separate_cons : ¬ Separate names ((none, d) :: ms) :=
  fun h => h.keyed _ List.mem_cons_self rfl

lemma separate_cons_of_mem (hk : k ∈ names) :
    Separate names ((some k, d) :: ms) ↔ (∀ m ∈ ms, m.1 ≠ some k) ∧ Separate names ms := by
  constructor
  · rintro ⟨hkeyed, honce, hskipped⟩
    obtain ⟨hnew, honce⟩ := List.pairwise_cons.mp honce
    exact ⟨fun m hm => hnew m hm k hk rfl, (List.forall_mem_cons.mp hkeyed).2, honce,
      (List.forall_mem_cons.mp hskipped).2⟩
  · rintro ⟨hnew, hkeyed, honce, hskipped⟩
    refine ⟨List.forall_mem_cons.mpr ⟨Option.some_ne_none k, hkeyed⟩,
      List.pairwise_cons.mpr ⟨?_, honce⟩, List.forall_mem_cons.mpr ⟨?_, hskipped⟩⟩
    · rintro m hm _ - ⟨⟩
      exact hnew m hm
    · rintro _ hk' ⟨⟩
      exact absurd hk hk'

lemma separate_cons_of_not_mem (hk : k ∉ names) :
    Separate names ((some k, d) :: ms) ↔ d.complete = true ∧ Separate names ms := by
  constructor
  · rintro ⟨hkeyed, honce, hskipped⟩
    obtain ⟨hd, hskipped⟩ := List.forall_mem_cons.mp hskipped
    exact ⟨hd k hk rfl, (List.forall_mem_cons.mp hkeyed).2, (List.pairwise_cons.mp honce).2,
      hskipped⟩
  · rintro ⟨hd, hkeyed, honce, hskipped⟩
    refine ⟨List.forall_mem_cons.mpr ⟨Option.some_ne_none k, hkeyed⟩,
      List.pairwise_cons.mpr ⟨?_, honce⟩, List.forall_mem_cons.mpr ⟨fun _ _ _ => hd, hskipped⟩⟩
    rintro m - _ hk' ⟨⟩
    exact absurd hk' hk

lemma memberFault_eq_none_iff {seen : List String} (hseen : seen ⊆ names) {i : Nat} :
    memberFault names i seen ms = none ↔
      (∀ m ∈ ms, ∀ name ∈ seen, m.1 ≠ some name) ∧ Separate names ms := by
  induction ms generalizing seen i with
  | nil =>
    refine iff_of_true rfl ⟨List.forall_mem_nil _, ?_, List.Pairwise.nil, ?_⟩ <;>
      exact List.forall_mem_nil _
  | cons m ms ih =>
    obtain ⟨_ | k, d⟩ := m
    case none => exact iff_of_false (fun h => nomatch h) fun h => not_separate_cons h.2
    case some =>
      rw [memberFault, List.forall_mem_cons]
      simp only [List.contains_eq_mem, decide_eq_true_eq]
      by_cases hk : k ∈ names
      · rw [if_pos hk, separate_cons_of_mem hk]
        split
        next hold => exact iff_of_false (fun h => nomatch h) fun h => h.1.1 k hold rfl
        next hnew =>
          rw [ih (List.cons_subset.mpr ⟨hk, hseen⟩)]
          simp only [List.forall_mem_cons, forall_and]
          have hhead : ∀ name ∈ seen, some k ≠ some name := by
            rintro name hname ⟨⟩
            exact hnew hname
          tauto
      · rw [if_neg hk, separate_cons_of_not_mem hk]
        have hhead : ∀ name ∈ seen, some k ≠ some name := by
          rintro name hname ⟨⟩
          exact hk (hseen hname)
        split
        next hd =>
          rw [ih hseen]
          tauto
        next hd => exact iff_of_false (fun h => nomatch h) fun h => hd h.2.1

lemma Separate.eq_of_key (h : Separate names ms) {m m' : Option String × Doc} (hm : m ∈ ms)
    (hm' : m' ∈ ms) (hk : k ∈ names) (hkey : m.1 = some k) (hkey' : m'.1 = some k) : m = m' := by
  by_contra hne
  have hsymm : Std.Symm fun m m' : Option String × Doc =>
      ∀ k ∈ names, m.1 = some k → m'.1 ≠ some k :=
    ⟨fun m m' hmm' k hk hkey' hkey => hmm' k hk hkey hkey'⟩
  exact h.once.forall hm hm' hne k hk hkey hkey'

lemma Separate.of_subset {names' : List String} (h : Separate names ms) (hsub : names' ⊆ names)
    (hskip : ∀ m ∈ ms, ∀ k ∈ names, k ∉ names' → m.1 = some k → m.2.complete = true) :
    Separate names' ms where
  keyed := h.keyed
  once := h.once.imp fun hmm' k hk => hmm' k (hsub hk)
  skipped := by
    intro m hm k hk hkey
    by_cases hknown : k ∈ names
    · exact hskip m hm k hknown hk hkey
    · exact h.skipped m hm k hknown hkey

end Members

lemma fault_eq_ok : fault names ms = .ok () ↔ Separate names ms.list ∧ ms.ending = none := by
  have hfault : memberFault names 0 [] ms.list = none ↔ Separate names ms.list := by
    rw [memberFault_eq_none_iff (List.nil_subset names)]
    exact and_iff_right fun _ _ => List.forall_mem_nil _
  rw [← hfault, fault]
  split <;> simp_all

lemma decode_eq_ok_iff : r.decode d = .ok a ↔ ∃ ms, Members.ofDoc r.names d = .ok ms ∧
    Separate r.names ms.list ∧ ms.ending = none ∧ r.read ms = .ok a := by
  rw [decode, bind_eq_ok]
  refine exists_congr fun ms => and_congr_right fun _ => ?_
  rw [← and_assoc, ← fault_eq_ok]
  cases fault r.names ms <;> cases r.read ms <;> simp [combine, Functor.map, Except.map]

lemma complete_of_field {name : String} {f : Decoder α} {absent : Members → Except Located α}
    (hf : f.Completes) (hsep : Separate names ms.list) (hname : name ∈ names)
    (h : (field name f absent).read ms = .ok a) {m : Option String × Doc} (hm : m ∈ ms.list)
    (hkey : m.1 = some name) : m.2.complete = true := by
  rw [field] at h
  dsimp only at h
  split at h
  next i hi =>
    obtain ⟨hlt, hfound, -⟩ := List.findIdx?_eq_some_iff_getElem.mp hi
    rw [List.getD_eq_getElem _ _ (by rwa [List.length_map]), List.getElem_map] at h
    rw [hsep.eq_of_key hm (List.getElem_mem hlt) hname hkey (beq_iff_eq.mp hfound)]
    exact hf _ a (locate_eq_ok.mp h)
  next hnone =>
    rw [List.findIdx?_eq_none_iff] at hnone
    simpa [hkey] using hnone m hm

lemma ofDoc_append (hd : d.HasAtMost names.length)
    (h : Members.ofDoc (names ++ extra) d = .ok ms) (hend : ms.ending = none) :
    Members.ofDoc names d = .ok ms := by
  unfold Members.ofDoc at h ⊢
  split at h
  next => exact h
  next items closed =>
    cases h
    have hitems : items.length ≤ names.length := hd
    have hclosed : closed = true := by
      cases closed with
      | true => rfl
      | false => cases hend
    have hlonger : items.length ≤ (names ++ extra).length :=
      hitems.trans (List.length_append ▸ Nat.le_add_right _ _)
    have hlength : items.length ≤ (names.map some).length := by rwa [List.length_map]
    rw [List.map_append, Sequence.zip_append_of_length_le hlength, hclosed, decide_eq_true hitems,
      decide_eq_true hlonger]
  next => cases h

lemma decode_prefix (hnames : r.names = s.names ++ extra) (hd : d.HasAtMost s.names.length)
    (h : r.decode d = .ok a) (hread : ∀ ms, r.read ms = .ok a → s.read ms = .ok b)
    (hskip : ∀ ms, Separate r.names ms.list → r.read ms = .ok a →
      ∀ m ∈ ms.list, ∀ k ∈ extra, m.1 = some k → m.2.complete = true) : s.decode d = .ok b := by
  obtain ⟨ms, hms, hsep, hend, ha⟩ := decode_eq_ok_iff.mp h
  rw [hnames] at hms
  refine decode_eq_ok_iff.mpr ⟨ms, ofDoc_append hd hms hend, ?_, hend, hread ms ha⟩
  refine hsep.of_subset (hnames ▸ List.subset_append_left _ _) fun m hm k hk hnot hkey => ?_
  rw [hnames] at hk
  exact hskip ms hsep ha m hm k ((List.mem_append.mp hk).resolve_left hnot) hkey

end Record

end Recombine.Json
