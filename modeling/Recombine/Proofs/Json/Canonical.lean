import Recombine.Proofs.Json.Texts
import Recombine.Proofs.KeyMaps

namespace Recombine

namespace Json

lemma canonicalItems_eq (js : List Json) : canonicalItems js = js.map canonical := by
  induction js with
  | nil => rfl
  | cons j js ih => rw [canonicalItems, ih, List.map_cons]

lemma canonicalMembers_eq (ms : List (String × Json)) :
    canonicalMembers ms = ms.map fun m => (m.1, m.2.canonical) := by
  induction ms with
  | nil => rfl
  | cons m ms ih => rw [canonicalMembers, ih, List.map_cons]

def kept (j : Json) : Json := j.canonical.written

lemma canonical_text_eq_iff {j k : Json} :
    j.canonical.text = k.canonical.text ↔ j.kept = k.kept :=
  text_eq_text_iff

@[simp] lemma kept_string (s : String) : (string s).kept = string s := rfl

lemma kept_list {α : Type} (f : α → Json) (as : List α) :
    (Json.list f as).kept = Json.list (fun a => (f a).kept) as := by
  rw [kept, Json.list, canonical, canonicalItems_eq, List.map_map]
  exact written_list _ as

lemma kept_object (ms : List (String × Json)) : (object ms).kept =
    object ((KeyMap.ofList (canonicalMembers ms)).map written).entries := by
  rw [kept, canonical, written, writtenMembers_eq]
  rfl

lemma ofList_canonicalMembers (m : KeyMap Json) :
    KeyMap.ofList (canonicalMembers m.entries) = m.map canonical := by
  rw [canonicalMembers_eq]
  exact KeyMap.ofList_entries (m.map canonical)

def IsPlain (j : Json) : Prop := j.kept = j

lemma isPlain_object {m : KeyMap Json} (h : ∀ e ∈ m.entries, e.2.IsPlain) :
    (object m.entries).IsPlain := by
  have hkept : ∀ e ∈ m.entries, (e.1, e.2.canonical.written) = id e :=
    fun e he => Prod.ext rfl (h e he)
  have hentries : ((m.map canonical).map written).entries = m.entries :=
    List.map_map.trans ((List.map_congr_left hkept).trans (List.map_id m.entries))
  rw [IsPlain, kept_object, ofList_canonicalMembers, hentries]

def member (j : Json) (key : String) : Option Json :=
  match j.kept with
  | object ms => (ms.find? fun m => m.1 == key).map Prod.snd
  | _ => none

section Members

variable {j k : Json} {ms ns : List (String × Json)} {key name : String}

lemma member_of_kept_eq (h : j.kept = k.kept) (key : String) : j.member key = k.member key := by
  rw [member, member, h]

lemma member_object :
    (object ms).member key = ((KeyMap.ofList (canonicalMembers ms)).get? key).map written := by
  rw [member, kept_object]
  exact KeyMap.get?_map _ _ _

lemma member_append :
    (object (ms ++ ns)).member key = ((object ns).member key).or ((object ms).member key) := by
  rw [member_object, member_object, member_object, canonicalMembers_eq, canonicalMembers_eq,
    canonicalMembers_eq, List.map_append, KeyMap.get?_ofList_append, Option.map_or]

@[simp] lemma member_nil : (object []).member key = none := rfl

@[simp] lemma member_cons : (object ((name, j) :: ms)).member key =
    ((object ms).member key).or (if key = name then some j.kept else none) := by
  have hsingle : (object [(name, j)]).member key = if key = name then some j.kept else none := by
    rw [member_object, canonicalMembers_eq]
    change (((∅ : KeyMap Json).insert name j.canonical).get? key).map written = _
    rw [KeyMap.get?_insert, KeyMap.get?_empty]
    split <;> rfl
  rw [← hsingle]
  change (object ([(name, j)] ++ ms)).member key = _
  exact member_append

@[simp] lemma member_ite {c : Prop} [Decidable c] : (object (if c then ms else ns)).member key =
    if c then (object ms).member key else (object ns).member key := by
  split <;> rfl

@[simp] lemma member_member? {α : Type} {f : α → Json} {o : Option α} :
    (object (member? name f o)).member key =
      if key = name then o.map fun a => (f a).kept else none := by
  cases o with
  | none => split <;> rfl
  | some a =>
    rw [member?, member_cons, member_nil, Option.none_or]
    rfl

end Members

/-- Values with the property are told apart by their forms. -/
def Identifies {α : Type} (P : α → Prop) (f : α → Json) : Prop :=
  ∀ a b, P a → P b → (f a).kept = (f b).kept → a = b

lemma Identifies.list {α : Type} {P : α → Prop} {f : α → Json} (h : Identifies P f) :
    Identifies (fun as => ∀ a ∈ as, P a) (Json.list f) := by
  intro as bs has hbs heq
  rw [kept_list, kept_list] at heq
  have hsame : ∀ a ∈ as, ∀ b ∈ bs, (f a).kept = (f b).kept ↔ a = b := fun a ha b hb =>
    ⟨h a b (has a ha) (hbs b hb), fun hab => by rw [hab]⟩
  have hforall := (Sequence.map_eq_map_iff hsame).mp (Json.array.inj heq)
  rwa [List.forall₂_eq_eq_eq] at hforall

lemma Identifies.omitted_list {α : Type} {P : α → Prop} {f : α → Json} (h : Identifies P f)
    (name : String) {as bs : List α} (has : ∀ a ∈ as, P a) (hbs : ∀ b ∈ bs, P b)
    (heq : (object (if as.isEmpty then [] else [(name, Json.list f as)])).member name =
      (object (if bs.isEmpty then [] else [(name, Json.list f bs)])).member name) : as = bs := by
  cases as with
  | nil =>
    cases bs with
    | nil => rfl
    | cons b bs => simp at heq
  | cons a as =>
    cases bs with
    | nil => simp at heq
    | cons b bs =>
      have hlist : (Json.list f (a :: as)).kept = (Json.list f (b :: bs)).kept := by
        simpa using heq
      exact h.list _ _ has hbs hlist

lemma Identifies.omitted_object (name : String) {m n : KeyMap Json}
    (hm : ∀ e ∈ m.entries, e.2.IsPlain) (hn : ∀ e ∈ n.entries, e.2.IsPlain)
    (heq : (object (if m.isEmpty then [] else [(name, object m.entries)])).member name =
      (object (if n.isEmpty then [] else [(name, object n.entries)])).member name) : m = n := by
  have hentries {m : KeyMap Json} (h : ∀ e ∈ m.entries, e.2.IsPlain) :
      (object (if m.isEmpty then [] else [(name, object m.entries)])).member name =
        if m.entries = [] then none else some (object m.entries) := by
    rw [member_ite, member_cons, member_nil, if_pos rfl, Option.none_or, isPlain_object h]
    simp only [KeyMap.isEmpty, List.isEmpty_iff]
  rw [hentries hm, hentries hn] at heq
  apply KeyMap.ext
  split at heq
  next hempty =>
    split at heq
    next hempty' => rw [hempty, hempty']
    next => cases heq
  next =>
    split at heq
    next => cases heq
    next => exact Json.object.inj (Option.some.inj heq)

lemma identifies_strings : Identifies (fun _ => True) strings := by
  have hstring : Identifies (fun _ => True) string := fun _ _ _ _ h => Json.string.inj h
  intro as bs _ _ h
  exact hstring.list as bs (fun _ _ => trivial) (fun _ _ => trivial) h

end Json

end Recombine
