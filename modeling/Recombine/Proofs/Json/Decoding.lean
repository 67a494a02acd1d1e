import Mathlib.Data.List.GetD
import Recombine.Proofs.Attempts
import Recombine.Proofs.Cache.Content
import Recombine.Proofs.Json.Canonical
import Recombine.Proofs.Json.Reading
import Recombine.Proofs.Rows

namespace Recombine

namespace Json

open Attempt

variable {α β : Type}

lemma Doc.soundItems_iff {ds : List Doc} : soundItems ds = true ↔ ∀ d ∈ ds, d.sound = true := by
  induction ds with
  | nil => exact iff_of_true rfl (List.forall_mem_nil _)
  | cons d ds ih => rw [soundItems, Bool.and_eq_true_iff, List.forall_mem_cons, ih]

namespace Decoder

lemma whole_eq_ok {f : Doc → Except Fault α} {d : Doc} {a : α} :
    whole f d = .ok a ↔ d.sound = true ∧ f d = .ok a := by
  rw [whole]
  split <;> simp_all

lemma list_eq_ok_iff {f : Decoder α} {d : Doc} {as : List α} : list f d = .ok as ↔
    ∃ items, d = .array items true ∧ List.Forall₂ (fun part a => f part = .ok a) items as := by
  unfold list
  split
  next items closed =>
    rw [bind_eq_ok]
    cases closed <;> simp [mapM_eq_ok]
  next hnot => exact iff_of_false (fun h => nomatch h) fun ⟨items, heq, _⟩ => hnot items true heq

lemma list_eq_ok {f : Decoder α} {d : Doc} {as : List α} (h : list f d = .ok as) :
    ∀ a ∈ as, ∃ part, part.height < d.height ∧ f part = .ok a := by
  obtain ⟨items, rfl, has⟩ := list_eq_ok_iff.mp h
  intro a ha
  obtain ⟨d, hmem, hd⟩ := Sequence.exists_of_mem_right has ha
  exact ⟨d, Nat.lt_succ_of_le (Doc.height_le_of_mem_items hmem), hd⟩

lemma entry_eq_ok_iff {f : Decoder α} {m : Option String × Doc} {e : String × α} :
    entry f m = .ok e ↔ m.1 = some e.1 ∧ f m.2 = .ok e.2 := by
  obtain ⟨k, d⟩ := m
  obtain ⟨k', a⟩ := e
  cases k with
  | none => simp [entry]
  | some k =>
    rw [entry, map_eq_ok]
    simp only [Prod.mk.injEq, Option.some.injEq]
    exact ⟨fun ⟨_, hb, hk, heq⟩ => ⟨hk, heq ▸ hb⟩, fun ⟨hk, hb⟩ => ⟨a, hb, hk, rfl⟩⟩

lemma entries_eq_ok_iff {f : Decoder α} {d : Doc} {es : List (String × α)} :
    entries f d = .ok es ↔ ∃ members, d = .object members true ∧
      List.Forall₂ (fun m e => m.1 = some e.1 ∧ f m.2 = .ok e.2) members es := by
  unfold entries
  split
  next members closed =>
    rw [bind_eq_ok]
    cases closed <;> simp [mapM_eq_ok, entry_eq_ok_iff]
  next hnot => exact iff_of_false (fun h => nomatch h) fun ⟨ms, heq, _⟩ => hnot ms true heq

lemma entries_eq_ok {f : Decoder α} {d : Doc} {es : List (String × α)}
    (h : entries f d = .ok es) : ∀ e ∈ es, ∃ part, part.height < d.height ∧ f part = .ok e.2 := by
  obtain ⟨members, rfl, hes⟩ := entries_eq_ok_iff.mp h
  intro e he
  obtain ⟨m, hmem, -, hd⟩ := Sequence.exists_of_mem_right hes he
  exact ⟨m.2, Nat.lt_succ_of_le (Doc.height_le_of_mem_members hmem), hd⟩

lemma keyMap_eq_ok {f : Decoder α} {d : Doc} {m : KeyMap α} (h : keyMap f d = .ok m) :
    ∀ e ∈ m.entries, ∃ part, part.height < d.height ∧ f part = .ok e.2 := by
  obtain ⟨es, hes, rfl⟩ := map_eq_ok.mp h
  intro e he
  exact entries_eq_ok hes e (KeyMap.mem_of_mem_entries_ofList he)

lemma run_eq_ok_iff {f : Decoder α} {text : String} {a : α} : f.run text = .ok a ↔
    f (Doc.ofText text).1 = .ok a ∧ (Doc.ofText text).2 = true := by
  unfold run
  generalize Doc.ofText text = read
  obtain ⟨d, alone⟩ := read
  dsimp only
  rw [bind_eq_ok]
  cases alone <;> simp

lemma run_eq_ok {f : Decoder α} {text : String} {a : α} (h : f.run text = .ok a) :
    ∃ d, d.height ≤ maxDepth ∧ f d = .ok a :=
  ⟨_, height_ofText text, (run_eq_ok_iff.mp h).1⟩

lemma run_eq_of_ofText {text : String} {d : Doc} (f : Decoder α)
    (hread : Doc.ofText text = (d, true)) : f.run text = f d := by
  rw [run, hread]
  dsimp only
  cases f d <;> rfl

lemma run_of_ofText {f : Decoder α} {text : String} {d : Doc} {a : α}
    (hread : Doc.ofText text = (d, true)) (h : f d = .ok a) : f.run text = .ok a :=
  (run_eq_of_ofText f hread).trans h

end Decoder

namespace Record

lemma combine_eq_ok {f : Except Located (α → β)} {a : Except Located α} {b : β} :
    combine f a = .ok b ↔ ∃ g x, f = .ok g ∧ a = .ok x ∧ g x = b := by
  cases f <;> cases a <;> simp [combine]

lemma map_read_eq_ok {g : α → β} {r : Record α} {ms : Members} {b : β} :
    (g <$> r).read ms = .ok b ↔ ∃ a, r.read ms = .ok a ∧ g a = b :=
  map_eq_ok

lemma seq_read_eq_ok {f : Record (α → β)} {r : Record α} {ms : Members} {b : β} :
    (f <*> r).read ms = .ok b ↔ ∃ g a, f.read ms = .ok g ∧ r.read ms = .ok a ∧ g a = b :=
  combine_eq_ok

lemma locate_eq_ok {position : Nat} {x : Except Fault α} {a : α} :
    locate position x = .ok a ↔ x = .ok a := by
  cases x <;> simp [locate]

lemma field_read_eq_ok {name : String} {f : Decoder α} {absent : Members → Except Located α}
    {ms : Members} {a : α} (h : (field name f absent).read ms = .ok a) :
    (∃ m ∈ ms.list, f m.2 = .ok a) ∨ absent ms = .ok a := by
  rw [field] at h
  dsimp only at h
  split at h
  next i hi =>
    have hlt := (List.findIdx?_eq_some_iff_findIdx_eq.mp hi).1
    rw [List.getD_eq_getElem _ _ (by rwa [List.length_map]), List.getElem_map] at h
    exact Or.inl ⟨_, List.getElem_mem hlt, locate_eq_ok.mp h⟩
  next => exact Or.inr h

lemma required_read_eq_ok {name : String} {f : Decoder α} {ms : Members} {a : α}
    (h : (required name f).read ms = .ok a) : ∃ m ∈ ms.list, f m.2 = .ok a := by
  rcases field_read_eq_ok h with h | h
  · exact h
  · cases h

lemma optional_read_eq_ok {name : String} {default : α} {f : Decoder α} {ms : Members} {a : α}
    (h : (optional name default f).read ms = .ok a) :
    a = default ∨ ∃ m ∈ ms.list, f m.2 = .ok a := by
  rcases field_read_eq_ok h with h | h
  · exact Or.inr h
  · exact Or.inl (Except.ok.inj h).symm

lemma height_of_mem_ofDoc {names : List String} {d : Doc} {ms : Members}
    (h : Members.ofDoc names d = .ok ms) : ∀ m ∈ ms.list, m.2.height < d.height := by
  unfold Members.ofDoc at h
  split at h <;> cases h
  next => exact fun m hm => Nat.lt_succ_of_le (Doc.height_le_of_mem_members hm)
  next =>
    intro m hm
    exact Nat.lt_succ_of_le (Doc.height_le_of_mem_items (List.of_mem_zip hm).2)

lemma decode_eq_ok {r : Record α} {d : Doc} {a : α} (h : r.decode d = .ok a) :
    ∃ ms : Members, (∀ m ∈ ms.list, m.2.height < d.height) ∧ r.read ms = .ok a := by
  obtain ⟨ms, hms, h⟩ := bind_eq_ok.mp h
  split at h
  next heq =>
    cases h
    obtain ⟨_, x, hf, hx, rfl⟩ := combine_eq_ok.mp heq
    obtain ⟨_, -, rfl⟩ := map_eq_ok.mp hf
    exact ⟨ms, height_of_mem_ofDoc hms, hx⟩
  next => cases h

end Record

lemma isFinite_of_float? {n : Decimal.Numeral} (h : n.float?.isSome = true) :
    Number.isFinite (n.float?.getD 0) = true := by
  rw [Decimal.Numeral.float?] at h ⊢
  split at h
  next hmagnitude =>
    rw [if_pos hmagnitude, Option.getD_some]
    split
    next => exact Number.isFinite_neg hmagnitude
    next => exact hmagnitude
  next => cases h

lemma isPlain_float {x : Float} (h : Number.isFinite x = true) : (float x).IsPlain := if_pos h

lemma isPlain_array {js : List Json} (h : ∀ j ∈ js, j.IsPlain) : (array js).IsPlain := by
  have hkept := kept_list id js
  have hitems : js.map (fun j => (id j).kept) = js := (List.map_congr_left h).trans (List.map_id js)
  rw [Json.list, Json.list, List.map_id, hitems] at hkept
  exact hkept

/-- A value with finite numbers, integers of 64 bits, and objects with ascending keys. -/
inductive IsNormal : Json → Prop
  | null : IsNormal null
  | bool (b : Bool) : IsNormal (bool b)
  | int (i : Int) (hmin : Int64.minValue.toInt ≤ i) (hmax : i < UInt64.size) : IsNormal (int i)
  | float (x : Float) (h : Number.isFinite x = true) : IsNormal (float x)
  | string (s : String) : IsNormal (string s)
  | array (js : List Json) (h : ∀ j ∈ js, IsNormal j) : IsNormal (array js)
  | object (m : KeyMap Json) (h : ∀ e ∈ m.entries, IsNormal e.2) : IsNormal (object m.entries)

mutual

theorem isNormal_ofDoc : ∀ d : Doc, d.sound = true → (ofDoc d).IsNormal
  | .null, _ | .deep, _ | .cut, _ => .null
  | .bool b, _ => .bool b
  | .string s, _ => .string (s.getD "")
  | .number n, h => by
    have hfloat := IsNormal.float _ (isFinite_of_float? h)
    rw [ofDoc]
    split
    next i _ =>
      split
      next hrange => exact .int i hrange.1 hrange.2
      next => exact hfloat
    next => exact hfloat
  | .array items closed, h =>
    .array _ (isNormal_of_mem_ofItems items (Bool.and_eq_true_iff.mp h).1)
  | .object members closed, h =>
    .object _ fun e he => isNormal_of_mem_ofMembers members (Bool.and_eq_true_iff.mp h).1 e
      (KeyMap.mem_of_mem_entries_ofList he)

theorem isNormal_of_mem_ofItems : ∀ ds : List Doc, Doc.soundItems ds = true →
    ∀ j ∈ ofItems ds, j.IsNormal
  | [], _, _, hj => nomatch hj
  | d :: ds, h, j, hj => by
    obtain ⟨hd, hds⟩ := Bool.and_eq_true_iff.mp h
    rcases List.mem_cons.mp hj with rfl | hj
    · exact isNormal_ofDoc d hd
    · exact isNormal_of_mem_ofItems ds hds j hj

theorem isNormal_of_mem_ofMembers : ∀ ms : List (Option String × Doc),
    Doc.soundMembers ms = true → ∀ m ∈ ofMembers ms, m.2.IsNormal
  | [], _, _, hm => nomatch hm
  | (k, d) :: ms, h, m, hm => by
    obtain ⟨hhead, hms⟩ := Bool.and_eq_true_iff.mp h
    rcases List.mem_cons.mp hm with rfl | hm
    · exact isNormal_ofDoc d (Bool.and_eq_true_iff.mp hhead).2
    · exact isNormal_of_mem_ofMembers ms hms m hm

end

lemma isNormal_of_decode {d : Doc} {j : Json} (h : decode d = .ok j) : j.IsNormal := by
  obtain ⟨hsound, h⟩ := Decoder.whole_eq_ok.mp h
  cases h
  exact isNormal_ofDoc d hsound

lemma IsNormal.isPlain {j : Json} (h : j.IsNormal) : j.IsPlain := by
  induction h with
  | null => rfl
  | bool => rfl
  | int => rfl
  | float x h => exact isPlain_float h
  | string => rfl
  | array js _ ih => exact isPlain_array ih
  | object m _ ih => exact isPlain_object ih

lemma isPlain_of_decode {d : Doc} {j : Json} (h : decode d = .ok j) : j.IsPlain :=
  (isNormal_of_decode h).isPlain

end Json

namespace Value

open Json

lemma isFinite_ofNumeral {n : Decimal.Numeral} (h : n.float?.isSome = true) :
    (ofNumeral n).IsFinite := by
  have hfloat : (float (n.float?.getD 0)).IsFinite := isFinite_of_float? h
  rw [ofNumeral]
  split
  next =>
    split
    next => trivial
    next => exact hfloat
  next => exact hfloat

lemma isFinite_of_ofDoc {d : Doc} {v : Value} (hsound : d.sound = true) (h : ofDoc d = .ok v) :
    v.IsFinite := by
  unfold ofDoc at h
  split at h <;> cases h
  next => trivial
  next => trivial
  next => exact isFinite_ofNumeral hsound
  next => trivial

lemma isFinite_of_decode {d : Doc} {v : Value} (h : decode d = .ok v) : v.IsFinite := by
  obtain ⟨hsound, h⟩ := Decoder.whole_eq_ok.mp h
  exact isFinite_of_ofDoc hsound h

end Value

lemma Row.isFinite_of_decode {d : Json.Doc} {r : Row} (h : decode d = .ok r) : r.IsFinite := by
  obtain ⟨cells, hcells, rfl⟩ := Attempt.map_eq_ok.mp h
  intro cell hcell
  obtain ⟨d, -, hd⟩ := Json.Decoder.entries_eq_ok hcells cell (mem_of_mem_cells_ofList hcell)
  exact Value.isFinite_of_decode hd

lemma Relations.isFinite_of_decode {d : Json.Doc} {data : Relations} (h : decode d = .ok data) :
    data.IsFinite := by
  intro e he r hr
  obtain ⟨d, -, hd⟩ := Json.Decoder.keyMap_eq_ok h e he
  obtain ⟨d, -, hd⟩ := Json.Decoder.list_eq_ok hd r hr
  exact Row.isFinite_of_decode hd

end Recombine
