import Recombine.Json.Decode
import Recombine.Proofs.Decimal.Identification

/-! The text of a JSON value determines it, as far as its numbers are finite: every piece of a text
is read in one way only. -/

namespace Recombine.Json

section Strings

lemma hexValue?_hexDigit : ∀ n < 16, hexValue? (hexDigit n) = some n := by
  decide

lemma hexDigit_mod (n : Nat) : hexDigit n = hexDigit (n % 16) := by
  rw [hexDigit, hexDigit, Nat.mod_mod]

lemma codeUnit?_control {n : Nat} (h : n < 32) :
    codeUnit? '0' '0' (hexDigit (n / 16)) (hexDigit n) = some n := by
  have hzero : hexValue? '0' = some 0 := rfl
  have hhigh := hexValue?_hexDigit (n / 16) (by omega)
  have hlow := hexValue?_hexDigit (n % 16) (Nat.mod_lt _ (by decide))
  rw [← hexDigit_mod] at hlow
  rw [codeUnit?, hzero, hhigh, hlow]
  simp only [Option.bind_eq_bind, Option.bind_some, Option.pure_def]
  congr 1
  omega

lemma pushUnit_control (l : Literal) {c : Char} (h : c.toNat < 32) :
    l.pushUnit c.toNat = l.push c := by
  rw [Literal.pushUnit, if_neg (by simp; omega), if_neg (by simp; omega), Char.ofNat_toNat]

lemma readString_simple (l : Literal) {e c : Char} (he : e ≠ 'u') (h : simpleEscape? e = some c)
    (r : List Char) : readString l ('\\' :: e :: r) = readString (l.push c) r := by
  rw [readString.eq_def]
  split
  next heq => cases heq
  next heq => cases heq
  next heq =>
    cases heq
    exact absurd rfl he
  next heq =>
    cases heq
    rw [h]
  next hsimple heq =>
    cases heq
    exact (hsimple _ _ rfl rfl).elim

lemma readString_escapeChar (l : Literal) (c : Char) (r : List Char) :
    readString l (escapeChar c ++ r) = readString (l.push c) r := by
  unfold escapeChar
  split
  next h => subst h; exact readString_simple l (by decide) rfl r
  split
  next h => subst h; exact readString_simple l (by decide) rfl r
  split
  next h => subst h; exact readString_simple l (by decide) rfl r
  split
  next h => subst h; exact readString_simple l (by decide) rfl r
  split
  next h => subst h; exact readString_simple l (by decide) rfl r
  split
  next h =>
    have hc : Char.ofNat 8 = c := by rw [← h, Char.ofNat_toNat]
    exact readString_simple l (by decide) (hc ▸ rfl) r
  split
  next h =>
    have hc : Char.ofNat 12 = c := by rw [← h, Char.ofNat_toNat]
    exact readString_simple l (by decide) (hc ▸ rfl) r
  split
  next h =>
    rw [← pushUnit_control l h]
    simp only [List.cons_append, List.nil_append]
    rw [readString, codeUnit?_control h]
  next hquote hslash _ _ _ _ _ hcontrol =>
    rw [List.singleton_append, readString.eq_def]
    split
    next heq => cases heq
    next heq =>
      cases heq
      exact absurd rfl hquote
    next heq =>
      cases heq
      exact absurd rfl hslash
    next heq =>
      cases heq
      exact absurd rfl hslash
    next heq =>
      cases heq
      rw [if_neg]
      simpa [hslash] using hcontrol

lemma readString_escaped (l : Literal) (cs r : List Char) :
    readString l (cs.flatMap escapeChar ++ '"' :: r) =
      some ((cs.foldl Literal.push l).finish, r) := by
  induction cs generalizing l with
  | nil => simp [readString]
  | cons c cs ih =>
    rw [List.flatMap_cons, List.append_assoc, readString_escapeChar, ih, List.foldl_cons]

lemma foldl_push (l : Literal) (h : l.high = none) (cs : List Char) :
    cs.foldl Literal.push l = ⟨cs.reverse ++ l.reversed, none, l.sound⟩ := by
  induction cs generalizing l with
  | nil =>
    obtain ⟨_, _, _⟩ := l
    cases h
    rfl
  | cons c cs ih =>
    rw [List.foldl_cons, ih _ rfl, Literal.push, h, List.reverse_cons, List.append_assoc]
    simp

lemma readString_quote (s : String) (r : List Char) :
    readString .start (s.toList.flatMap escapeChar ++ '"' :: r) = some (some s, r) := by
  rw [readString_escaped, foldl_push _ rfl]
  simp [Literal.finish, Literal.start]

lemma quote_append_inj {s t : String} {r r' : List Char} (h : quote s ++ r = quote t ++ r') :
    s = t ∧ r = r' := by
  have hs := readString_quote s r
  have hquote (s : String) (r : List Char) :
      quote s ++ r = '"' :: (s.toList.flatMap escapeChar ++ '"' :: r) := by
    simp [quote]
  rw [hquote, hquote] at h
  rw [(List.cons.inj h).2, readString_quote] at hs
  simpa [eq_comm] using hs

end Strings

section Leads

open Decimal

lemma lead_of_read {cs r : List Char} {n : Numeral} (h : Numeral.read cs = some (n, r)) :
    ∃ c cs', cs = c :: cs' ∧ (c = '-' ∨ c.isDigit = true) := by
  cases cs with
  | nil => cases h
  | cons c cs =>
    refine ⟨c, cs, rfl, ?_⟩
    by_contra hno
    obtain ⟨hsign, hdigit⟩ := not_or.mp hno
    have hrun : digitRun (c :: cs) = ([], c :: cs) := by
      simp [digitRun, hdigit]
    have hwhole : readWhole (c :: cs) = none := by
      rw [readWhole, hrun]
    rw [Numeral.read, hwhole] at h
    · cases h
    · intro cs' heq
      exact hsign (List.cons.inj heq).1

def leadKind (c : Char) : Nat :=
  if c = 'n' then 0 else if c = 't' then 1 else if c = 'f' then 2 else if c = '"' then 4
  else if c = '[' then 5 else if c = '{' then 6 else if c = ']' then 7 else 3

def kind : Json → Nat
  | null => 0
  | bool true => 1
  | bool false => 2
  | int _ | float _ => 3
  | string _ => 4
  | array _ => 5
  | object _ => 6

lemma leadKind_numeral {c : Char} (h : c = '-' ∨ c.isDigit = true) : leadKind c = 3 := by
  have hne (d : Char) (hd : d ≠ '-') (hd' : d.isDigit = false) : c ≠ d := by
    rintro rfl
    rcases h with h | h
    · exact hd h
    · rw [hd'] at h
      cases h
  rw [leadKind, if_neg (hne 'n' (by decide) rfl), if_neg (hne 't' (by decide) rfl),
    if_neg (hne 'f' (by decide) rfl), if_neg (hne '"' (by decide) rfl),
    if_neg (hne '[' (by decide) rfl), if_neg (hne '{' (by decide) rfl),
    if_neg (hne ']' (by decide) rfl)]

end Leads

mutual

def IsFinite : Json → Prop
  | float x => Number.isFinite x = true
  | array js => ItemsFinite js
  | object ms => MembersFinite ms
  | _ => True

def ItemsFinite : List Json → Prop
  | [] => True
  | j :: js => j.IsFinite ∧ ItemsFinite js

def MembersFinite : List (String × Json) → Prop
  | [] => True
  | (_, j) :: ms => j.IsFinite ∧ MembersFinite ms

end

section Injectivity

open Decimal

lemma exists_write_eq_cons {j : Json} (h : j.IsFinite) :
    ∃ c cs, j.write = c :: cs ∧ leadKind c = j.kind := by
  have hnumeral {cs : List Char} {n : Numeral} (hread : Numeral.read (cs ++ []) = some (n, [])) :
      ∃ c cs', cs = c :: cs' ∧ leadKind c = 3 := by
    rw [List.append_nil] at hread
    obtain ⟨c, cs', hcs, hc⟩ := lead_of_read hread
    exact ⟨c, cs', hcs, leadKind_numeral hc⟩
  have hends : Ends [] := fun c hc => nomatch hc
  cases j with
  | null => exact ⟨'n', _, rfl, rfl⟩
  | bool b => cases b <;> exact ⟨_, _, rfl, rfl⟩
  | int i => exact hnumeral (read_writeInt i hends)
  | float x =>
    obtain ⟨negative, m, e, hparts⟩ := Number.isFinite_iff.mp h
    obtain ⟨n, -, -, -, hread⟩ := exists_read_write hparts
    have hwrite : (float x).write = Layout.json.write x := if_pos h
    rw [hwrite]
    exact hnumeral (hread [] hends)
  | string s => exact ⟨'"', _, rfl, rfl⟩
  | array js => cases js <;> exact ⟨'[', _, rfl, rfl⟩
  | object ms =>
    cases ms with
    | nil => exact ⟨'{', _, rfl, rfl⟩
    | cons m ms => exact ⟨'{', _, rfl, rfl⟩

lemma kind_eq_of_write_append_eq {j k : Json} {r r' : List Char} (hj : j.IsFinite)
    (hk : k.IsFinite) (h : j.write ++ r = k.write ++ r') : j.kind = k.kind := by
  obtain ⟨c, cs, hcs, hc⟩ := exists_write_eq_cons hj
  obtain ⟨d, ds, hds, hd⟩ := exists_write_eq_cons hk
  rw [hcs, hds] at h
  rw [← hc, ← hd, (List.cons.inj h).1]

lemma write_append_ne_bracket {j : Json} (h : j.IsFinite) (r r' : List Char) :
    j.write ++ r ≠ ']' :: r' := by
  intro heq
  obtain ⟨c, cs, hcs, hc⟩ := exists_write_eq_cons h
  rw [hcs, List.cons_append] at heq
  rw [(List.cons.inj heq).1] at hc
  cases j with
  | bool b => cases b <;> cases hc
  | _ => cases hc

lemma ends_writeItems (js : List Json) (r : List Char) : Ends (writeItems js ++ r) := by
  intro c hc
  cases js with
  | nil =>
    cases hc
    decide
  | cons j js =>
    cases hc
    decide

lemma ends_writeMembers (ms : List (String × Json)) (r : List Char) :
    Ends (writeMembers ms ++ r) := by
  intro c hc
  cases ms with
  | nil =>
    cases hc
    decide
  | cons m ms =>
    cases hc
    decide

lemma number_append_inj {j k : Json} {r r' : List Char} (hj : j.IsFinite) (hk : k.IsFinite)
    (hnumber : j.kind = 3) (hsame : j.kind = k.kind) (hr : Ends r) (hr' : Ends r')
    (h : j.write ++ r = k.write ++ r') : j = k ∧ r = r' := by
  rw [hnumber] at hsame
  have hfloat {x : Float} (hx : (float x).IsFinite) : (float x).write = Layout.json.write x :=
    if_pos hx
  cases j with
  | int i =>
    cases k with
    | int i' =>
      obtain ⟨rfl, hrest⟩ := writeInt_append_inj hr hr' h
      exact ⟨rfl, hrest⟩
    | float y =>
      rw [hfloat hk] at h
      exact absurd h.symm (write_append_ne_writeInt_append hk hr' hr)
    | bool b => cases b <;> cases hsame
    | _ => cases hsame
  | float x =>
    rw [hfloat hj] at h
    cases k with
    | int i' => exact absurd h (write_append_ne_writeInt_append hj hr hr')
    | float y =>
      rw [hfloat hk] at h
      obtain ⟨rfl, hrest⟩ := write_append_inj hj hk hr hr' h
      exact ⟨rfl, hrest⟩
    | bool b => cases b <;> cases hsame
    | _ => cases hsame
  | bool b => cases b <;> cases hnumber
  | _ => cases hnumber

lemma eq_null_of_kind {j : Json} (h : j.kind = 0) : j = null := by
  cases j with
  | null => rfl
  | bool b => cases b <;> cases h
  | _ => cases h

lemma eq_bool_of_kind {b : Bool} {j : Json} (h : j.kind = (bool b).kind) : j = bool b := by
  cases j with
  | bool b' => cases b <;> cases b' <;> first | rfl | cases h
  | _ => cases b <;> cases h

lemma eq_array_of_kind {j : Json} (h : j.kind = 5) : ∃ js, j = array js := by
  cases j with
  | array js => exact ⟨js, rfl⟩
  | bool b => cases b <;> cases h
  | _ => cases h

lemma eq_object_of_kind {j : Json} (h : j.kind = 6) : ∃ ms, j = object ms := by
  cases j with
  | object ms => exact ⟨ms, rfl⟩
  | bool b => cases b <;> cases h
  | _ => cases h

lemma eq_string_of_kind {j : Json} (h : j.kind = 4) : ∃ s, j = string s := by
  cases j with
  | string s => exact ⟨s, rfl⟩
  | bool b => cases b <;> cases h
  | _ => cases h

mutual

theorem write_append_inj : ∀ (j k : Json) {r r' : List Char}, j.IsFinite → k.IsFinite → Ends r →
    Ends r' → j.write ++ r = k.write ++ r' → j = k ∧ r = r'
  | null, k, _, _, hj, hk, _, _, h => by
    obtain rfl := eq_null_of_kind (kind_eq_of_write_append_eq hj hk h).symm
    exact ⟨rfl, List.append_cancel_left h⟩
  | bool b, k, _, _, hj, hk, _, _, h => by
    obtain rfl := eq_bool_of_kind (kind_eq_of_write_append_eq hj hk h).symm
    exact ⟨rfl, List.append_cancel_left h⟩
  | int i, k, _, _, hj, hk, hr, hr', h =>
    number_append_inj hj hk rfl (kind_eq_of_write_append_eq hj hk h) hr hr' h
  | float x, k, _, _, hj, hk, hr, hr', h =>
    number_append_inj hj hk rfl (kind_eq_of_write_append_eq hj hk h) hr hr' h
  | string s, k, _, _, hj, hk, _, _, h => by
    obtain ⟨t, rfl⟩ := eq_string_of_kind (kind_eq_of_write_append_eq hj hk h).symm
    obtain ⟨rfl, hrest⟩ := quote_append_inj h
    exact ⟨rfl, hrest⟩
  | array [], k, _, _, hj, hk, _, _, h => by
    obtain ⟨_ | ⟨k, ks⟩, rfl⟩ := eq_array_of_kind (kind_eq_of_write_append_eq hj hk h).symm
    · exact ⟨rfl, List.append_cancel_left h⟩
    · have hbracket := (List.cons.inj h).2.symm
      rw [List.append_eq, List.append_eq, List.append_assoc] at hbracket
      exact absurd hbracket (write_append_ne_bracket hk.1 _ _)
  | array (j :: js), k, _, _, hj, hk, _, _, h => by
    obtain ⟨_ | ⟨k, ks⟩, rfl⟩ := eq_array_of_kind (kind_eq_of_write_append_eq hj hk h).symm
    · have hbracket := (List.cons.inj h).2
      rw [List.append_eq, List.append_eq, List.append_assoc] at hbracket
      exact absurd hbracket (write_append_ne_bracket hj.1 _ _)
    · obtain ⟨hitems, hrest⟩ := writeItems_append_inj (j :: js) (k :: ks) hj hk
        (congrArg (',' :: ·) (List.cons.inj h).2)
      exact ⟨congrArg array hitems, hrest⟩
  | object [], k, _, _, hj, hk, _, _, h => by
    obtain ⟨_ | ⟨n, ns⟩, rfl⟩ := eq_object_of_kind (kind_eq_of_write_append_eq hj hk h).symm
    · exact ⟨rfl, List.append_cancel_left h⟩
    · cases h
  | object (m :: ms), k, _, _, hj, hk, _, _, h => by
    obtain ⟨_ | ⟨n, ns⟩, rfl⟩ := eq_object_of_kind (kind_eq_of_write_append_eq hj hk h).symm
    · cases h
    · obtain ⟨hmembers, hrest⟩ := writeMembers_append_inj (m :: ms) (n :: ns) hj hk
        (congrArg (',' :: ·) (List.cons.inj h).2)
      exact ⟨congrArg object hmembers, hrest⟩

theorem writeItems_append_inj : ∀ (js ks : List Json) {r r' : List Char}, ItemsFinite js →
    ItemsFinite ks → writeItems js ++ r = writeItems ks ++ r' → js = ks ∧ r = r'
  | [], [], _, _, _, _, h => ⟨rfl, by simpa [writeItems] using h⟩
  | [], k :: ks, _, _, _, _, h => by cases h
  | j :: js, [], _, _, _, _, h => by cases h
  | j :: js, k :: ks, r, r', hj, hk, h => by
    have h' : j.write ++ (writeItems js ++ r) = k.write ++ (writeItems ks ++ r') := by
      simpa [writeItems] using h
    obtain ⟨rfl, hitems⟩ := write_append_inj j k hj.1 hk.1 (ends_writeItems js r)
      (ends_writeItems ks r') h'
    obtain ⟨rfl, hrest⟩ := writeItems_append_inj js ks hj.2 hk.2 hitems
    exact ⟨rfl, hrest⟩

theorem writeMembers_append_inj : ∀ (ms ns : List (String × Json)) {r r' : List Char},
    MembersFinite ms → MembersFinite ns → writeMembers ms ++ r = writeMembers ns ++ r' →
    ms = ns ∧ r = r'
  | [], [], _, _, _, _, h => ⟨rfl, by simpa [writeMembers] using h⟩
  | [], n :: ns, _, _, _, _, h => by cases h
  | m :: ms, [], _, _, _, _, h => by cases h
  | (a, j) :: ms, (b, k) :: ns, r, r', hj, hk, h => by
    have h' : quote a ++ (':' :: (j.write ++ (writeMembers ms ++ r))) =
        quote b ++ (':' :: (k.write ++ (writeMembers ns ++ r'))) := by
      simpa [writeMembers] using h
    obtain ⟨rfl, hvalue⟩ := quote_append_inj h'
    obtain ⟨rfl, hmembers⟩ := write_append_inj j k hj.1 hk.1 (ends_writeMembers ms r)
      (ends_writeMembers ns r') (List.cons.inj hvalue).2
    obtain ⟨rfl, hrest⟩ := writeMembers_append_inj ms ns hj.2 hk.2 hmembers
    exact ⟨rfl, hrest⟩

end

lemma text_inj {j k : Json} (hj : j.IsFinite) (hk : k.IsFinite) (h : j.text = k.text) : j = k := by
  have hends : Ends [] := fun c hc => nomatch hc
  have hwrite : j.write = k.write := String.ofList_injective h
  have hnil : j.write ++ [] = k.write ++ [] := by rw [hwrite]
  exact (write_append_inj j k hj hk hends hends hnil).1

end Injectivity

section Nonfinite

mutual

/-- The value that is written: null in place of numbers that are not finite. -/
def written : Json → Json
  | float x => if Number.isFinite x then float x else null
  | array js => array (writtenItems js)
  | object ms => object (writtenMembers ms)
  | j => j

def writtenItems : List Json → List Json
  | [] => []
  | j :: js => written j :: writtenItems js

def writtenMembers : List (String × Json) → List (String × Json)
  | [] => []
  | (k, j) :: ms => (k, written j) :: writtenMembers ms

end

mutual

lemma isFinite_written : ∀ j : Json, j.written.IsFinite
  | null | bool _ | int _ | string _ => trivial
  | float x => by
    rw [written]
    split
    next h => exact h
    next => trivial
  | array js => itemsFinite_written js
  | object ms => membersFinite_written ms

lemma itemsFinite_written : ∀ js : List Json, ItemsFinite (writtenItems js)
  | [] => trivial
  | j :: js => ⟨isFinite_written j, itemsFinite_written js⟩

lemma membersFinite_written : ∀ ms : List (String × Json), MembersFinite (writtenMembers ms)
  | [] => trivial
  | (_, j) :: ms => ⟨isFinite_written j, membersFinite_written ms⟩

end

mutual

lemma write_written : ∀ j : Json, j.written.write = j.write
  | null | bool _ | int _ | string _ => rfl
  | float x => by
    rw [written]
    split
    next => rfl
    next h => exact (if_neg h).symm
  | array [] => rfl
  | array (j :: js) => by
    simp only [written, writtenItems, write, write_written j, writeItems_written js]
  | object [] => rfl
  | object ((k, j) :: ms) => by
    simp only [written, writtenMembers, write, write_written j, writeMembers_written ms]

lemma writeItems_written : ∀ js : List Json, writeItems (writtenItems js) = writeItems js
  | [] => rfl
  | j :: js => by
    simp only [writtenItems, writeItems, write_written j, writeItems_written js]

lemma writeMembers_written :
    ∀ ms : List (String × Json), writeMembers (writtenMembers ms) = writeMembers ms
  | [] => rfl
  | (k, j) :: ms => by
    simp only [writtenMembers, writeMembers, write_written j, writeMembers_written ms]

end

lemma writtenItems_eq (js : List Json) : writtenItems js = js.map written := by
  induction js with
  | nil => rfl
  | cons j js ih => rw [writtenItems, ih, List.map_cons]

lemma writtenMembers_eq (ms : List (String × Json)) :
    writtenMembers ms = ms.map fun m => (m.1, m.2.written) := by
  induction ms with
  | nil => rfl
  | cons m ms ih => rw [writtenMembers, ih, List.map_cons]

lemma written_list {α : Type} (f : α → Json) (as : List α) :
    (Json.list f as).written = Json.list (fun a => (f a).written) as := by
  rw [Json.list, written, writtenItems_eq, List.map_map]
  rfl

lemma list_inj {α : Type} {f : α → Json} (hf : ∀ a b, f a = f b → a = b) {as bs : List α}
    (h : Json.list f as = Json.list f bs) : as = bs :=
  List.map_injective_iff.mpr hf (Json.array.inj h)

lemma text_eq_text_iff {j k : Json} : j.text = k.text ↔ j.written = k.written := by
  have htext (j : Json) : j.written.text = j.text := by rw [text, text, write_written]
  constructor
  · intro h
    refine text_inj (isFinite_written j) (isFinite_written k) ?_
    rw [htext, htext, h]
  · intro h
    rw [← htext j, ← htext k, h]

end Nonfinite

end Recombine.Json
