import Recombine.Proofs.Decimal.Literals
import Recombine.Proofs.Json.Texts

namespace Recombine.Json

open Decimal

mutual

def toDoc : Json → Doc
  | null => .null
  | bool b => .bool b
  | int i => .number (integer i)
  | float x => if Number.isFinite x then .number (numeral x) else .null
  | string s => .string (some s)
  | array js => .array (itemDocs js) true
  | object ms => .object (memberDocs ms) true

def itemDocs : List Json → List Doc
  | [] => []
  | j :: js => toDoc j :: itemDocs js

def memberDocs : List (String × Json) → List (Option String × Doc)
  | [] => []
  | (k, j) :: ms => (some k, toDoc j) :: memberDocs ms

end

lemma itemDocs_eq (js : List Json) : itemDocs js = js.map toDoc := by
  induction js with
  | nil => rfl
  | cons j js ih => rw [itemDocs, ih, List.map_cons]

lemma memberDocs_eq (ms : List (String × Json)) :
    memberDocs ms = ms.map fun m => (some m.1, m.2.toDoc) := by
  induction ms with
  | nil => rfl
  | cons m ms ih => rw [memberDocs, ih, List.map_cons]

namespace Doc

mutual

def height : Doc → Nat
  | array items _ => itemsHeight items + 1
  | object members _ => membersHeight members + 1
  | _ => 0

def itemsHeight : List Doc → Nat
  | [] => 0
  | d :: ds => max d.height (itemsHeight ds)

def membersHeight : List (Option String × Doc) → Nat
  | [] => 0
  | (_, d) :: ms => max d.height (membersHeight ms)

end

lemma height_le_of_mem_items {d : Doc} {ds : List Doc} (h : d ∈ ds) :
    d.height ≤ itemsHeight ds := by
  induction ds with
  | nil => cases h
  | cons d' ds ih =>
    rcases List.mem_cons.mp h with rfl | h
    · exact le_max_left _ _
    · exact (ih h).trans (le_max_right _ _)

lemma height_le_of_mem_members {m : Option String × Doc} {ms : List (Option String × Doc)}
    (h : m ∈ ms) : m.2.height ≤ membersHeight ms := by
  induction ms with
  | nil => cases h
  | cons m' ms ih =>
    rcases List.mem_cons.mp h with rfl | h
    · exact le_max_left _ _
    · exact (ih h).trans (le_max_right _ _)

lemma itemsHeight_le {ds : List Doc} {n : Nat} (h : ∀ d ∈ ds, d.height ≤ n) :
    itemsHeight ds ≤ n := by
  induction ds with
  | nil => exact Nat.zero_le n
  | cons d ds ih =>
    obtain ⟨hd, hds⟩ := List.forall_mem_cons.mp h
    exact max_le hd (ih hds)

lemma membersHeight_le {ms : List (Option String × Doc)} {n : Nat}
    (h : ∀ m ∈ ms, m.2.height ≤ n) : membersHeight ms ≤ n := by
  induction ms with
  | nil => exact Nat.zero_le n
  | cons m ms ih =>
    obtain ⟨hm, hms⟩ := List.forall_mem_cons.mp h
    exact max_le hm (ih hms)

end Doc

section Writing

variable {fuel depth : Nat} {r : List Char}

lemma skipBlank_cons {c : Char} (h : isBlank c = false) (r : List Char) :
    skipBlank (c :: r) = c :: r := by
  rw [skipBlank, List.dropWhile_cons, h]
  rfl

lemma ne_of_numeral {c d : Char} (h : c = '-' ∨ c.isDigit = true) (hd : d ≠ '-')
    (hd' : d.isDigit = false) : c ≠ d := by
  rintro rfl
  rcases h with h | h
  · exact hd h
  · rw [hd'] at h
    cases h

lemma isBlank_numeral {c : Char} (h : c = '-' ∨ c.isDigit = true) : isBlank c = false := by
  simp [isBlank, ne_of_numeral h]

lemma readValue_of_read {cs : List Char} {n : Numeral} (h : Numeral.read cs = some (n, r)) :
    readValue (fuel + 1) depth cs = (.number n, some r) := by
  obtain ⟨c, cs', rfl, hc⟩ := lead_of_read h
  have hne {d : Char} : d ≠ '-' → d.isDigit = false → c ≠ d := ne_of_numeral hc
  have hread : readNumber (c :: cs') = (.number n, some r) := by
    rw [readNumber, h]
  rw [readValue, skipBlank_cons (isBlank_numeral hc)]
  split
  next heq => exact absurd (List.cons.inj heq).1 (hne (by decide) rfl)
  next heq => exact absurd (List.cons.inj heq).1 (hne (by decide) rfl)
  next heq => exact absurd (List.cons.inj heq).1 (hne (by decide) rfl)
  next heq => exact absurd (List.cons.inj heq).1 (hne (by decide) rfl)
  next heq => exact absurd (List.cons.inj heq).1 (hne (by decide) rfl)
  next heq => exact absurd (List.cons.inj heq).1 (hne (by decide) rfl)
  next => exact hread

lemma exists_write_eq (j : Json) : ∃ c cs, j.write = c :: cs ∧ isBlank c = false ∧ c ≠ ']' := by
  have hends : Ends [] := fun c hc => nomatch hc
  have hnumeral {cs : List Char} {n : Numeral} (h : Numeral.read (cs ++ []) = some (n, [])) :
      ∃ c cs', cs = c :: cs' ∧ isBlank c = false ∧ c ≠ ']' := by
    rw [List.append_nil] at h
    obtain ⟨c, cs', hcs, hc⟩ := lead_of_read h
    exact ⟨c, cs', hcs, isBlank_numeral hc, ne_of_numeral hc (by decide) rfl⟩
  cases j with
  | null => exact ⟨'n', _, rfl, by decide, by decide⟩
  | bool b => cases b <;> exact ⟨_, _, rfl, by decide, by decide⟩
  | int i => exact hnumeral (read_writeInt i hends)
  | float x =>
    rw [write, writeFloat]
    split
    next hx => exact hnumeral ((numeral_spec hx).2.2 [] hends)
    next => exact ⟨'n', _, rfl, by decide, by decide⟩
  | string s => exact ⟨'"', _, rfl, by decide, by decide⟩
  | array js => cases js <;> exact ⟨'[', _, rfl, by decide, by decide⟩
  | object ms => cases ms <;> exact ⟨'{', _, rfl, by decide, by decide⟩

lemma length_write_pos (j : Json) : 0 < j.write.length := by
  obtain ⟨c, cs, hcs, -⟩ := exists_write_eq j
  rw [hcs]
  exact Nat.succ_pos _

lemma skipBlank_write (j : Json) (r : List Char) : skipBlank (j.write ++ r) = j.write ++ r := by
  obtain ⟨c, cs, hcs, hc, -⟩ := exists_write_eq j
  rw [hcs]
  exact skipBlank_cons hc _

lemma readItems_write (j : Json) (r : List Char) :
    readItems (fuel + 1) depth true (j.write ++ r) = readItem fuel depth (j.write ++ r) := by
  obtain ⟨c, cs, hcs, -, hbracket⟩ := exists_write_eq j
  rw [readItems.eq_def]
  dsimp only
  rw [skipBlank_write]
  split
  next heq =>
    rw [hcs] at heq
    exact absurd (List.cons.inj heq).1 hbracket
  next => rfl
  next => contradiction
  next => contradiction

lemma readItems_comma (j : Json) (r : List Char) :
    readItems (fuel + 1) depth false (',' :: (j.write ++ r)) =
      readItem fuel depth (j.write ++ r) := by
  obtain ⟨c, cs, hcs, -, hbracket⟩ := exists_write_eq j
  rw [readItems.eq_def]
  dsimp only
  rw [skipBlank_cons (by decide)]
  split
  next heq => cases heq
  next => contradiction
  next heq =>
    cases heq
    rw [skipBlank_write]
    split
    next heq =>
      rw [hcs] at heq
      exact absurd (List.cons.inj heq).1 hbracket
    next => rfl
  next hno => exact (hno _ rfl).elim

lemma quote_append (k : String) (r : List Char) :
    quote k ++ r = '"' :: (k.toList.flatMap escapeChar ++ '"' :: r) := by
  rw [quote, List.cons_append, List.append_assoc, List.singleton_append]

lemma readMembers_quote (k : String) (r : List Char) :
    readMembers (fuel + 1) depth true (quote k ++ r) =
      readMember fuel depth (k.toList.flatMap escapeChar ++ '"' :: r) := by
  rw [quote_append, readMembers.eq_def]
  rfl

lemma readMembers_comma (k : String) (r : List Char) :
    readMembers (fuel + 1) depth false (',' :: (quote k ++ r)) =
      readMember fuel depth (k.toList.flatMap escapeChar ++ '"' :: r) := by
  rw [quote_append, readMembers.eq_def]
  rfl

lemma readMember_quote {k : String} {cs rest : List Char} {d : Doc}
    (h : readValue fuel depth cs = (d, some rest)) :
    readMember (fuel + 1) depth (k.toList.flatMap escapeChar ++ '"' :: ':' :: cs) =
      ((some k, d) :: (readMembers fuel depth false rest).1,
        (readMembers fuel depth false rest).2) := by
  simp only [readMember, readString_quote, skipBlank_cons (c := ':') (by decide), h]

lemma readItem_of_read {cs rest : List Char} {d : Doc}
    (h : readValue fuel depth cs = (d, some rest)) : readItem (fuel + 1) depth cs =
      (d :: (readItems fuel depth false rest).1, (readItems fuel depth false rest).2) := by
  rw [readItem, h]

lemma readValue_quote (s : String) (r : List Char) :
    readValue (fuel + 1) depth (quote s ++ r) = (.string (some s), some r) := by
  simp only [readValue, quote_append, skipBlank_cons (c := '"') (by decide), readString_quote]

lemma readValue_array (h : depth < maxDepth) {cs : List Char} {items : List Doc}
    (hitems : readItems fuel (depth + 1) true cs = (items, some r)) :
    readValue (fuel + 1) depth ('[' :: cs) = (.array items true, some r) := by
  simp only [readValue, skipBlank_cons (c := '[') (by decide), hitems, enclose, if_pos h,
    Option.isSome_some]

lemma readValue_object (h : depth < maxDepth) {cs : List Char}
    {members : List (Option String × Doc)}
    (hmembers : readMembers fuel (depth + 1) true cs = (members, some r)) :
    readValue (fuel + 1) depth ('{' :: cs) = (.object members true, some r) := by
  simp only [readValue, skipBlank_cons (c := '{') (by decide), hmembers, enclose, if_pos h,
    Option.isSome_some]

lemma readValue_null (r : List Char) :
    readValue (fuel + 1) depth (['n', 'u', 'l', 'l'] ++ r) = (.null, some r) := by
  rw [readValue]
  rfl

lemma readValue_bool (b : Bool) (r : List Char) :
    readValue (fuel + 1) depth ((bool b).write ++ r) = (.bool b, some r) := by
  cases b <;> rw [readValue] <;> rfl

lemma readItems_end {first : Bool} (r : List Char) :
    readItems (fuel + 1) depth first (']' :: r) = ([], some r) := by
  rw [readItems.eq_def]
  cases first <;> rfl

lemma readMembers_end {first : Bool} (r : List Char) :
    readMembers (fuel + 1) depth first ('}' :: r) = ([], some r) := by
  rw [readMembers.eq_def]
  cases first <;> rfl

mutual

theorem readValue_write : ∀ (j : Json) (fuel depth : Nat) (r : List Char),
    3 * j.write.length ≤ fuel → j.toDoc.height + depth ≤ maxDepth → Ends r →
    readValue fuel depth (j.write ++ r) = (j.toDoc, some r)
  | j, 0, _, _, hfuel, _, _ => by
    obtain ⟨c, cs, hcs, -⟩ := exists_write_eq j
    rw [hcs, List.length_cons] at hfuel
    omega
  | null, fuel + 1, _, r, _, _, _ => readValue_null r
  | bool b, fuel + 1, _, r, _, _, _ => readValue_bool b r
  | int i, fuel + 1, _, _, _, _, hr => readValue_of_read (read_writeInt i hr)
  | float x, fuel + 1, _, r, _, _, hr => by
    rw [write, writeFloat, toDoc]
    split
    next hx => exact readValue_of_read ((numeral_spec hx).2.2 _ hr)
    next => exact readValue_null r
  | string s, fuel + 1, _, r, _, _, _ => readValue_quote s r
  | array [], fuel + 1, depth, r, hfuel, hheight, _ => by
    rw [write, List.length_cons, List.length_singleton] at hfuel
    rw [toDoc, Doc.height] at hheight
    obtain ⟨fuel, rfl⟩ := Nat.exists_eq_add_of_lt (by omega : 0 < fuel)
    exact readValue_array (by omega) (readItems_end r)
  | array (j :: js), fuel + 1, depth, r, hfuel, hheight, _ => by
    have hpos := length_write_pos j
    rw [write, List.length_cons, List.length_append] at hfuel
    rw [toDoc, Doc.height, itemDocs, Doc.itemsHeight] at hheight
    obtain ⟨fuel, rfl⟩ := Nat.exists_eq_add_of_le (by omega : 2 ≤ fuel)
    have hj := readValue_write j fuel (depth + 1) (writeItems js ++ r)
      (by omega) (by omega) (ends_writeItems js r)
    have hjs := readItems_writeItems js fuel (depth + 1) r (by omega)
      (by omega)
    rw [write, List.cons_append, List.append_assoc]
    refine readValue_array (by omega) ?_
    rw [Nat.add_comm 2 fuel, readItems_write, readItem_of_read hj, hjs, itemDocs]
  | object [], fuel + 1, depth, r, hfuel, hheight, _ => by
    rw [write, List.length_cons, List.length_singleton] at hfuel
    rw [toDoc, Doc.height] at hheight
    obtain ⟨fuel, rfl⟩ := Nat.exists_eq_add_of_lt (by omega : 0 < fuel)
    exact readValue_object (by omega) (readMembers_end r)
  | object ((k, j) :: ms), fuel + 1, depth, r, hfuel, hheight, _ => by
    have hpos := length_write_pos j
    rw [write, List.length_cons, List.length_append, List.length_cons, List.length_append] at hfuel
    rw [toDoc, Doc.height, memberDocs, Doc.membersHeight] at hheight
    obtain ⟨fuel, rfl⟩ := Nat.exists_eq_add_of_le (by omega : 2 ≤ fuel)
    have hj := readValue_write j fuel (depth + 1) (writeMembers ms ++ r)
      (by omega) (by omega) (ends_writeMembers ms r)
    have hms := readMembers_writeMembers ms fuel (depth + 1) r (by omega)
      (by omega)
    rw [write, List.cons_append, List.append_assoc, List.cons_append, List.append_assoc]
    refine readValue_object (by omega) ?_
    rw [Nat.add_comm 2 fuel, readMembers_quote, readMember_quote hj, hms, memberDocs]

theorem readItems_writeItems : ∀ (js : List Json) (fuel depth : Nat) (r : List Char),
    3 * (writeItems js).length ≤ fuel → Doc.itemsHeight (itemDocs js) + depth ≤ maxDepth →
    readItems fuel depth false (writeItems js ++ r) = (itemDocs js, some r)
  | [], fuel, depth, r, hfuel, _ => by
    rw [writeItems, List.length_singleton] at hfuel
    obtain ⟨fuel, rfl⟩ := Nat.exists_eq_add_of_lt (by omega : 0 < fuel)
    exact readItems_end r
  | j :: js, fuel, depth, r, hfuel, hheight => by
    rw [writeItems, List.length_cons, List.length_append] at hfuel
    rw [itemDocs, Doc.itemsHeight] at hheight
    obtain ⟨fuel, rfl⟩ := Nat.exists_eq_add_of_le (by omega : 2 ≤ fuel)
    have hj := readValue_write j fuel depth (writeItems js ++ r)
      (by omega) (by omega) (ends_writeItems js r)
    have hjs := readItems_writeItems js fuel depth r (by omega)
      (by omega)
    rw [writeItems, List.cons_append, List.append_assoc, Nat.add_comm 2 fuel, readItems_comma,
      readItem_of_read hj, hjs, itemDocs]

theorem readMembers_writeMembers : ∀ (ms : List (String × Json)) (fuel depth : Nat)
    (r : List Char), 3 * (writeMembers ms).length ≤ fuel →
    Doc.membersHeight (memberDocs ms) + depth ≤ maxDepth →
    readMembers fuel depth false (writeMembers ms ++ r) = (memberDocs ms, some r)
  | [], fuel, depth, r, hfuel, _ => by
    rw [writeMembers, List.length_singleton] at hfuel
    obtain ⟨fuel, rfl⟩ := Nat.exists_eq_add_of_lt (by omega : 0 < fuel)
    exact readMembers_end r
  | (k, j) :: ms, fuel, depth, r, hfuel, hheight => by
    rw [writeMembers, List.length_cons, List.length_append, List.length_cons,
      List.length_append] at hfuel
    rw [memberDocs, Doc.membersHeight] at hheight
    obtain ⟨fuel, rfl⟩ := Nat.exists_eq_add_of_le (by omega : 2 ≤ fuel)
    have hj := readValue_write j fuel depth (writeMembers ms ++ r)
      (by omega) (by omega) (ends_writeMembers ms r)
    have hms := readMembers_writeMembers ms fuel depth r (by omega)
      (by omega)
    rw [writeMembers, List.cons_append, List.append_assoc, List.cons_append, List.append_assoc,
      Nat.add_comm 2 fuel, readMembers_comma, readMember_quote hj, hms, memberDocs]

end

theorem ofText_text {j : Json} (h : j.toDoc.height ≤ maxDepth) :
    Doc.ofText j.text = (j.toDoc, true) := by
  have hends : Ends [] := fun c hc => nomatch hc
  have hread := readValue_write j (3 * j.write.length + 3) 0 []
    (Nat.le_add_right _ _) h hends
  rw [List.append_nil] at hread
  rw [Doc.ofText, text, String.toList_ofList, hread]
  rfl

end Writing

section Heights

lemma height_readWord (w : String) {d : Doc} (h : d.height = 0) (cs : List Char) :
    (readWord w d cs).1.height = 0 := by
  rw [readWord]
  split
  next => exact h
  next => rfl

lemma height_readNumber (cs : List Char) : (readNumber cs).1.height = 0 := by
  rw [readNumber]
  split <;> rfl

lemma height_enclose {depth : Nat} {d : Doc} (h : depth < maxDepth → d.height ≤ maxDepth - depth)
    (rest : Option (List Char)) : (enclose depth d rest).1.height ≤ maxDepth - depth := by
  rw [enclose]
  split
  next hlt => exact h hlt
  next => split <;> exact Nat.zero_le _

mutual

theorem height_readValue : ∀ (fuel depth : Nat) (cs : List Char),
    (readValue fuel depth cs).1.height ≤ maxDepth - depth
  | 0, _, _ => by
    rw [readValue]
    exact Nat.zero_le _
  | fuel + 1, depth, cs => by
    rw [readValue]
    split
    next => exact (height_readWord _ rfl _).trans_le (Nat.zero_le _)
    next => exact (height_readWord _ rfl _).trans_le (Nat.zero_le _)
    next => exact (height_readWord _ rfl _).trans_le (Nat.zero_le _)
    next => split <;> exact Nat.zero_le _
    next rest _ =>
      have hitems := height_readItems fuel (depth + 1) true rest
      refine height_enclose (fun hlt => ?_) _
      rw [Doc.height]
      omega
    next rest _ =>
      have hmembers := height_readMembers fuel (depth + 1) true rest
      refine height_enclose (fun hlt => ?_) _
      rw [Doc.height]
      omega
    next => exact (height_readNumber _).trans_le (Nat.zero_le _)

theorem height_readItems : ∀ (fuel depth : Nat) (first : Bool) (cs : List Char),
    Doc.itemsHeight (readItems fuel depth first cs).1 ≤ maxDepth - depth
  | 0, _, _, _ => by
    rw [readItems]
    exact Nat.zero_le _
  | fuel + 1, depth, first, cs => by
    rw [readItems.eq_def]
    dsimp only
    split
    next => exact Nat.zero_le _
    next => exact height_readItem fuel depth _
    next =>
      split
      next => exact Nat.zero_le _
      next => exact height_readItem fuel depth _
    next => exact Nat.zero_le _

theorem height_readItem : ∀ (fuel depth : Nat) (cs : List Char),
    Doc.itemsHeight (readItem fuel depth cs).1 ≤ maxDepth - depth
  | 0, _, _ => by
    rw [readItem]
    exact Nat.zero_le _
  | fuel + 1, depth, cs => by
    have hvalue := height_readValue fuel depth cs
    rw [readItem]
    split
    next heq =>
      rw [heq] at hvalue
      exact max_le hvalue (Nat.zero_le _)
    next rest heq =>
      rw [heq] at hvalue
      exact max_le hvalue (height_readItems fuel depth false rest)

theorem height_readMembers : ∀ (fuel depth : Nat) (first : Bool) (cs : List Char),
    Doc.membersHeight (readMembers fuel depth first cs).1 ≤ maxDepth - depth
  | 0, _, _, _ => by
    rw [readMembers]
    exact Nat.zero_le _
  | fuel + 1, depth, first, cs => by
    rw [readMembers.eq_def]
    dsimp only
    split
    next => exact Nat.zero_le _
    next => exact height_readMember fuel depth _
    next =>
      split
      next => exact height_readMember fuel depth _
      next => exact Nat.zero_le _
    next => exact Nat.zero_le _

theorem height_readMember : ∀ (fuel depth : Nat) (cs : List Char),
    Doc.membersHeight (readMember fuel depth cs).1 ≤ maxDepth - depth
  | 0, _, _ => by
    rw [readMember]
    exact Nat.zero_le _
  | fuel + 1, depth, cs => by
    rw [readMember]
    split
    next => exact Nat.zero_le _
    next =>
      split
      next rest _ =>
        have hvalue := height_readValue fuel depth rest
        split
        next heq =>
          rw [heq] at hvalue
          exact max_le hvalue (Nat.zero_le _)
        next rest heq =>
          rw [heq] at hvalue
          exact max_le hvalue (height_readMembers fuel depth false rest)
      next => exact max_le (Nat.zero_le _) (Nat.zero_le _)

end

lemma height_ofText (text : String) : (Doc.ofText text).1.height ≤ maxDepth := by
  have hread := height_readValue (3 * text.toList.length + 3) 0 text.toList
  rw [Doc.ofText]
  split
  next heq =>
    rw [heq] at hread
    exact hread
  next heq =>
    rw [heq] at hread
    exact hread

end Heights

end Recombine.Json
