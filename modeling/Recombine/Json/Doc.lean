import Recombine.Decimal.Numeral

/-! JSON texts as written: literals undecoded, members in order and with repetitions, and the place
where a text stops being JSON. -/

namespace Recombine.Json

/-- A string literal is `none` when an escape in it names half of a surrogate pair. -/
inductive Doc
  | null
  | bool (b : Bool)
  | number (n : Decimal.Numeral)
  | string (s : Option String)
  | array (items : List Doc) (closed : Bool)
  | object (members : List (Option String × Doc)) (closed : Bool)
  | deep
  | cut

def maxDepth : Nat := 127

def isBlank (c : Char) : Bool := c == ' ' || c == '\n' || c == '\r' || c == '\t'

def skipBlank (cs : List Char) : List Char := cs.dropWhile isBlank

def hexValue? (c : Char) : Option Nat :=
  if c.isDigit then some (c.toNat - 48)
  else if 'a' ≤ c && c ≤ 'f' then some (c.toNat - 87)
  else if 'A' ≤ c && c ≤ 'F' then some (c.toNat - 55)
  else none

def codeUnit? (a b c d : Char) : Option Nat := do
  return 4096 * (← hexValue? a) + 256 * (← hexValue? b) + 16 * (← hexValue? c) + (← hexValue? d)

def simpleEscape? : Char → Option Char
  | '"' => some '"'
  | '\\' => some '\\'
  | '/' => some '/'
  | 'b' => some (Char.ofNat 8)
  | 'f' => some (Char.ofNat 12)
  | 'n' => some '\n'
  | 'r' => some '\r'
  | 't' => some '\t'
  | _ => none

structure Literal where
  reversed : List Char
  high : Option Nat
  sound : Bool

namespace Literal

def start : Literal := ⟨[], none, true⟩

def push (l : Literal) (c : Char) : Literal := ⟨c :: l.reversed, none, l.sound && l.high.isNone⟩

def pushUnit (l : Literal) (u : Nat) : Literal :=
  if 0xD800 ≤ u && u < 0xDC00 then ⟨l.reversed, some u, l.sound && l.high.isNone⟩
  else if 0xDC00 ≤ u && u < 0xE000 then
    match l.high with
    | some h =>
      let c := Char.ofNat (0x10000 + (h - 0xD800) * 0x400 + (u - 0xDC00))
      ⟨c :: l.reversed, none, l.sound⟩
    | none => ⟨l.reversed, none, false⟩
  else l.push (Char.ofNat u)

def finish (l : Literal) : Option String :=
  if l.sound && l.high.isNone then some (String.ofList l.reversed.reverse) else none

end Literal

def readString (l : Literal) : List Char → Option (Option String × List Char)
  | [] => none
  | '"' :: rest => some (l.finish, rest)
  | '\\' :: 'u' :: a :: b :: c :: d :: rest =>
    match codeUnit? a b c d with
    | some u => readString (l.pushUnit u) rest
    | none => none
  | '\\' :: c :: rest =>
    match simpleEscape? c with
    | some x => readString (l.push x) rest
    | none => none
  | c :: rest => if c.toNat < 32 || c == '\\' then none else readString (l.push c) rest

def afterWord? : List Char → List Char → Option (List Char)
  | [], cs => some cs
  | w :: ws, c :: cs => if w == c then afterWord? ws cs else none
  | _ :: _, [] => none

/-- A piece of the text and what follows it; nothing follows when the text stopped being JSON. -/
abbrev Read (α : Type) := α × Option (List Char)

def readWord (w : String) (d : Doc) (cs : List Char) : Read Doc :=
  match afterWord? w.toList cs with
  | some rest => (d, some rest)
  | none => (.cut, none)

def readNumber (cs : List Char) : Read Doc :=
  match Decimal.Numeral.read cs with
  | some (n, rest) => (.number n, some rest)
  | none => (.cut, none)

def enclose (depth : Nat) (d : Doc) (rest : Option (List Char)) : Read Doc :=
  (if depth < maxDepth then d else if rest.isSome then .deep else .cut, rest)

mutual

def readValue : Nat → Nat → List Char → Read Doc
  | 0, _, _ => (.cut, none)
  | fuel + 1, depth, cs =>
    match skipBlank cs with
    | 'n' :: rest => readWord "ull" .null rest
    | 't' :: rest => readWord "rue" (.bool true) rest
    | 'f' :: rest => readWord "alse" (.bool false) rest
    | '"' :: rest =>
      match readString .start rest with
      | some (s, rest) => (.string s, some rest)
      | none => (.cut, none)
    | '[' :: rest =>
      let (items, rest) := readItems fuel (depth + 1) true rest
      enclose depth (.array items rest.isSome) rest
    | '{' :: rest =>
      let (members, rest) := readMembers fuel (depth + 1) true rest
      enclose depth (.object members rest.isSome) rest
    | rest => readNumber rest

def readItems : Nat → Nat → Bool → List Char → Read (List Doc)
  | 0, _, _, _ => ([], none)
  | fuel + 1, depth, first, cs =>
    match first, skipBlank cs with
    | _, ']' :: rest => ([], some rest)
    | true, rest => readItem fuel depth rest
    | false, ',' :: rest =>
      match skipBlank rest with
      | ']' :: _ => ([], none)
      | rest => readItem fuel depth rest
    | false, _ => ([], none)

def readItem : Nat → Nat → List Char → Read (List Doc)
  | 0, _, _ => ([], none)
  | fuel + 1, depth, cs =>
    match readValue fuel depth cs with
    | (d, none) => ([d], none)
    | (d, some rest) =>
      let (ds, rest) := readItems fuel depth false rest
      (d :: ds, rest)

def readMembers : Nat → Nat → Bool → List Char → Read (List (Option String × Doc))
  | 0, _, _, _ => ([], none)
  | fuel + 1, depth, first, cs =>
    match first, skipBlank cs with
    | _, '}' :: rest => ([], some rest)
    | true, '"' :: rest => readMember fuel depth rest
    | false, ',' :: rest =>
      match skipBlank rest with
      | '"' :: rest => readMember fuel depth rest
      | _ => ([], none)
    | _, _ => ([], none)

def readMember : Nat → Nat → List Char → Read (List (Option String × Doc))
  | 0, _, _ => ([], none)
  | fuel + 1, depth, cs =>
    match readString .start cs with
    | none => ([], none)
    | some (key, rest) =>
      match skipBlank rest with
      | ':' :: rest =>
        match readValue fuel depth rest with
        | (d, none) => ([(key, d)], none)
        | (d, some rest) =>
          let (ms, rest) := readMembers fuel depth false rest
          ((key, d) :: ms, rest)
      | _ => ([(key, .cut)], none)

end

/-- Reads a whole text, and whether nothing but blanks follows its value. Every three steps of the
readers consume a character. -/
def Doc.ofText (text : String) : Doc × Bool :=
  let cs := text.toList
  match readValue (3 * cs.length + 3) 0 cs with
  | (d, some rest) => (d, (skipBlank rest).isEmpty)
  | (d, none) => (d, false)

end Recombine.Json
