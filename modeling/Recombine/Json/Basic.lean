import Recombine.KeyMap
import Recombine.Decimal.Layout

namespace Recombine

inductive Json
  | null
  | bool (b : Bool)
  | int (i : Int)
  | float (x : Float)
  | string (s : String)
  | array (items : List Json)
  | object (members : List (String × Json))

namespace Json

def hexDigit (n : Nat) : Char := Nat.digitChar (n % 16)

def escapeChar (c : Char) : List Char :=
  if c = '"' then ['\\', '"']
  else if c = '\\' then ['\\', '\\']
  else if c = '\n' then ['\\', 'n']
  else if c = '\r' then ['\\', 'r']
  else if c = '\t' then ['\\', 't']
  else if c.toNat = 8 then ['\\', 'b']
  else if c.toNat = 12 then ['\\', 'f']
  else if c.toNat < 32 then ['\\', 'u', '0', '0', hexDigit (c.toNat / 16), hexDigit c.toNat]
  else [c]

def quote (s : String) : List Char := '"' :: (s.toList.flatMap escapeChar ++ ['"'])

def writeFloat (x : Float) : List Char :=
  if Number.isFinite x then Decimal.Layout.json.write x else ['n', 'u', 'l', 'l']

def writeInt (i : Int) : List Char :=
  if i < 0 then '-' :: Nat.toDigits 10 i.natAbs else Nat.toDigits 10 i.natAbs

mutual

def write : Json → List Char
  | null => ['n', 'u', 'l', 'l']
  | bool true => ['t', 'r', 'u', 'e']
  | bool false => ['f', 'a', 'l', 's', 'e']
  | int i => writeInt i
  | float x => writeFloat x
  | string s => quote s
  | array [] => ['[', ']']
  | array (j :: js) => '[' :: (write j ++ writeItems js)
  | object [] => ['{', '}']
  | object ((k, j) :: ms) => '{' :: (quote k ++ ':' :: (write j ++ writeMembers ms))

def writeItems : List Json → List Char
  | [] => [']']
  | j :: js => ',' :: (write j ++ writeItems js)

def writeMembers : List (String × Json) → List Char
  | [] => ['}']
  | (k, j) :: ms => ',' :: (quote k ++ ':' :: (write j ++ writeMembers ms))

end

def text (j : Json) : String := String.ofList j.write

mutual

/-- Members in ascending order of their keys at every level; of equal keys the last one stays. -/
def canonical : Json → Json
  | array js => array (canonicalItems js)
  | object ms => object (KeyMap.ofList (canonicalMembers ms)).entries
  | j => j

def canonicalItems : List Json → List Json
  | [] => []
  | j :: js => canonical j :: canonicalItems js

def canonicalMembers : List (String × Json) → List (String × Json)
  | [] => []
  | (k, j) :: ms => (k, canonical j) :: canonicalMembers ms

end

def ofOption {α : Type} (f : α → Json) : Option α → Json
  | none => null
  | some a => f a

def member? {α : Type} (k : String) (f : α → Json) : Option α → List (String × Json)
  | none => []
  | some a => [(k, f a)]

def strings (ss : List String) : Json := array (ss.map string)

def list {α : Type} (f : α → Json) (as : List α) : Json := array (as.map f)

def ofKeyMap {α : Type} (f : α → Json) (m : KeyMap α) : Json := object (m.map f).entries

end Json

end Recombine
