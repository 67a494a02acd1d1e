import Recombine.Json.Decode

namespace Recombine

inductive Value
  | null
  | bool (b : Bool)
  | int (i : Int64)
  | float (x : Float)
  | text (s : String)
  deriving DecidableEq

namespace Value

instance : Inhabited Value := ⟨null⟩

def isNull : Value → Bool
  | null => true
  | _ => false

def number? : Value → Option Float
  | int i => some (Number.ofInt i.toInt)
  | float x => some x
  | _ => none

def text? : Value → Option String
  | text s => some s
  | _ => none

/-- Equality of cells: two integers exactly, other numbers as numbers, and values of different
kinds never. -/
def looseEq : Value → Value → Bool
  | null, null => true
  | bool a, bool b => a == b
  | int a, int b => a == b
  | text a, text b => a == b
  | a, b =>
    match a.number?, b.number? with
    | some x, some y => x == y
    | _, _ => false

def compare? : Value → Value → Option Ordering
  | int a, int b => some (compare a b)
  | text a, text b => some (compare a b)
  | a, b =>
    match a.number?, b.number? with
    | some x, some y => Number.compare? x y
    | _, _ => none

def kindRank : Value → Nat
  | null => 0
  | bool _ => 1
  | int _ | float _ => 2
  | text _ => 3

def totalCompare : Value → Value → Ordering
  | bool a, bool b => compare a b
  | int a, int b => compare a b
  | text a, text b => compare a b
  | a, b =>
    match a.number?, b.number? with
    | some x, some y => Number.totalCompare x y
    | _, _ => compare a.kindRank b.kindRank

/-- Among these cells, a cell that is not after another is not after those that this one is not
after. -/
def TransitiveOn (vs : List Value) : Prop :=
  ∀ a ∈ vs, ∀ b ∈ vs, ∀ c ∈ vs, (a.totalCompare b).isLE = true → (b.totalCompare c).isLE = true →
    (a.totalCompare c).isLE = true

instance : DecidablePred TransitiveOn := fun vs =>
  inferInstanceAs (Decidable (∀ a ∈ vs, ∀ b ∈ vs, ∀ c ∈ vs, (a.totalCompare b).isLE = true →
    (b.totalCompare c).isLE = true → (a.totalCompare c).isLE = true))

def IsFloat : Value → Prop
  | float _ => True
  | _ => False

/-- An integer of more than 53 bits, which may not be the value of a number. -/
def IsLarge : Value → Prop
  | int i => Nat.pow 2 53 < i.toInt.natAbs
  | _ => False

instance : DecidablePred IsFloat
  | float _ => .isTrue trivial
  | null | bool _ | int _ | text _ => .isFalse id

instance : DecidablePred IsLarge
  | int i => inferInstanceAs (Decidable (Nat.pow 2 53 < i.toInt.natAbs))
  | null | bool _ | float _ | text _ => .isFalse id

inductive Key
  | null
  | bool (b : Bool)
  | int (i : Int64)
  | float (bits : UInt64)
  | text (s : String)
  deriving DecidableEq, Repr

/-- A float that is an integer in the range of cells has the key of that integer. -/
def key : Value → Key
  | null => .null
  | bool b => .bool b
  | int i => .int i
  | float x =>
    match Number.integral? x with
    | some i =>
      if Int64.minValue.toInt ≤ i ∧ i ≤ Int64.maxValue.toInt then .int (Int64.ofInt i)
      else .float x.toBits
    | none => .float x.toBits
  | text s => .text s

def display : Value → String
  | null => "null"
  | bool true => "true"
  | bool false => "false"
  | int i => String.ofList (Json.writeInt i.toInt)
  | float x => Decimal.Layout.plain.text x
  | text s => s

def toJson : Value → Json
  | null => .null
  | bool b => .bool b
  | int i => .int i.toInt
  | float x => .float x
  | text s => .string s

def ofNumeral (n : Decimal.Numeral) : Value :=
  match n.int? with
  | some i =>
    if Int64.minValue.toInt ≤ i ∧ i ≤ Int64.maxValue.toInt then int (Int64.ofInt i)
    else float (n.float?.getD 0)
  | none => float (n.float?.getD 0)

def ofDoc : Json.Doc → Except Json.Fault Value
  | .null => .ok null
  | .bool b => .ok (bool b)
  | .number n => .ok (ofNumeral n)
  | .string (some s) => .ok (text s)
  | _ => .error .mismatch

def decode : Json.Decoder Value := Json.Decoder.whole ofDoc

end Value

end Recombine
