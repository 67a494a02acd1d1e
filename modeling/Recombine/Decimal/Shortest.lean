/-! The fewest decimal digits that identify a binary number among its neighbours. -/

namespace Recombine.Decimal

inductive Tie
  | even
  | up
  deriving DecidableEq, Repr

/-- The numbers `x` with `low ≤ x * denominator ≤ high` around `middle / denominator`; the ends
belong to it when `closed`. -/
structure Span where
  low : Nat
  middle : Nat
  high : Nat
  denominator : Nat
  closed : Bool

/-- The reals that round to `mantissa * 2 ^ exponent`. The gap below a power of two is half as wide
as the one above it unless the exponent is the least one, and an end rounds to an even mantissa. -/
def Span.around (mantissa : Nat) (exponent : Int) : Span :=
  let narrow := mantissa = Nat.pow 2 52 ∧ -1074 < exponent
  let scale := Nat.pow 2 (exponent - 2).toNat
  { low := (4 * mantissa - if narrow then 1 else 2) * scale
    middle := 4 * mantissa * scale
    high := (4 * mantissa + 2) * scale
    denominator := Nat.pow 2 (2 - exponent).toNat
    closed := mantissa % 2 = 0 }

namespace Span

def scales (s : Span) (place : Int) : Nat × Nat :=
  (Nat.pow 10 place.toNat * s.denominator, Nat.pow 10 (-place).toNat)

def holds (s : Span) (place : Int) (count : Nat) : Bool :=
  let (unit, factor) := s.scales place
  let x := count * unit
  if s.closed then s.low * factor ≤ x && x ≤ s.high * factor
  else s.low * factor < x && x < s.high * factor

def floor (s : Span) (place : Int) : Nat :=
  let (unit, factor) := s.scales place
  s.middle * factor / unit

def prefersNext (s : Span) (tie : Tie) (place : Int) (count : Nat) : Bool :=
  let (unit, factor) := s.scales place
  match compare (2 * s.middle * factor) ((2 * count + 1) * unit) with
  | .lt => false
  | .gt => true
  | .eq => match tie with
    | .even => count % 2 = 1
    | .up => true

def nearest? (s : Span) (tie : Tie) (place : Int) : Option Nat :=
  let below := s.floor place
  match s.holds place below, s.holds place (below + 1) with
  | false, false => none
  | true, false => some below
  | false, true => some (below + 1)
  | true, true => some (if s.prefersNext tie place below then below + 1 else below)

def magnitude (s : Span) : Int :=
  let length (n : Nat) : Nat := (Nat.toDigits 10 n).length
  if s.denominator ≤ s.middle then length (s.middle / s.denominator)
  else
    let inverse := length (s.denominator / s.middle) - 1
    if s.middle * Nat.pow 10 inverse = s.denominator then 1 - (inverse : Int) else -(inverse : Int)

end Span

structure Scientific where
  digits : List Char
  exponent : Int
  deriving DecidableEq, Repr

def Scientific.zero : Scientific := ⟨['0'], 0⟩

def Scientific.ofCount (count : Nat) (place : Int) : Scientific :=
  let digits := Nat.toDigits 10 count
  { digits := (digits.reverse.dropWhile (· == '0')).reverse
    exponent := digits.length - 1 + place }

/-- The coarsest of the grids with one to seventeen digits that has a point in the span gives the
digits; seventeen always suffice. -/
def shortest (tie : Tie) (mantissa : Nat) (exponent : Int) : Scientific :=
  if mantissa = 0 then .zero
  else
    let span := Span.around mantissa exponent
    let top := span.magnitude
    let found := (List.range 17).findSome? fun count =>
      let place := top - (count + 1 : Nat)
      (span.nearest? tie place).map (Scientific.ofCount · place)
    found.getD (.ofCount (span.floor (top - 17)) (top - 17))

end Recombine.Decimal
