import Recombine.Decimal.Shortest
import Recombine.Number

namespace Recombine.Decimal

/-- How a number is laid out: the exponents written positionally, whether a fraction is always
shown, and the tie between two shortest decimals. -/
structure Layout where
  positional : Int → Bool
  fraction : Bool
  tie : Tie

def Layout.json : Layout := ⟨fun e => -5 ≤ e && e < 16, true, .even⟩

def Layout.plain : Layout := ⟨fun _ => true, false, .up⟩

def zeros (n : Nat) : List Char := List.replicate n '0'

namespace Scientific

def split (d : Scientific) : List Char × List Char :=
  if d.exponent < 0 then (['0'], zeros (-d.exponent - 1).toNat ++ d.digits)
  else
    let whole := d.exponent.toNat + 1
    (d.digits.take whole ++ zeros (whole - d.digits.length), d.digits.drop whole)

def writePositional (d : Scientific) (fraction : Bool) : List Char :=
  match d.split with
  | (whole, []) => if fraction then whole ++ ['.', '0'] else whole
  | (whole, rest) => whole ++ '.' :: rest

def writeExponent (e : Int) : List Char :=
  'e' :: (if e < 0 then '-' else '+') :: Nat.toDigits 10 e.natAbs

def writeScientific (d : Scientific) : List Char :=
  match d.digits with
  | [] => []
  | [c] => c :: writeExponent d.exponent
  | c :: rest => c :: '.' :: rest ++ writeExponent d.exponent

end Scientific

namespace Layout

def writeMagnitude (l : Layout) (mantissa : Nat) (exponent : Int) : List Char :=
  let d := shortest l.tie mantissa exponent
  if l.positional d.exponent then d.writePositional l.fraction else d.writeScientific

def write (l : Layout) (x : Float) : List Char :=
  match Number.parts x with
  | .nan => ['N', 'a', 'N']
  | .infinite negative => if negative then ['-', 'i', 'n', 'f'] else ['i', 'n', 'f']
  | .finite negative m e =>
    if negative then '-' :: l.writeMagnitude m e else l.writeMagnitude m e

def text (l : Layout) (x : Float) : String := String.ofList (l.write x)

end Layout

end Recombine.Decimal
