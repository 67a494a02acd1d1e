import Recombine.Number

namespace Recombine.Decimal

/-- The literal `± count * 10 ^ exponent`; it is `whole` when written without fraction and
exponent. -/
structure Numeral where
  negative : Bool
  count : Nat
  exponent : Int
  whole : Bool
  deriving DecidableEq, Repr

namespace Numeral

def magnitude (n : Numeral) : Float :=
  Float.ofScientific n.count (n.exponent < 0) n.exponent.natAbs

def float? (n : Numeral) : Option Float :=
  let x := n.magnitude
  if Number.isFinite x then some (if n.negative then -x else x) else none

def int? (n : Numeral) : Option Int :=
  if n.whole && !(n.negative && n.count == 0) then some (Number.signed n.negative n.count)
  else none

end Numeral

def digitValue (c : Char) : Nat := c.toNat - 48

def digitRun (cs : List Char) : List Char × List Char :=
  (cs.takeWhile Char.isDigit, cs.dropWhile Char.isDigit)

def countOf (digits : List Char) : Nat := digits.foldl (fun n c => 10 * n + digitValue c) 0

def readFraction : List Char → Option (List Char × List Char)
  | '.' :: cs =>
    match digitRun cs with
    | ([], _) => none
    | run => some run
  | cs => some ([], cs)

def readExponent (cs : List Char) : Option (Bool × Int × List Char) :=
  let unsigned (negative : Bool) (cs : List Char) :=
    match digitRun cs with
    | ([], _) => none
    | (digits, rest) => some (true, Number.signed negative (countOf digits), rest)
  match cs with
  | c :: cs' =>
    if c == 'e' || c == 'E' then
      match cs' with
      | '+' :: rest => unsigned false rest
      | '-' :: rest => unsigned true rest
      | _ => unsigned false cs'
    else some (false, 0, cs)
  | [] => some (false, 0, [])

def readWhole (cs : List Char) : Option (List Char × List Char) :=
  match digitRun cs with
  | ([], _) => none
  | (['0'], rest) => some (['0'], rest)
  | ('0' :: _, _) => none
  | run => some run

def Numeral.read (cs : List Char) : Option (Numeral × List Char) := do
  let (negative, cs) := match cs with
    | '-' :: rest => (true, rest)
    | _ => (false, cs)
  let (whole, cs) ← readWhole cs
  let (fraction, cs) ← readFraction cs
  let (scaled, exponent, cs) ← readExponent cs
  return ({ negative
            count := countOf (whole ++ fraction)
            exponent := exponent - fraction.length
            whole := fraction.isEmpty && !scaled }, cs)

end Recombine.Decimal
