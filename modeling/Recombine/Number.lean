namespace Recombine.Number

open Float.Model

def ofInt (i : Int) : Float := .ofModel (.ofInt i)

def ofNat (n : Nat) : Float := .ofModel (.ofNat n)

inductive Parts
  | nan
  | infinite (negative : Bool)
  | finite (negative : Bool) (mantissa : Nat) (exponent : Int)
  deriving DecidableEq, Repr

def isNegative : UnpackedFloat.Sign → Bool
  | .negative => true
  | .positive => false

/-- A finite number is `± mantissa * 2 ^ exponent`. -/
def parts (x : Float) : Parts :=
  match x.toModel.unpack with
  | .notANumber => .nan
  | .infinity s => .infinite (isNegative s)
  | .zero s => .finite (isNegative s) 0 0
  | .finite s m e _ => .finite (isNegative s) m e

def isFinite (x : Float) : Bool :=
  match parts x with
  | .finite .. => true
  | _ => false

def signed (negative : Bool) (n : Nat) : Int := if negative then -(n : Int) else n

def integral? (x : Float) : Option Int :=
  match parts x with
  | .finite negative m e =>
    if 0 ≤ e then some (signed negative (m * Nat.pow 2 e.toNat))
    else if m % Nat.pow 2 (-e).toNat = 0 then
      some (signed negative (m / Nat.pow 2 (-e).toNat))
    else none
  | _ => none

/-- Position in the total order of all numbers: by sign, then magnitude, so that `-0` comes before
`0` and a NaN after infinity. -/
def rank (x : Float) : Int :=
  let bits := x.toBits.toNat
  if bits < Nat.pow 2 63 then bits else (Nat.pow 2 63 : Int) - bits - 1

def compare? (x y : Float) : Option Ordering :=
  if x == y then some .eq else if x < y then some .lt else if y < x then some .gt else none

def totalCompare (x y : Float) : Ordering := compare (rank x) (rank y)

end Recombine.Number
