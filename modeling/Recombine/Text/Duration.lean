namespace Recombine.Text

def fraction (width n : Nat) : List Char :=
  let digits := Nat.toDigits 10 n
  let padded := List.replicate (width - digits.length) '0' ++ digits
  (padded.reverse.dropWhile (· == '0')).reverse

def inUnits (width nanoseconds : Nat) (unit : String) : String :=
  let whole := Nat.toDigits 10 (nanoseconds / Nat.pow 10 width)
  match fraction width (nanoseconds % Nat.pow 10 width) with
  | [] => String.ofList whole ++ unit
  | digits => String.ofList (whole ++ '.' :: digits) ++ unit

def duration (nanoseconds : Nat) : String :=
  if Nat.pow 10 9 ≤ nanoseconds then inUnits 9 nanoseconds "s"
  else if Nat.pow 10 6 ≤ nanoseconds then inUnits 6 nanoseconds "ms"
  else if Nat.pow 10 3 ≤ nanoseconds then inUnits 3 nanoseconds "µs"
  else inUnits 0 nanoseconds "ns"

end Recombine.Text
