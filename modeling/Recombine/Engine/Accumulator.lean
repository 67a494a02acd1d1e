import Recombine.Plan.PostOp

namespace Recombine

structure Total where
  numbers : Nat := 0
  floats : Nat := 0
  whole : Option Int64 := some 0
  sum : Float := 0

namespace Total

def add? (a b : Int64) : Option Int64 :=
  let s := a.toInt + b.toInt
  if Int64.minValue.toInt ≤ s ∧ s ≤ Int64.maxValue.toInt then some (Int64.ofInt s) else none

def push (t : Total) : Value → Total
  | .int i =>
    { t with
      numbers := t.numbers + 1
      whole := t.whole.bind (add? · i)
      sum := t.sum + Number.ofInt i.toInt }
  | .float x => { t with numbers := t.numbers + 1, floats := t.floats + 1, sum := t.sum + x }
  | _ => t

def result (t : Total) : Value :=
  match t.whole with
  | some n => if t.floats = 0 then .int n else .float t.sum
  | none => .float t.sum

def average (t : Total) : Value :=
  .float (if t.numbers = 0 then 0 else t.sum / Number.ofNat t.numbers)

end Total

inductive Accumulator
  | count (rows : Nat)
  | sum (total : Total)
  | average (total : Total)
  | extremum (wanted : Ordering) (best : Value)

namespace Accumulator

def start : Aggregation → Accumulator
  | .count => count 0
  | .sum => sum {}
  | .average => average {}
  | .min => extremum .lt .null
  | .max => extremum .gt .null

def better (wanted : Ordering) (best v : Value) : Value :=
  if v.isNull then best
  else if best.isNull || v.totalCompare best == wanted then v
  else best

def push : Accumulator → Value → Accumulator
  | count rows, _ => count (rows + 1)
  | sum t, v => sum (t.push v)
  | average t, v => average (t.push v)
  | extremum wanted best, v => extremum wanted (better wanted best v)

def result : Accumulator → Value
  | count rows => .int (Int64.ofNat rows)
  | sum t => t.result
  | average t => t.average
  | extremum _ best => best

def aggregate (a : Aggregation) (vs : List Value) : Value := (vs.foldl push (start a)).result

end Accumulator

end Recombine
