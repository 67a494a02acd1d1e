import Recombine.Engine.Accumulator

namespace Recombine

structure Measure (α : Type) where
  aggregation : Aggregation
  value : α → Value

structure Tally (κ α : Type) where
  slots : List (κ × Nat)
  groups : List (α × List Accumulator)

namespace Tally

variable {κ α : Type} [DecidableEq κ]

def empty : Tally κ α := ⟨[], []⟩

def slot (measures : List (Measure α)) (k : κ) (a : α) (t : Tally κ α) : Nat × Tally κ α :=
  match t.slots.lookup k with
  | some place => (place, t)
  | none =>
    (t.groups.length,
      { slots := t.slots ++ [(k, t.groups.length)]
        groups := t.groups ++ [(a, measures.map fun m => .start m.aggregation)] })

def push (measures : List (Measure α)) (a : α) (g : α × List Accumulator) :
    α × List Accumulator :=
  (g.1, List.zipWith (fun m acc => acc.push (m.value a)) measures g.2)

def add (key : α → κ) (measures : List (Measure α)) (t : Tally κ α) (a : α) : Tally κ α :=
  let (place, t) := t.slot measures (key a) a
  { t with groups := t.groups.modify place (push measures a) }

def ofList (key : α → κ) (measures : List (Measure α)) (as : List α) : Tally κ α :=
  as.foldl (add key measures) empty

end Tally

end Recombine
