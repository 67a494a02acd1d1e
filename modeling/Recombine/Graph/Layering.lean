import Recombine.KeyMap

/-! Layers of a directed graph, found by counting off arcs. A vertex is ready for the next layer as
soon as every arc to it has been counted off; the vertices that never are wait for a cycle. -/

namespace Recombine.Graph

abbrev Arc := String × String

structure Layering where
  layers : List (List String)
  unplaced : List String
  deriving DecidableEq, Repr

def Layering.isAcyclic (l : Layering) : Bool := l.unplaced.isEmpty

structure Countdown where
  counts : KeyMap Int
  successors : KeyMap (List String)
  /-- The ends of arcs from the last layer that are still to be counted off. -/
  pending : List String
  ready : KeyMap Unit
  layers : List (List String)
  deriving DecidableEq

namespace Countdown

def ofVertices (vertices : List String) : Countdown :=
  { counts := (KeyMap.ofKeys vertices).map fun _ => 0
    successors := ∅
    pending := []
    ready := ∅
    layers := [] }

def targets (c : Countdown) (v : String) : List String := (c.successors.get? v).getD []

def addArc (c : Countdown) (a : Arc) : Countdown :=
  if c.counts.contains a.1 then
    match c.counts.get? a.2 with
    | none => c
    | some n =>
      { c with
        counts := c.counts.insert a.2 (n + 1)
        successors := c.successors.insert a.1 (c.targets a.1 ++ [a.2]) }
  else c

def release (c : Countdown) : Countdown :=
  { c with ready := (c.counts.filter fun _ n => n == 0).map fun _ => () }

def start (vertices : List String) (arcs : List Arc) : Countdown :=
  (arcs.foldl addArc (ofVertices vertices)).release

def countOff (c : Countdown) (v : String) : Countdown :=
  match c.counts.get? v with
  | none => c
  | some n =>
    { c with
      counts := c.counts.insert v (n - 1)
      ready := if n - 1 = 0 then c.ready.insert v () else c.ready }

def nextLayer (c : Countdown) : Countdown :=
  { c with
    pending := c.ready.keys.flatMap c.targets
    ready := ∅
    layers := c.layers ++ [c.ready.keys] }

def step (c : Countdown) : Option Countdown :=
  match c.pending with
  | v :: rest => some ({ c with pending := rest }.countOff v)
  | [] => if c.ready.isEmpty then none else some c.nextLayer

def waiting (c : Countdown) : Nat := (c.counts.filter fun _ n => 0 < n).size + c.ready.size

theorem countOff_pending (c : Countdown) (v : String) : (c.countOff v).pending = c.pending := by
  rw [countOff]
  split <;> rfl

theorem toNat_pred (n : Int) :
    (decide (0 < n - 1)).toNat + (if n - 1 = 0 then 1 else 0) = (decide (0 < n)).toNat := by
  by_cases h : n = 1
  · rw [h]
    rfl
  · have hpos : (0 < n - 1) = (0 < n) := propext (by omega)
    simp only [hpos, if_neg (show ¬ n - 1 = 0 by omega), Nat.add_zero]

theorem countOff_waiting (c : Countdown) (v : String) : (c.countOff v).waiting ≤ c.waiting := by
  rw [countOff]
  split
  next => exact Nat.le_refl _
  next n hn =>
    have hcount := KeyMap.size_filter_insert (fun _ n => decide (0 < n)) hn (n - 1)
    have hready : (if n - 1 = 0 then c.ready.insert v () else c.ready).size ≤
        c.ready.size + if n - 1 = 0 then 1 else 0 := by
      split
      · exact KeyMap.size_insert_le c.ready v ()
      · exact Nat.le_refl _
    have hpred := toNat_pred n
    simp only [waiting]
    omega

theorem nextLayer_waiting {c : Countdown} (h : ¬ c.ready.isEmpty) :
    c.nextLayer.waiting < c.waiting := by
  have hpos : 0 < c.ready.size := by
    rw [KeyMap.size, List.length_pos_iff]
    simpa [KeyMap.isEmpty] using h
  exact Nat.add_lt_add_left hpos _

theorem step_decreases {c d : Countdown} (h : c.step = some d) :
    Prod.Lex (· < ·) (· < ·) (d.waiting, d.pending.length) (c.waiting, c.pending.length) := by
  rw [step] at h
  split at h
  next v rest hpending =>
    cases h
    rw [Prod.lex_def]
    have hle : _ ≤ c.waiting := countOff_waiting { c with pending := rest } v
    rw [countOff_pending, hpending]
    rcases Nat.lt_or_eq_of_le hle with hlt | heq
    · exact Or.inl hlt
    · exact Or.inr ⟨heq, Nat.lt_succ_self _⟩
  next =>
    split at h
    next => cases h
    next hready =>
      cases h
      exact Prod.Lex.left _ _ (nextLayer_waiting hready)

def run (c : Countdown) : Countdown :=
  match _h : c.step with
  | none => c
  | some d => d.run
termination_by (c.waiting, c.pending.length)
decreasing_by exact step_decreases ‹_›

def result (c : Countdown) : Layering where
  layers := c.layers
  unplaced := c.counts.keys.filter fun v => !c.layers.flatten.contains v

end Countdown

def layering (vertices : List String) (arcs : List Arc) : Layering :=
  (Countdown.start vertices arcs).run.result

end Recombine.Graph
