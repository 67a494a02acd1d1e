import Recombine.Pipeline.Basic

/-! Runs step by step. Workers carry out the fetches side by side: any fetch that waits may be the
next one to get a free worker, and any one under way the next one to end. The limit of the run may
pass at any time. -/

namespace Recombine

/-- The fetches that wait for a worker, those under way, and what came of the others, in the order
in which they ended. Each bears the place of its scan in the plan. -/
structure Crew where
  workers : Nat
  waiting : List (Nat × Scan)
  running : List (Nat × Scan) := []
  ended : List Completion := []

inductive Turn
  | start (place : Nat)
  | finish (place : Nat)

namespace Crew

def ofScans (workers : Nat) (scans : List Scan) : Crew where
  workers
  waiting := (List.range scans.length).zip scans

def start (c : Crew) (place : Nat) : Crew :=
  match c.waiting[place]? with
  | none => c
  | some item =>
    if c.running.length < c.workers then
      { c with waiting := c.waiting.eraseIdx place, running := c.running ++ [item] }
    else c

def finish (fetch : Scan → Fetch) (c : Crew) (place : Nat) : Crew :=
  match c.running[place]? with
  | none => c
  | some item =>
    match fetch item.2 with
    | .stalled => c
    | .ended result =>
      { c with
        running := c.running.eraseIdx place
        ended := c.ended ++ [⟨item.1, item.2, result⟩] }

def step (fetch : Scan → Fetch) (c : Crew) : Turn → Crew
  | .start place => c.start place
  | .finish place => c.finish fetch place

def run (fetch : Scan → Fetch) (c : Crew) (turns : List Turn) : Crew := turns.foldl (step fetch) c

def isDone (c : Crew) : Bool := c.waiting.isEmpty && c.running.isEmpty

def inTurn (fetch : Scan → Fetch) : Nat → List (Nat × Scan) → List Turn
  | _, [] => []
  | stalled, item :: items =>
    match fetch item.2 with
    | .ended _ => .start 0 :: .finish stalled :: inTurn fetch stalled items
    | .stalled => .start 0 :: inTurn fetch (stalled + 1) items

end Crew

def Collection.within (limit scans : Nat) (cs : List Completion) : Except Failure Collection := do
  match ← Collection.ofCompletions scans cs with
  | some collection => return collection
  | none => throw (.timeout (Pipeline.timeoutReason limit))

/-- How a run goes: the turns that its fetches take before the limit passes, the instant at which
it looks for earlier outputs, and the one at which it keeps its own, unless the limit passes while
it evaluates. -/
structure Course where
  turns : List Turn
  lookedUp : Nat
  kept : Option Nat

namespace Pipeline

def crew (p : Pipeline) (scans : List Scan) : Crew :=
  .ofScans (max 1 (p.workers.getD scans.length)) scans

def prepareIn (p : Pipeline) (turns : List Turn) (plan : Plan) (engine : Option Engine)
    (fetch : Scan → Fetch) : Except Failure Job :=
  match plan.compile with
  | .error e => .error (.compile e)
  | .ok dag => (⟨dag, engine.getD p.engine, ·⟩) <$>
      Collection.within p.limit plan.scans.length ((p.crew plan.scans).run fetch turns).ended

def runIn (p : Pipeline) (course : Course) (plan : Plan) (engine : Option Engine)
    (fetch : Scan → Fetch) : Except Failure Outcome × Pipeline :=
  match p.prepareIn course.turns plan engine fetch with
  | .error f => (.error f, p)
  | .ok job =>
    match p.lookUp course.lookedUp job, course.kept with
    | (some outputs, p), _ => (.ok (job.outcome outputs true), p)
    | (none, p), some now => p.finish now job
    | (none, p), none => (.error (.timeout (timeoutReason p.limit)), p)

end Pipeline

end Recombine
