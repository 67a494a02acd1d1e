import Recombine.Service.Router

/-! Execute requests that are served side by side. All they share is the cache, and each uses it at
two instants: when it looks for an earlier result, and when it keeps its own. -/

namespace Recombine

structure Run where
  request : Request
  stamp : Stamp
  job : Job

structure Answer where
  request : Request
  stamp : Stamp
  reply : Reply

/-- The requests that have not looked for an earlier result yet, those that have found none, and
the answers that have been given so far, in this order. -/
structure Traffic where
  pipeline : Pipeline
  collected : List Run := []
  missed : List Run := []
  answers : List Answer := []

inductive Event
  | arrival (request : Request) (stamp : Stamp)
  | lookUp (place now : Nat)
  | finish (place now : Nat)

namespace Traffic

def arrive (t : Traffic) (r : Request) (stamp : Stamp) : Traffic :=
  match t.pipeline.accept r with
  | .error reply => { t with answers := t.answers ++ [⟨r, stamp, reply⟩] }
  | .ok job => { t with collected := t.collected ++ [⟨r, stamp, job⟩] }

def lookUp (t : Traffic) (place now : Nat) : Traffic :=
  match t.collected[place]? with
  | none => t
  | some run =>
    let collected := t.collected.eraseIdx place
    match t.pipeline.lookUp now run.job with
    | (none, pipeline) => { t with pipeline, collected, missed := t.missed ++ [run] }
    | (some outputs, pipeline) =>
      let reply := .ofResult run.stamp (.ok (run.job.outcome outputs true))
      { t with pipeline, collected, answers := t.answers ++ [⟨run.request, run.stamp, reply⟩] }

def finish (t : Traffic) (place now : Nat) : Traffic :=
  match t.missed[place]? with
  | none => t
  | some run =>
    let (result, pipeline) := t.pipeline.finish now run.job
    let reply := .ofResult run.stamp result
    { t with
      pipeline
      missed := t.missed.eraseIdx place
      answers := t.answers ++ [⟨run.request, run.stamp, reply⟩] }

def step (t : Traffic) : Event → Traffic
  | .arrival r stamp => t.arrive r stamp
  | .lookUp place now => t.lookUp place now
  | .finish place now => t.finish place now

def run (t : Traffic) (events : List Event) : Traffic := events.foldl step t

end Traffic

end Recombine
