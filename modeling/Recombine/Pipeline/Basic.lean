import Recombine.Cache.Basic
import Recombine.Cache.Key
import Recombine.Dag.Compile
import Recombine.Evaluation.Basic
import Recombine.Pipeline.Collection
import Recombine.Text.Duration

namespace Recombine

/-- Without a number of workers there is one for each scan. The limit of a run is in
nanoseconds. -/
structure Pipeline where
  limit : Nat := 60 * Nat.pow 10 9
  workers : Option Nat := none
  engine : Engine := .row
  cache : Cache := {}

structure Job where
  dag : Dag
  engine : Engine
  collection : Collection

structure Outcome where
  summary : Dag.Summary
  engine : Engine
  outputs : Relations
  scans : List ScanReport
  cacheHit : Bool

def Outcome.totalRows (o : Outcome) : Nat :=
  (o.outputs.values.map List.length).foldr (· + ·) 0

namespace Job

def key (j : Job) : String :=
  cacheKey j.dag.id j.engine.name j.collection.relations.fingerprint

def evaluate (j : Job) : Except RunError Relations :=
  j.dag.evaluate j.engine.operators j.collection.relations none

def outcome (j : Job) (outputs : Relations) (cacheHit : Bool) : Outcome :=
  { summary := j.dag.summary, engine := j.engine, outputs, scans := j.collection.reports, cacheHit }

end Job

namespace Pipeline

def timeoutReason (limit : Nat) : String := "Pipeline run exceeded " ++ Text.duration limit

def collect (p : Pipeline) (scans : List Scan) (fetch : Scan → Fetch) :
    Except Failure Collection := do
  let workers := max 1 (p.workers.getD scans.length)
  match ← Collection.ofCompletions scans.length
      (completions fetch workers ((List.range scans.length).zip scans)) with
  | some collection => return collection
  | none => throw (.timeout (timeoutReason p.limit))

def prepare (p : Pipeline) (plan : Plan) (engine : Option Engine) (fetch : Scan → Fetch) :
    Except Failure Job :=
  match plan.compile with
  | .error e => .error (.compile e)
  | .ok dag => (⟨dag, engine.getD p.engine, ·⟩) <$> p.collect plan.scans fetch

def lookUp (p : Pipeline) (now : Nat) (job : Job) : Option Relations × Pipeline :=
  let (found, cache) := p.cache.get now job.key
  (found, { p with cache })

def finish (p : Pipeline) (now : Nat) (job : Job) : Except Failure Outcome × Pipeline :=
  match job.evaluate with
  | .error e => (.error (.ofRun e), p)
  | .ok outputs =>
    (.ok (job.outcome outputs false), { p with cache := p.cache.put now job.key outputs none })

def answer (p : Pipeline) (now : Nat) (job : Job) : Except Failure Outcome × Pipeline :=
  match p.lookUp now job with
  | (some outputs, p) => (.ok (job.outcome outputs true), p)
  | (none, p) => p.finish now job

def run (p : Pipeline) (now : Nat) (plan : Plan) (engine : Option Engine) (fetch : Scan → Fetch) :
    Except Failure Outcome × Pipeline :=
  match p.prepare plan engine fetch with
  | .error f => (.error f, p)
  | .ok job => p.answer now job

end Pipeline

end Recombine
