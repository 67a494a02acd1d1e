import Recombine.Pipeline.Basic

namespace Recombine

open Json

structure ExecuteRequest where
  plan : Plan
  data : Relations := ∅
  engine : Option Engine := none

namespace ExecuteRequest

def record : Record ExecuteRequest :=
  (fun scans groups postOps data engine => ⟨⟨scans, groups, postOps⟩, data, engine⟩)
    <$> .required "scans" (.list Scan.decode)
    <*> .optional "combine_groups" [] (.list Group.decode)
    <*> .optional "post_ops" [] (.list PostOp.decode)
    <*> .optional "scan_results" ∅ Relations.decode
    <*> .optional "backend" none (.option Engine.decode)

def decode : Decoder ExecuteRequest := record.decode

end ExecuteRequest

def Plan.invalid? (p : Plan) : Option String :=
  if p.scans.isEmpty then some "At least one scan is required" else none

def Dag.response (d : Dag) : Json :=
  .object [
    ("summary", d.summary.toJson), ("layers", Json.list Json.strings d.layers),
    ("dag", d.toJson)]

/-- What the surroundings of a run say about it: an id, a time of day, and durations in
milliseconds. -/
structure Stamp where
  runId : String := ""
  executedAt : String := ""
  runTime : Nat := 0
  fetchTime : Nat := 0

def ScanReport.toJson (stamp : Stamp) (r : ScanReport) : Json :=
  .object [
    ("scan_id", .string r.id), ("datasource_id", .string r.source), ("row_count", .int r.rowCount),
    ("execution_time_ms", .int stamp.fetchTime)]

def Outcome.toJson (stamp : Stamp) (o : Outcome) : Json :=
  .object [
    ("run_id", .string stamp.runId),
    ("summary", o.summary.toJson),
    ("backend", o.engine.toJson),
    ("outputs", o.outputs.toJson),
    ("scans", Json.list (ScanReport.toJson stamp) o.scans),
    ("cache_hit", .bool o.cacheHit),
    ("execution_time_ms", .int stamp.runTime),
    ("executed_at", .string stamp.executedAt)]

end Recombine
