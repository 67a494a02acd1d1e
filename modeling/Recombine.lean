import Recombine.Settings
import Recombine.Service.Traffic
import Recombine.Proofs.Columns.Simulation
import Recombine.Proofs.Graph.Paths
import Recombine.Proofs.Dag.Drafts
import Recombine.Proofs.Dag.Resolution
import Recombine.Proofs.Dag.Checks
import Recombine.Proofs.Dag.WellFormed
import Recombine.Proofs.Dag.Rearrangement
import Recombine.Proofs.Dag.Soundness
import Recombine.Proofs.Evaluation.Meaning
import Recombine.Proofs.Evaluation.Interpretation
import Recombine.Proofs.Evaluation.Engines
import Recombine.Proofs.Plan.Decoding
import Recombine.Proofs.Service.Traffic
import Recombine.Proofs.Dag.Structure
import Recombine.Proofs.Evaluation.Progress
import Recombine.Proofs.Evaluation.Exchange
import Recombine.Proofs.Cache.History
import Recombine.Proofs.Evaluation.Dependence
import Recombine.Proofs.Pipeline.Workers
import Recombine.Proofs.Pipeline.Runs
import Recombine.Proofs.Plan.RoundTrip
import Recombine.Proofs.Dag.Cycles
import Recombine.Proofs.Engine.Joins
import Recombine.Proofs.Engine.JoinedRows
import Recombine.Proofs.Engine.ComparedRows
import Recombine.Proofs.Engine.Accumulators
import Recombine.Proofs.Engine.GroupedRows
import Recombine.Proofs.Engine.Sorting
import Recombine.Proofs.Service.Endpoints
import Recombine.Proofs.Evaluation.Sides
import Recombine.Proofs.Dag.RepeatedEdges
import Recombine.Proofs.Dag.Inheritance
import Recombine.Proofs.Evaluation.Unions
import Recombine.Proofs.Evaluation.Executions
import Recombine.Proofs.Cache.Counters
import Recombine.Proofs.Relations
import Recombine.Proofs.Engine.LooseKeys
import Recombine.Proofs.Values.Order
import Recombine.Proofs.Json.Reordering
import Recombine.Proofs.Engine.Filters
