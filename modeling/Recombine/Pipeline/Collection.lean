import Recombine.Failure
import Recombine.Plan.Basic
import Recombine.Row

/-! Collection of the relations of all scans. Fetches run side by side and end in any order; what
is collected does not show it. -/

namespace Recombine

inductive Fetch
  | ended (result : Except Failure Relation)
  | stalled

def Fetch.ofRelations (data : Relations) (s : Scan) : Fetch :=
  match data.get? s.id with
  | some rel => .ended (.ok rel)
  | none => .ended (.error (.execution (.missingScanData s.id)))

structure Completion where
  place : Nat
  scan : Scan
  result : Except Failure Relation

/-- The fetches that end when each in turn needs a free worker. A stalled one keeps its worker. -/
def completions (fetch : Scan → Fetch) : Nat → List (Nat × Scan) → List Completion
  | _, [] => []
  | 0, _ => []
  | workers + 1, (place, scan) :: rest =>
    match fetch scan with
    | .ended result => ⟨place, scan, result⟩ :: completions fetch (workers + 1) rest
    | .stalled => completions fetch workers rest

structure Fetched where
  place : Nat
  scan : Scan
  rows : Relation

def fetched (cs : List Completion) : Except Failure (List Fetched) :=
  cs.mapM fun c => (fun rows => ⟨c.place, c.scan, rows⟩) <$> c.result

structure ScanReport where
  id : String
  source : String
  rowCount : Nat
  deriving DecidableEq, Repr

def Fetched.report (f : Fetched) : ScanReport := ⟨f.scan.id, f.scan.source, f.rows.length⟩

structure Collection where
  relations : Relations
  reports : List ScanReport

namespace Collection

def ofFetched (fs : List Fetched) : Collection :=
  let inOrder := fs.mergeSort fun f g => f.place ≤ g.place
  ⟨KeyMap.ofList (inOrder.map fun f => (f.scan.id, f.rows)), inOrder.map Fetched.report⟩

def ofCompletions (scans : Nat) (cs : List Completion) : Except Failure (Option Collection) := do
  let fs ← fetched cs
  return if fs.length = scans then some (ofFetched fs) else none

end Collection

def unusedIds (given scans : List String) : List String :=
  (KeyMap.ofKeys given).keys.filter fun id => !scans.contains id

end Recombine
