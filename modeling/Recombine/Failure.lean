import Recombine.Dag.Error
import Recombine.Evaluation.Error
import Recombine.Json.Basic

namespace Recombine

inductive Failure
  | compile (e : PlanError)
  | execution (e : RunError)
  | timeout (reason : String)
  | validation (reason : String)
  | notFound (reason : String)
  | internal (reason : String)
  deriving DecidableEq, Repr

structure ErrorDetail where
  code : String
  message : String
  details : Option String := none
  deriving DecidableEq, Repr

def ErrorDetail.toJson (d : ErrorDetail) : Json :=
  .object (("code", .string d.code) :: ("message", .string d.message) ::
    Json.member? "details" .string d.details)

namespace Failure

/-- A sort that gives up takes the task with it in which the plan is evaluated. The number of the
task is left out. -/
def ofRun : RunError → Failure
  | e@(.disorder ..) => .internal
    ("Interpreter task failed: task panicked with message \"" ++ e.message ++ "\"")
  | e => .execution e

def message : Failure → String
  | compile e => "Compile error: " ++ e.message
  | execution e => "Execution error: " ++ e.message
  | timeout reason => "Timeout: " ++ reason
  | validation reason => "Validation error: " ++ reason
  | notFound reason => "Not found: " ++ reason
  | internal reason => "Internal server error: " ++ reason

def status : Failure → Nat
  | compile _ | validation _ => 400
  | notFound _ => 404
  | execution _ => 422
  | internal _ => 500
  | timeout _ => 504

def offenderNote (offender : String) : Option String :=
  if offender = "" then none else some ("offending id: " ++ offender)

def timeoutAdvice : String :=
  " Consider raising PIPELINE_TIMEOUT_SECS or reducing the scan data size."

def detail : Failure → ErrorDetail
  | compile e => ⟨"COMPILE_ERROR", e.message, offenderNote e.offender⟩
  | execution e => ⟨"EXECUTION_ERROR", e.message, some ("node: " ++ e.node)⟩
  | timeout reason => ⟨"TIMEOUT", reason ++ timeoutAdvice, none⟩
  | validation reason => ⟨"VALIDATION_ERROR", reason, none⟩
  | notFound reason => ⟨"NOT_FOUND", reason, none⟩
  | internal reason => ⟨"INTERNAL_ERROR", reason, none⟩

def body (f : Failure) : Json := .object [("error", f.detail.toJson)]

end Failure

end Recombine
