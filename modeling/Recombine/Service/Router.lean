import Recombine.Service.MediaType
import Recombine.Service.Request

namespace Recombine

structure Request where
  method : String := "GET"
  uri : String
  contentType : Option String := none
  body : String := ""
  deriving DecidableEq, Repr

structure Reply where
  status : Nat
  body : Option String := none
  deriving DecidableEq, Repr

namespace Reply

def ofJson (j : Json) : Reply := ⟨200, some j.text⟩

def ofFailure (f : Failure) : Reply := ⟨f.status, some f.body.text⟩

def ofResult (stamp : Stamp) : Except Failure Outcome → Reply
  | .ok outcome => .ofJson (outcome.toJson stamp)
  | .error f => .ofFailure f

/-- A body that is no JSON is a bad request, one of another shape cannot be processed. -/
def ofFault : Json.Fault → Reply
  | .malformed => { status := 400 }
  | .mismatch => { status := 422 }

def withoutText (r : Reply) : Reply := { r with body := r.body.map fun _ => "" }

end Reply

namespace Request

def afterScheme? : List Char → Option (List Char)
  | ':' :: '/' :: '/' :: cs => some cs
  | _ :: cs => afterScheme? cs
  | [] => none

def path (r : Request) : String :=
  let cs := r.uri.toList.takeWhile fun c => c != '?' && c != '#'
  match cs with
  | '/' :: _ | ['*'] => String.ofList cs
  | _ =>
    match (afterScheme? cs).map fun rest => rest.dropWhile (· != '/') with
    | some [] => "/"
    | some path => String.ofList path
    | none => ""

def bodyLimit : Nat := 2097152

def json {α : Type} (r : Request) (f : Json.Decoder α) : Except Reply α :=
  if (r.contentType.map MediaType.isJson).getD false then
    if bodyLimit < r.body.utf8ByteSize then .error { status := 413 }
    else
      match f.run r.body with
      | .ok a => .ok a
      | .error e => .error (.ofFault e)
  else .error { status := 415 }

end Request

inductive Endpoint
  | health
  | compile
  | execute
  | cacheStats
  deriving DecidableEq, Repr

namespace Endpoint

def path : Endpoint → String
  | health => "/health"
  | compile => "/api/combine/compile"
  | execute => "/api/combine/execute"
  | cacheStats => "/api/combine/cache/stats"

def method : Endpoint → String
  | health | cacheStats => "GET"
  | compile | execute => "POST"

def ofPath? (p : String) : Option Endpoint :=
  [health, compile, execute, cacheStats].find? fun e => e.path == p

end Endpoint

namespace Pipeline

def replyCompile (r : Request) : Reply :=
  match r.json Plan.decode with
  | .error reply => reply
  | .ok plan =>
    match plan.invalid? with
    | some reason => .ofFailure (.validation reason)
    | none =>
      match plan.compile with
      | .ok dag => .ofJson dag.response
      | .error e => .ofFailure (.compile e)

def accept (p : Pipeline) (r : Request) : Except Reply Job :=
  match r.json ExecuteRequest.decode with
  | .error reply => .error reply
  | .ok request =>
    match request.plan.invalid? with
    | some reason => .error (.ofFailure (.validation reason))
    | none =>
      match p.prepare request.plan request.engine (Fetch.ofRelations request.data) with
      | .error f => .error (.ofFailure f)
      | .ok job => .ok job

def replyExecute (p : Pipeline) (now : Nat) (stamp : Stamp) (r : Request) : Reply × Pipeline :=
  match p.accept r with
  | .error reply => (reply, p)
  | .ok job =>
    let (result, p) := p.answer now job
    (.ofResult stamp result, p)

def replyAt (p : Pipeline) (now : Nat) (stamp : Stamp) (r : Request) :
    Endpoint → Reply × Pipeline
  | .health => (⟨200, some "OK"⟩, p)
  | .compile => (replyCompile r, p)
  | .execute => p.replyExecute now stamp r
  | .cacheStats => (.ofJson p.cache.stats.toJson, p)

def route (p : Pipeline) (now : Nat) (stamp : Stamp) (r : Request) : Reply × Pipeline :=
  match Endpoint.ofPath? r.path with
  | none => (.ofFailure (.notFound ("No route for " ++ r.path)), p)
  | some e =>
    if r.method = e.method ∨ (r.method = "HEAD" ∧ e.method = "GET") then p.replyAt now stamp r e
    else ({ status := 405 }, p)

def handle (p : Pipeline) (now : Nat) (stamp : Stamp) (r : Request) : Reply × Pipeline :=
  if r.method = "OPTIONS" then (⟨200, some ""⟩, p)
  else
    let (reply, p) := p.route now stamp r
    (if r.method = "HEAD" then reply.withoutText else reply, p)

end Pipeline

end Recombine
