import Recombine.Pipeline.Basic

namespace Recombine

def count? (limit : Nat) (s : String) : Option Nat :=
  let digits := match s.toList with
    | '+' :: cs => cs
    | cs => cs
  if digits.isEmpty || !digits.all Char.isDigit then none
  else
    let n := Decimal.countOf digits
    if n < limit then some n else none

structure Settings where
  host : String := "0.0.0.0"
  tcpPort : Nat := 3000
  level : String := "info"
  engine : String := "row"
  timeoutSeconds : Nat := 60
  workers : Option Nat := none
  cacheSize : Nat := 256
  cacheSeconds : Nat := 300
  deriving DecidableEq, Repr

namespace Settings

def ofEnvironment (environment : String → Option String) : Settings :=
  let count (limit : Nat) (name : String) : Option Nat := (environment name).bind (count? limit)
  { host := (environment "HOST").getD "0.0.0.0"
    tcpPort := (count UInt16.size "PORT").getD 3000
    level := (environment "RUST_LOG").getD "info"
    engine := (environment "ENGINE_BACKEND").getD "row"
    timeoutSeconds := (count UInt64.size "PIPELINE_TIMEOUT_SECS").getD 60
    workers := (count UInt64.size "PIPELINE_MAX_WORKERS").map (max 1)
    cacheSize := (count UInt64.size "RESULT_CACHE_SIZE").getD 256
    cacheSeconds := (count UInt64.size "RESULT_CACHE_TTL_SECS").getD 300 }

def address (s : Settings) : String := s.host ++ ":" ++ toString s.tcpPort

def pipeline (s : Settings) : Except Failure Pipeline :=
  match Engine.ofText s.engine with
  | .error reason => .error (.validation reason)
  | .ok engine => .ok {
      limit := s.timeoutSeconds * Nat.pow 10 9
      workers := s.workers
      engine
      cache := { capacity := s.cacheSize, lifetime := s.cacheSeconds * Nat.pow 10 9 } }

end Settings

end Recombine
