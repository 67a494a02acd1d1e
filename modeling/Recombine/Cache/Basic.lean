import Recombine.Row

/-! A bounded store of results, out of which the least recently used entry goes first, and in which
entries expire. Instants and durations are counted in nanoseconds. -/

namespace Recombine

structure CacheStats where
  hits : Nat := 0
  misses : Nat := 0
  evictions : Nat := 0
  expirations : Nat := 0
  deriving DecidableEq, Repr

namespace CacheStats

def hitRatio (s : CacheStats) : Float :=
  if s.hits + s.misses = 0 then 0 else Number.ofNat s.hits / Number.ofNat (s.hits + s.misses)

def toJson (s : CacheStats) : Json :=
  .object [
    ("hits", .int s.hits), ("misses", .int s.misses), ("evictions", .int s.evictions),
    ("expirations", .int s.expirations)]

end CacheStats

structure CacheEntry where
  outputs : Relations
  storedAt : Nat
  lifetime : Nat
  lastUsed : Nat

def CacheEntry.isExpired (e : CacheEntry) (now : Nat) : Bool := e.lifetime < now - e.storedAt

/-- A cache counts its uses, and an entry bears the number of its last one. -/
structure Cache where
  capacity : Nat := 256
  lifetime : Nat := 300 * Nat.pow 10 9
  entries : KeyMap CacheEntry := ∅
  uses : Nat := 0
  stats : CacheStats := {}

namespace Cache

def size (c : Cache) : Nat := c.entries.size

def get (c : Cache) (now : Nat) (key : String) : Option Relations × Cache :=
  let uses := c.uses + 1
  match c.entries.get? key with
  | none => (none, { c with uses, stats := { c.stats with misses := c.stats.misses + 1 } })
  | some e =>
    if e.isExpired now then
      (none, { c with
        uses
        entries := c.entries.erase key
        stats := { c.stats with
          misses := c.stats.misses + 1, expirations := c.stats.expirations + 1 } })
    else
      (some e.outputs, { c with
        uses
        entries := c.entries.insert key { e with lastUsed := uses }
        stats := { c.stats with hits := c.stats.hits + 1 } })

def lessRecent (e f : String × CacheEntry) : String × CacheEntry :=
  if f.2.lastUsed < e.2.lastUsed then f else e

def leastRecent? (c : Cache) : Option String :=
  match c.entries.entries with
  | [] => none
  | e :: es => some (es.foldl lessRecent e).1

def evict (c : Cache) : Cache :=
  match c.leastRecent? with
  | none => c
  | some key =>
    { c with
      entries := c.entries.erase key
      stats := { c.stats with evictions := c.stats.evictions + 1 } }

def makeRoom (c : Cache) (key : String) : Cache :=
  if c.capacity ≤ c.size ∧ !c.entries.contains key then c.evict else c

def put (c : Cache) (now : Nat) (key : String) (outputs : Relations) (lifetime : Option Nat) :
    Cache :=
  if c.capacity = 0 then c
  else
    let c := c.makeRoom key
    let entry := {
      outputs, storedAt := now, lifetime := lifetime.getD c.lifetime, lastUsed := c.uses + 1 }
    { c with entries := c.entries.insert key entry, uses := c.uses + 1 }

def clear (c : Cache) : Cache := { c with entries := ∅ }

def sweep (c : Cache) (now : Nat) : Cache :=
  let entries := c.entries.filter fun _ e => !e.isExpired now
  { c with
    entries
    stats := { c.stats with expirations := c.stats.expirations + (c.size - entries.size) } }

end Cache

end Recombine
