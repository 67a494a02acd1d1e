import Recombine.Cache.Basic

/-! A bounded store of results as a list in order of use, in which the least recently used entry
comes first. -/

namespace Recombine

structure Held where
  key : String
  outputs : Relations
  storedAt : Nat
  lifetime : Nat
  deriving DecidableEq

def Held.isExpired (h : Held) (now : Nat) : Bool := h.lifetime < now - h.storedAt

structure Shelf where
  capacity : Nat
  lifetime : Nat
  held : List Held := []

namespace Shelf

def others (s : Shelf) (key : String) : List Held := s.held.filter fun h => h.key != key

def get (s : Shelf) (now : Nat) (key : String) : Option Relations × Shelf :=
  match s.held.find? fun h => h.key == key with
  | none => (none, s)
  | some h =>
    if h.isExpired now then (none, { s with held := s.others key })
    else (some h.outputs, { s with held := s.others key ++ [h] })

def kept (s : Shelf) (key : String) : List Held :=
  if (s.others key).length < s.capacity then s.others key else (s.others key).tail

def put (s : Shelf) (now : Nat) (key : String) (outputs : Relations) (lifetime : Option Nat) :
    Shelf :=
  if s.capacity = 0 then s
  else
    let stored := { key, outputs, storedAt := now, lifetime := lifetime.getD s.lifetime }
    { s with held := s.kept key ++ [stored] }

def clear (s : Shelf) : Shelf := { s with held := [] }

def sweep (s : Shelf) (now : Nat) : Shelf :=
  { s with held := s.held.filter fun h => !h.isExpired now }

end Shelf

inductive CacheCall
  | get (now : Nat) (key : String)
  | put (now : Nat) (key : String) (outputs : Relations) (lifetime : Option Nat)
  | clear
  | sweep (now : Nat)

namespace Cache

def answer (c : Cache) : CacheCall → Option Relations × Cache
  | .get now key => c.get now key
  | .put now key outputs lifetime => (none, c.put now key outputs lifetime)
  | .clear => (none, c.clear)
  | .sweep now => (none, c.sweep now)

def answers (c : Cache) : List CacheCall → List (Option Relations)
  | [] => []
  | call :: calls => (c.answer call).1 :: (c.answer call).2.answers calls

def run (c : Cache) (calls : List CacheCall) : Cache :=
  calls.foldl (fun c call => (c.answer call).2) c

end Cache

namespace Shelf

def answer (s : Shelf) : CacheCall → Option Relations × Shelf
  | .get now key => s.get now key
  | .put now key outputs lifetime => (none, s.put now key outputs lifetime)
  | .clear => (none, s.clear)
  | .sweep now => (none, s.sweep now)

def answers (s : Shelf) : List CacheCall → List (Option Relations)
  | [] => []
  | call :: calls => (s.answer call).1 :: (s.answer call).2.answers calls

def run (s : Shelf) (calls : List CacheCall) : Shelf :=
  calls.foldl (fun s call => (s.answer call).2) s

end Shelf

end Recombine
