import Recombine.Json.Decode

namespace Recombine

open Json

inductive Combination
  | standalone
  | union
  | join
  | compare
  deriving DecidableEq, Repr

namespace Combination

def name : Combination → String
  | standalone => "standalone"
  | union => "union"
  | join => "join"
  | compare => "compare"

def all : List Combination := [standalone, union, join, compare]

def ofName? (s : String) : Option Combination := all.find? fun c => c.name == s

def isKeyed : Combination → Bool
  | join | compare => true
  | _ => false

def toJson (c : Combination) : Json := .string c.name

def decode : Decoder Combination := .choice ofName?

end Combination

structure JoinKey where
  left : String
  right : String
  deriving DecidableEq, Repr

namespace JoinKey

def toJson (k : JoinKey) : Json := .object [("left", .string k.left), ("right", .string k.right)]

def record : Record JoinKey := mk <$> .required "left" .string <*> .required "right" .string

def decode : Decoder JoinKey := record.decode

end JoinKey

def roleRank (role : Option String) : Nat :=
  match role.map String.toLower with
  | some r =>
    if r ∈ ["left", "base", "primary"] then 0
    else if r ∈ ["right", "compare", "secondary"] then 1
    else 2
  | none => 2

structure Input where
  ref : String
  role : Option String := none
  deriving DecidableEq, Repr

namespace Input

def toJson (i : Input) : Json :=
  .object (("ref_id", .string i.ref) :: member? "role" .string i.role)

def record : Record Input :=
  mk <$> .required "ref_id" .string <*> .optional "role" none (.option .string)

def decode : Decoder Input := record.decode

end Input

structure Group where
  id : String
  combination : Combination
  inputs : List Input
  keys : List JoinKey := []
  deriving DecidableEq, Repr

namespace Group

def toJson (g : Group) : Json :=
  .object [
    ("group_id", .string g.id),
    ("operation", g.combination.toJson),
    ("inputs", Json.list Input.toJson g.inputs),
    ("join_keys", Json.list JoinKey.toJson g.keys)]

def record : Record Group :=
  mk <$> .required "group_id" .string
    <*> .required "operation" Combination.decode
    <*> .required "inputs" (.list Input.decode)
    <*> .optional "join_keys" [] (.list JoinKey.decode)

def decode : Decoder Group := record.decode

end Group

end Recombine
