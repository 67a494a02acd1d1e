import Recombine.Json.Decode

namespace Recombine

open Json

structure Field where
  name : String
  dtype : Option String := none
  deriving DecidableEq, Repr

abbrev Schema := List Field

namespace Field

def toJson (f : Field) : Json :=
  .object (("name", .string f.name) :: member? "dtype" .string f.dtype)

def record : Record Field :=
  mk <$> .required "name" .string <*> .optional "dtype" none (.option .string)

def decode : Decoder Field := record.decode

end Field

namespace Schema

def names (s : Schema) : List String := s.map Field.name

def ofNames (names : List String) : Schema := names.map fun n => { name := n }

def repeatedAfter (seen : List String) : List String → Option String
  | [] => none
  | n :: ns => if n ∈ seen then some n else repeatedAfter (n :: seen) ns

def repeated? (s : Schema) : Option String := repeatedAfter [] s.names

def toJson (s : Schema) : Json := Json.list Field.toJson s

def decode : Decoder Schema := .list Field.decode

end Schema

end Recombine
