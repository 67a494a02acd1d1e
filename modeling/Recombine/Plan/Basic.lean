import Recombine.Plan.Group
import Recombine.Plan.PostOp

namespace Recombine

open Json

structure Scan where
  id : String
  source : String
  schema : Schema := []
  deriving DecidableEq, Repr

namespace Scan

def toJson (s : Scan) : Json :=
  .object [
    ("id", .string s.id), ("datasource_id", .string s.source),
    ("expected_schema", s.schema.toJson)]

def record : Record Scan :=
  mk <$> .required "id" .string
    <*> .required "datasource_id" .string
    <*> .optional "expected_schema" [] Schema.decode

def decode : Decoder Scan := record.decode

end Scan

structure Plan where
  scans : List Scan
  groups : List Group := []
  postOps : List PostOp := []

namespace Plan

def toJson (p : Plan) : Json :=
  .object [
    ("scans", Json.list Scan.toJson p.scans),
    ("combine_groups", Json.list Group.toJson p.groups),
    ("post_ops", Json.list PostOp.toJson p.postOps)]

def record : Record Plan :=
  mk <$> .required "scans" (.list Scan.decode)
    <*> .optional "combine_groups" [] (.list Group.decode)
    <*> .optional "post_ops" [] (.list PostOp.decode)

def decode : Decoder Plan := record.decode

end Plan

end Recombine
