import Recombine.Text.Blank
import Recombine.Value

namespace Recombine

open Json

inductive Test
  | eq
  | ne
  | gt
  | ge
  | lt
  | le
  | between
  | oneOf
  | contains
  | unknown (text : String)
  deriving DecidableEq, Repr

namespace Test

def text : Test → String
  | eq => "="
  | ne => "!="
  | gt => ">"
  | ge => ">="
  | lt => "<"
  | le => "<="
  | between => "between"
  | oneOf => "in"
  | contains => "contains"
  | unknown s => s

def spellings : List (String × Test) := [
  ("=", eq), ("==", eq), ("eq", eq), ("!=", ne), ("<>", ne), ("ne", ne), (">", gt), ("gt", gt),
  (">=", ge), ("gte", ge), ("<", lt), ("lt", lt), ("<=", le), ("lte", le),
  ("between", between), ("in", oneOf), ("contains", contains)]

def ofText (s : String) : Test := (spellings.lookup (Text.word s)).getD (unknown s)

def toJson (t : Test) : Json := .string t.text

def decode : Decoder Test := fun d => ofText <$> Decoder.string d

end Test

inductive Operand
  | scalar (v : Value)
  | list (vs : List Value)
  deriving DecidableEq

namespace Operand

def toJson : Operand → Json
  | scalar v => v.toJson
  | list vs => Json.list Value.toJson vs

def ofDoc : Doc → Except Fault Operand
  | .array items _ => list <$> items.mapM Value.ofDoc
  | d => scalar <$> Value.ofDoc d

def decode : Decoder Operand := .whole ofDoc

end Operand

structure Filter where
  column : String
  test : Test
  operand : Operand := .scalar .null
  deriving DecidableEq

namespace Filter

def toJson (f : Filter) : Json :=
  .object [
    ("attribute", .string f.column), ("operator", f.test.toJson), ("value", f.operand.toJson)]

def record : Record Filter :=
  mk <$> .required "attribute" .string
    <*> .required "operator" Test.decode
    <*> .optional "value" (.scalar .null) Operand.decode

def decode : Decoder Filter := record.decode

end Filter

end Recombine
