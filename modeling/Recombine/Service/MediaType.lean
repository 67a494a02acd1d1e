namespace Recombine.MediaType

def isToken (c : Char) : Bool := c.isAlphanum || "!#$%&'*+-.^_`|~".toList.contains c

def isQuotable (c : Char) : Bool := 32 ≤ c.toNat && c.toNat < 127

inductive Progress
  | gap
  | name
  | value
  | plain
  | opened
  | quoted
  | closed
  | refused
  deriving DecidableEq, Repr

namespace Progress

def next : Progress → Char → Progress
  | gap, c => if c = ' ' then gap else if isToken c then name else refused
  | name, c => if c = '=' then value else if isToken c then name else refused
  | value, c => if c = '"' then opened else if isToken c then plain else refused
  | plain, c => if c = ';' then gap else if isToken c then plain else refused
  | opened, c => if isQuotable c then quoted else refused
  | quoted, c => if c = '"' then closed else if isQuotable c then quoted else refused
  | closed, c => if c = ';' then gap else if c = ' ' then closed else refused
  | refused, _ => refused

def mayEnd : Progress → Bool
  | gap | value | plain | closed => true
  | _ => false

end Progress

def isParameters (cs : List Char) : Bool := (cs.foldl Progress.next .gap).mayEnd

def isJsonSubtype (cs : List Char) : Bool :=
  let json := ['j', 's', 'o', 'n']
  let suffix := (cs.reverse.takeWhile (· != '+')).reverse
  let stem := cs.take (cs.length - suffix.length - 1)
  if suffix.length < cs.length ∧ stem ≠ [] then stem == json || suffix == json else cs == json

def isJson (s : String) : Bool :=
  let cs := s.toList.map Char.toLower
  let type := cs.takeWhile isToken
  match cs.dropWhile isToken with
  | '/' :: cs =>
    let subtype := cs.takeWhile isToken
    type == "application".toList && isJsonSubtype subtype &&
      match cs.dropWhile isToken with
      | [] => true
      | ';' :: cs => isParameters cs
      | _ => false
  | _ => false

end Recombine.MediaType
