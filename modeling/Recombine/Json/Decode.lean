import Recombine.Json.Basic
import Recombine.Json.Doc

/-! Typed reading of JSON texts. The fault that is reported is the first one in text order. -/

namespace Recombine.Json

inductive Fault
  | malformed
  | mismatch
  deriving DecidableEq, Repr

abbrev Decoder (α : Type) := Doc → Except Fault α

namespace Doc

def fault : Doc → Fault
  | cut | deep | string none => .malformed
  | number n => if n.float?.isSome then .mismatch else .malformed
  | _ => .mismatch

mutual

def sound : Doc → Bool
  | null | bool _ | string (some _) => true
  | number n => n.float?.isSome
  | string none | deep | cut => false
  | array items closed => soundItems items && closed
  | object members closed => soundMembers members && closed

def soundItems : List Doc → Bool
  | [] => true
  | d :: ds => d.sound && soundItems ds

def soundMembers : List (Option String × Doc) → Bool
  | [] => true
  | (k, d) :: ms => k.isSome && d.sound && soundMembers ms

end

mutual

/-- Whether a value that nobody asks for can be skipped: only its punctuation matters. -/
def complete : Doc → Bool
  | cut => false
  | array items closed => completeItems items && closed
  | object members closed => completeMembers members && closed
  | _ => true

def completeItems : List Doc → Bool
  | [] => true
  | d :: ds => d.complete && completeItems ds

def completeMembers : List (Option String × Doc) → Bool
  | [] => true
  | (_, d) :: ms => d.complete && completeMembers ms

end

end Doc

namespace Decoder

variable {α : Type}

def whole (f : Doc → Except Fault α) : Decoder α := fun d =>
  if d.sound then f d else .error .malformed

def string : Decoder String
  | .string (some s) => .ok s
  | d => .error d.fault

def count : Decoder Nat
  | .number n =>
    match n.int? with
    | some i => if 0 ≤ i ∧ i < UInt64.size then .ok i.toNat else .error (Doc.number n).fault
    | none => .error (Doc.number n).fault
  | d => .error d.fault

def option (f : Decoder α) : Decoder (Option α)
  | .null => .ok none
  | d => some <$> f d

def list (f : Decoder α) : Decoder (List α)
  | .array items closed => do
    let as ← items.mapM f
    if closed then .ok as else .error .malformed
  | d => .error d.fault

def entry (f : Decoder α) : Option String × Doc → Except Fault (String × α)
  | (none, _) => .error .malformed
  | (some k, d) => (k, ·) <$> f d

def entries (f : Decoder α) : Decoder (List (String × α))
  | .object members closed => do
    let es ← members.mapM (entry f)
    if closed then .ok es else .error .malformed
  | d => .error d.fault

def keyMap (f : Decoder α) : Decoder (KeyMap α) := fun d => KeyMap.ofList <$> entries f d

/-- A choice is written as its name, or as an object with the name and null. No other kind of value
is looked at. -/
def choice (f : String → Option α) : Decoder α
  | .string (some s) =>
    match f s with
    | some a => .ok a
    | none => .error .mismatch
  | .object ((some s, d) :: rest) closed =>
    match f s, d with
    | none, _ => .error .mismatch
    | some a, .null => if rest.isEmpty && closed then .ok a else .error .malformed
    | some _, d => .error d.fault
  | _ => .error .malformed

def run (f : Decoder α) (text : String) : Except Fault α := do
  let (d, alone) := Doc.ofText text
  let a ← f d
  if alone then .ok a else .error .malformed

end Decoder

mutual

def ofDoc : Doc → Json
  | .bool b => bool b
  | .number n =>
    match n.int? with
    | some i =>
      if Int64.minValue.toInt ≤ i ∧ i < UInt64.size then int i
      else float (n.float?.getD 0)
    | none => float (n.float?.getD 0)
  | .string s => string (s.getD "")
  | .array items _ => array (ofItems items)
  | .object members _ => object (KeyMap.ofList (ofMembers members)).entries
  | .null | .deep | .cut => null

def ofItems : List Doc → List Json
  | [] => []
  | d :: ds => ofDoc d :: ofItems ds

def ofMembers : List (Option String × Doc) → List (String × Json)
  | [] => []
  | (k, d) :: ms => (k.getD "", ofDoc d) :: ofMembers ms

end

def decode : Decoder Json := Decoder.whole fun d => .ok (ofDoc d)

structure Members where
  list : List (Option String × Doc)
  ending : Option Fault

/-- A record is written as an object, or as an array of its fields in order. -/
def Members.ofDoc (names : List String) : Decoder Members
  | .object members closed => .ok ⟨members, if closed then none else some .malformed⟩
  | .array items closed =>
    .ok ⟨(names.map some).zip items,
      if closed && items.length ≤ names.length then none else some .malformed⟩
  | d => .error d.fault

abbrev Located := Nat × Fault

def Located.first (e e' : Located) : Located := if e'.1 < e.1 then e' else e

structure Record (α : Type) where
  names : List String
  read : Members → Except Located α

namespace Record

variable {α β : Type}

def locate (position : Nat) : Except Fault α → Except Located α
  | .ok a => .ok a
  | .error e => .error (position, e)

def field (name : String) (f : Decoder α) (absent : Members → Except Located α) : Record α where
  names := [name]
  read ms :=
    match ms.list.findIdx? fun m => m.1 == some name with
    | some i => locate i (f ((ms.list.map Prod.snd).getD i .null))
    | none => absent ms

def required (name : String) (f : Decoder α) : Record α :=
  field name f fun ms => .error (ms.list.length + 1, .mismatch)

def optional (name : String) (default : α) (f : Decoder α) : Record α :=
  field name f fun _ => .ok default

def combine (f : Except Located (α → β)) (a : Except Located α) : Except Located β :=
  match f, a with
  | .ok f, .ok a => .ok (f a)
  | .error e, .ok _ => .error e
  | .ok _, .error e => .error e
  | .error e, .error e' => .error (e.first e')

instance : Functor Record where
  map g r := ⟨r.names, fun ms => g <$> r.read ms⟩

instance : Seq Record where
  seq f a := ⟨f.names ++ (a ()).names, fun ms => combine (f.read ms) ((a ()).read ms)⟩

def memberFault (names : List String) :
    Nat → List String → List (Option String × Doc) → Option Located
  | _, _, [] => none
  | i, seen, (k, d) :: ms =>
    match k with
    | none => some (i, .malformed)
    | some k =>
      if names.contains k then
        if seen.contains k then some (i, .mismatch) else memberFault names (i + 1) (k :: seen) ms
      else if d.complete then memberFault names (i + 1) seen ms
      else some (i, .malformed)

def fault (names : List String) (ms : Members) : Except Located Unit :=
  match memberFault names 0 [] ms.list, ms.ending with
  | some e, _ => .error e
  | none, some e => .error (ms.list.length, e)
  | none, none => .ok ()

def decode (r : Record α) : Decoder α := fun d => do
  let ms ← Members.ofDoc r.names d
  match combine ((fun _ a => a) <$> fault r.names ms) (r.read ms) with
  | .ok a => .ok a
  | .error e => .error e.2

end Record

end Recombine.Json
