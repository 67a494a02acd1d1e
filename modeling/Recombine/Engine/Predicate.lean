import Recombine.Plan.Filter
import Recombine.Row

namespace Recombine

def Text.occursIn (needle : List Char) : List Char → Bool
  | [] => needle.isEmpty
  | c :: cs => needle.isPrefixOf (c :: cs) || occursIn needle cs

def Test.holds : Test → Operand → Value → Bool
  | eq, .scalar x, v => v.looseEq x
  | ne, .scalar x, v => !v.looseEq x
  | gt, .scalar x, v => v.compare? x == some .gt
  | ge, .scalar x, v => (v.compare? x).any Ordering.isGE
  | lt, .scalar x, v => v.compare? x == some .lt
  | le, .scalar x, v => (v.compare? x).any Ordering.isLE
  | between, .list [lo, hi], v =>
    (v.compare? lo).any Ordering.isGE && (v.compare? hi).any Ordering.isLE
  | oneOf, .list xs, v => xs.any v.looseEq
  | contains, .scalar (.text needle), .text s => Text.occursIn needle.toList s.toList
  | _, _, _ => false

namespace Filter

def accepts (f : Filter) (v : Value) : Bool := f.test.holds f.operand v

def acceptsRow (f : Filter) (r : Row) : Bool := f.accepts (r.value f.column)

end Filter

end Recombine
