namespace Recombine.Text

def isBlank (c : Char) : Bool :=
  let n := c.toNat
  (9 ≤ n && n ≤ 13) || n == 0x20 || n == 0x85 || n == 0xA0 || n == 0x1680 ||
    (0x2000 ≤ n && n ≤ 0x200A) || n == 0x2028 || n == 0x2029 || n == 0x202F ||
    n == 0x205F || n == 0x3000

def trimStart (cs : List Char) : List Char := cs.dropWhile isBlank

def trim (cs : List Char) : List Char := (trimStart (trimStart cs).reverse).reverse

/-- The word in `s`, trimmed and in lower case. Folding ASCII alone is enough to recognise a word
without `k`: the Kelvin sign is the only other character whose lower case is an ASCII letter. -/
def word (s : String) : String := String.ofList ((trim s.toList).map Char.toLower)

end Recombine.Text
