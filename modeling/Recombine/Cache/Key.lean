import Recombine.Row
import Recombine.Sha256

namespace Recombine

namespace Relations

def cellContent (cell : String × Value) : Json := .array [.string cell.1, cell.2.toJson]

def rowContent (r : Row) : Json := Json.list cellContent r.cells

def content (data : Relations) : Json := Json.ofKeyMap (Json.list rowContent) data

def fingerprint (data : Relations) : String := Sha256.hexOfString data.content.text

end Relations

def cacheKey (dag engine fingerprint : String) : String :=
  dag ++ ":" ++ engine ++ ":" ++ fingerprint

end Recombine
