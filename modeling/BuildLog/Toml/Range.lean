import BuildLog.Double
import BuildLog.Toml.Scalar

namespace BuildLog.Toml

def integerInRange (n : Int) : Bool := -Int.pow 2 127 ≤ n && n < Int.pow 2 128

def floatInRange (text : List Char) : Bool :=
  match scientific? (sign text).2 with
  | some (m, e) => !Double.overflows m e
  | none => true

mutual
def inRange : Toml → Bool
  | .integer n => integerInRange n
  | .float text => floatInRange text.toList
  | .array vs => elementsInRange vs
  | .table es => entriesInRange es
  | _ => true

def elementsInRange : List Toml → Bool
  | [] => true
  | v :: vs => inRange v && elementsInRange vs

def entriesInRange : List (String × Toml) → Bool
  | [] => true
  | (_, v) :: es => inRange v && entriesInRange es
end

end BuildLog.Toml
