import BuildLog.Dictionary
import BuildLog.Double

namespace BuildLog

inductive Json where
  | null
  | bool (b : Bool)
  | int (n : Int)
  | double (x : Double)
  | string (s : String)
  | array (elements : List Json)
  | object (fields : List (String × Json))
deriving Inhabited

namespace Json

/-- An object of the given fields, in ascending order of their names. -/
def ofFields (fields : List (String × Json)) : Json := object (Dictionary.ofList fields)

def field? (name : String) : Json → Option Json
  | object fields => Dictionary.get? fields name
  | _ => none

def ofOption {α : Type} (f : α → Json) : Option α → Json
  | some a => f a
  | none => null

end Json
end BuildLog
