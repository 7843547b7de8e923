import BuildLog.Json.Reader
import BuildLog.Malformed
import BuildLog.Text.Blank
import BuildLog.Text.Scan
import BuildLog.Truncation

namespace BuildLog
open Text

structure Measurements where
  records : List Json
  isComplete : Bool

namespace Measurements

def empty : Measurements := ⟨[], false⟩

def lastBracket? : List Char → Option Unit
  | ']' :: r => if r.all isBlank then some () else none
  | _ => none

def arrayText? : List Char → Option (List Char)
  | '[' :: r => (longest? inLine lastBracket? r).map fun x => '[' :: x.1 ++ [']']
  | _ => none

def marker : List Char := (Truncation.dataMarker ++ ":").toList

/-- The array after the first marker that an array follows. -/
def payload? (line : String) : Option (List Char) :=
  first? (fun s => (after? marker s).bind fun r => arrayText? (trimStart r)) line.toList

/-- Reads a line; once a payload has been read no line counts. -/
def readLine (m : Measurements) (line : String) (lineNumber : Nat) :
    Measurements × Option Malformed :=
  if m.isComplete then (m, none)
  else
    match payload? line with
    | none => (m, none)
    | some payload =>
      match Json.parseArray (String.ofList payload) with
      | .ok records => (⟨records, true⟩, none)
      | .error e => (m, some ⟨Truncation.dataMarker, lineNumber, e⟩)

end Measurements
end BuildLog
