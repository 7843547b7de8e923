import BuildLog.Report
import BuildLog.Text.Utf8
import BuildLog.Toml.Document

namespace BuildLog

structure Config where
  /-- The characters kept of a line without a measurement marker. -/
  maxLineLength : Nat
  measurementMarkers : List String
  checkErrors : Bool
  maxStepErrors : Nat
deriving DecidableEq

namespace Config

def standard : Config where
  maxLineLength := Truncation.defaultLimit
  measurementMarkers := Truncation.defaultMarkers
  checkErrors := true
  maxStepErrors := StepLog.defaultMaxErrors

def truncation (c : Config) : Truncation := .ofMarkers c.maxLineLength c.measurementMarkers

def options (c : Config) : Options := ⟨c.checkErrors, c.maxStepErrors, c.truncation⟩

def toJson (c : Config) : Json :=
  .ofFields [
    ("max_line_length", .int c.maxLineLength),
    ("measurement_markers", .array (c.measurementMarkers.map .string)),
    ("check_errors", .bool c.checkErrors),
    ("max_step_errors", .int c.maxStepErrors)]

def record : Json.Record (Nat × List String × Bool × Nat × Unit) :=
  .field "max_line_length" Json.readCount (some standard.maxLineLength) true <|
  .field "measurement_markers" (Json.readList Json.readText) (some standard.measurementMarkers)
    true <|
  .field "check_errors" Json.readFlag (some standard.checkErrors) true <|
  .field "max_step_errors" Json.readCount (some standard.maxStepErrors) true .done

def read : Json.Reader Config := fun s => do
  let ((maxLineLength, measurementMarkers, checkErrors, maxStepErrors, _), r) ←
    record.read "ParserConfig" s
  return (⟨maxLineLength, measurementMarkers, checkErrors, maxStepErrors⟩, r)

def countOf? : Toml → Option Nat
  | .integer n => if 0 ≤ n && n < Int.pow 2 64 then some n.toNat else none
  | _ => none

def textOf? : Toml → Option String
  | .string s => some s
  | _ => none

def textsOf? : Toml → Option (List String)
  | .array vs => vs.mapM textOf?
  | _ => none

def flagOf? : Toml → Option Bool
  | .boolean b => some b
  | _ => none

/-- The value at a key, or else `absent`; there is none if the value is of another type. -/
def setting? {α : Type} (entries : List (String × Toml)) (key : String) (of? : Toml → Option α)
    (absent : α) : Option α :=
  match Dictionary.get? entries key with
  | some v => of? v
  | none => some absent

def ofEntries? (entries : List (String × Toml)) : Option Config := do
  let maxLineLength ← setting? entries "max_line_length" countOf? standard.maxLineLength
  let measurementMarkers ←
    setting? entries "measurement_markers" textsOf? standard.measurementMarkers
  let checkErrors ← setting? entries "check_errors" flagOf? standard.checkErrors
  let maxStepErrors ← setting? entries "max_step_errors" countOf? standard.maxStepErrors
  return ⟨maxLineLength, measurementMarkers, checkErrors, maxStepErrors⟩

def ofToml (text : String) : Except Toml.Failure Config := do
  Toml.orMalformed (ofEntries? (← Toml.parse text))

inductive Defect where
  | notText
  | notConfig (why : Toml.Failure)
deriving DecidableEq

def ofBytes (bytes : List UInt8) : Except Defect Config :=
  match Text.Utf8.decode? bytes with
  | none => .error .notText
  | some text => (ofToml (String.ofList text)).mapError .notConfig

end Config
end BuildLog
