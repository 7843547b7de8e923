import BuildLog.Json.Record

namespace BuildLog

structure LoggedError where
  lineNumber : Nat
  line : String
deriving DecidableEq

namespace LoggedError

def toJson (e : LoggedError) : Json :=
  .ofFields [("linenumber", .int e.lineNumber), ("line", .string e.line)]

def record : Json.Record (Nat × String × Unit) :=
  .field "linenumber" Json.readCount none false (.field "line" Json.readText none false .done)

def read : Json.Reader LoggedError := fun s => do
  let ((lineNumber, line, _), r) ← record.read "ErrorLine" s
  return (⟨lineNumber, line⟩, r)

end LoggedError

/-- How a step ended. -/
inductive Outcome where
  | success
  | testFailed
  | busted
  | skipped
  | exception
  | retry
  | userCancel
  | unknown
deriving DecidableEq

namespace Outcome

def ofCode : Nat → Outcome
  | 0 => success
  | 1 => testFailed
  | 2 => busted
  | 3 => skipped
  | 4 => exception
  | 5 => retry
  | 6 => userCancel
  | _ => unknown

/-- The outcome of a code in decimal digits. Digits of other scripts make no number. -/
def ofDigits (code : String) : Outcome :=
  let ds := code.toList
  if ds.all Text.isAsciiDigit then ofCode (Text.decimalValue ds) else unknown

def name : Outcome → String
  | success => "success"
  | testFailed => "testfailed"
  | busted => "busted"
  | skipped => "skipped"
  | exception => "exception"
  | retry => "retry"
  | userCancel => "usercancel"
  | unknown => "unknown"

def all : List Outcome :=
  [success, testFailed, busted, skipped, exception, retry, userCancel, unknown]

def toJson (o : Outcome) : Json := .string o.name

def read : Json.Reader Outcome := Json.readVariant (all.map fun o => (o.name, o))

end Outcome

structure Step where
  name : String
  order : Nat
  started : String
  startedLine : Nat
  finished : Option String
  finishedLine : Option Nat
  /-- Seconds from start to finish. -/
  duration : Option Int
  outcome : Outcome
  /-- The recorded error lines. -/
  errors : List LoggedError
  /-- The number of error lines, the unrecorded ones included. -/
  errorCount : Nat
deriving DecidableEq

namespace Step

def start (name : String) (order : Nat) (time : String) (lineNumber : Nat) : Step where
  name := name
  order := order
  started := time
  startedLine := lineNumber
  finished := none
  finishedLine := none
  duration := none
  outcome := .unknown
  errors := []
  errorCount := 0

def isFinished (s : Step) : Bool := s.finished.isSome

def toJson (s : Step) : Json :=
  .ofFields [
    ("name", .string s.name),
    ("order", .int s.order),
    ("started", .string s.started),
    ("started_linenumber", .int s.startedLine),
    ("finished", .ofOption .string s.finished),
    ("finished_linenumber", .ofOption (fun n => .int (n : Nat)) s.finishedLine),
    ("duration", .ofOption .int s.duration),
    ("result", s.outcome.toJson),
    ("errors", .array (s.errors.map LoggedError.toJson)),
    ("error_count", .int s.errorCount)]

def record : Json.Record (String × Nat × String × Nat × Option String × Option Nat × Option Int ×
    Outcome × List LoggedError × Nat × Unit) :=
  .field "name" Json.readText none false <|
  .field "order" Json.readCount none false <|
  .field "started" Json.readText none false <|
  .field "started_linenumber" Json.readCount none false <|
  .field "finished" (Json.readOptional Json.readText) (some none) false <|
  .field "finished_linenumber" (Json.readOptional Json.readCount) (some none) false <|
  .field "duration" (Json.readOptional Json.readInt64) (some none) false <|
  .field "result" Outcome.read none false <|
  .field "errors" (Json.readList LoggedError.read) none false <|
  .field "error_count" Json.readCount none false .done

def read : Json.Reader Step := fun s => do
  let ((name, order, started, startedLine, finished, finishedLine, duration, outcome, errors,
    errorCount, _), r) ← record.read "Step" s
  return (⟨name, order, started, startedLine, finished, finishedLine, duration, outcome, errors,
    errorCount⟩, r)

end Step

structure StepReport where
  steps : List Step
  allErrors : List LoggedError
  /-- Whether some error line is not recorded. -/
  errorsTruncated : Bool
deriving DecidableEq

namespace StepReport

def toJson (d : StepReport) : Json :=
  .ofFields [
    ("steps", .array (d.steps.map Step.toJson)),
    ("all_errors", .array (d.allErrors.map LoggedError.toJson)),
    ("errors_truncated", .bool d.errorsTruncated)]

def record : Json.Record (List Step × List LoggedError × Bool × Unit) :=
  .field "steps" (Json.readList Step.read) none false <|
  .field "all_errors" (Json.readList LoggedError.read) none false <|
  .field "errors_truncated" Json.readFlag none false .done

def read : Json.Reader StepReport := fun s => do
  let ((steps, allErrors, errorsTruncated, _), r) ← record.read "StepData" s
  return (⟨steps, allErrors, errorsTruncated⟩, r)

end StepReport
end BuildLog
