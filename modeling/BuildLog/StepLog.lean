import BuildLog.FailureLine
import BuildLog.Step
import BuildLog.StepMarker
import BuildLog.Timestamp

namespace BuildLog

/-- The closed steps, the open one, and how errors are recorded. -/
structure StepLog where
  checksErrors : Bool
  /-- The most error lines that are recorded for a step. -/
  maxErrors : Nat
  closed : List Step
  current : Option Step
  errorsTruncated : Bool
deriving DecidableEq

namespace StepLog

def defaultMaxErrors : Nat := 100

def empty (checksErrors : Bool) (maxErrors : Nat) : StepLog :=
  ⟨checksErrors, maxErrors, [], none, false⟩

def steps (l : StepLog) : List Step := l.closed ++ l.current.toList

def start (l : StepLog) (m : StepMarker.Started) (lineNumber : Nat) : StepLog :=
  { l with
    closed := l.steps
    current := some (Step.start m.name l.steps.length m.time lineNumber) }

/-- The seconds between two timestamps, if both can be read. -/
def duration? (started finished : String) : Option Int :=
  match Timestamp.read? started, Timestamp.read? finished with
  | some a, some b => some (a.secondsBetween b)
  | _, _ => none

def finish (l : StepLog) (s : Step) (m : StepMarker.Finished) (lineNumber : Nat) : StepLog :=
  let finished :=
    { s with
      finished := some m.time
      finishedLine := some lineNumber
      duration := duration? s.started m.time
      outcome := Outcome.ofDigits m.results.code }
  { l with closed := l.closed ++ [finished], current := none }

/-- Counts an error line of the open step `s` and records it if there is room. -/
def addError (l : StepLog) (s : Step) (line : String) (lineNumber : Nat) : StepLog :=
  if s.errors.length < l.maxErrors then
    { l with
      current := some
        { s with
          errors := s.errors ++ [⟨lineNumber, line⟩]
          errorCount := s.errorCount + 1 } }
  else
    { l with
      current := some { s with errorCount := s.errorCount + 1 }
      errorsTruncated := true }

def readLine (l : StepLog) (line : String) (lineNumber : Nat) : StepLog :=
  match StepMarker.started? line with
  | some m => l.start m lineNumber
  | none =>
    match l.current with
    | none => l
    | some s =>
      match StepMarker.finished? line with
      | some m => l.finish s m lineNumber
      | none =>
        if l.checksErrors && FailureLine.isFailure line then l.addError s line lineNumber else l

def report (l : StepLog) : StepReport where
  steps := l.steps
  allErrors := l.steps.flatMap Step.errors
  errorsTruncated := l.errorsTruncated

end StepLog
end BuildLog
