import BuildLog.Text.DecimalDigit
import BuildLog.Text.Scan

namespace BuildLog.StepMarker
open Text

structure Results where
  code : String
  elapsed : String
deriving DecidableEq

structure Started where
  name : String
  results : Option Results
  time : String
deriving DecidableEq

structure Finished where
  name : String
  results : Results
  time : String
deriving DecidableEq

def Results.render (r : Results) : String :=
  " (results: " ++ r.code ++ ", elapsed: " ++ r.elapsed ++ ")"

def Started.render (m : Started) : String :=
  "========= Started " ++ m.name ++ m.results.elim "" Results.render ++ " (at " ++ m.time ++
    ") ========="

def Finished.render (m : Finished) : String :=
  "========= Finished " ++ m.name ++ m.results.render ++ " (at " ++ m.time ++ ") ========="

def startedWord : String := "========= Started"

def finishedWord : String := "========= Finished"

def closing : String := ") ========="

/-- A marker without its closing, which stands on one line. -/
@[irreducible]
def body? (line : String) : Option (List Char) :=
  let s := line.toList
  let size := s.length - closing.length
  if s.drop size = closing.toList && s.all inLine then some (s.take size) else none

def time? (s : List Char) : Option (List Char) := after? " (at ".toList s

/-- The result code, the elapsed time and the answer of `k` for what follows them. -/
def results? {α : Type} (k : List Char → Option α) (s : List Char) :
    Option (List Char × List Char × α) :=
  match after? " (results: ".toList s with
  | none => none
  | some r =>
    let code := r.takeWhile isDecimalDigit
    if code.isEmpty then none
    else
      match after? ", elapsed: ".toList (r.drop code.length) with
      | none => none
      | some r =>
        (shortest? inLine (fun t => (after? [')'] t).bind k) r).map fun x => (code, x.1, x.2)

def startedEnd? (s : List Char) : Option (Option Results × List Char) :=
  match results? time? s with
  | some (code, elapsed, time) =>
    some (some ⟨String.ofList code, String.ofList elapsed⟩, time)
  | none => (time? s).map (none, ·)

def started? (line : String) : Option Started := do
  let s ← after? (startedWord ++ " ").toList (← body? line)
  let (name, results, time) ← shortest? inLine startedEnd? s
  return ⟨String.ofList name, results, String.ofList time⟩

def finished? (line : String) : Option Finished := do
  let s ← after? (finishedWord ++ " ").toList (← body? line)
  let (name, code, elapsed, time) ← shortest? inLine (results? time?) s
  return ⟨String.ofList name, ⟨String.ofList code, String.ofList elapsed⟩, String.ofList time⟩

end BuildLog.StepMarker
