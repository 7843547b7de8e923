import BuildLog.Dictionary
import BuildLog.StepMarker

namespace BuildLog
open Text

structure Header where
  properties : Dictionary String
  isComplete : Bool
deriving DecidableEq

namespace Header

def empty : Header := ⟨[], false⟩

def isLowercase (c : Char) : Bool := 'a' ≤ c && c ≤ 'z'

/-- The name and value of a property line: lower-case letters, a colon and a space, and the rest
of the line. -/
def property? (line : String) : Option (String × String) :=
  let s := line.toList
  let key := s.takeWhile isLowercase
  if key.isEmpty then none
  else
    match after? [':', ' '] (s.drop key.length) with
    | none => none
    | some value =>
      if value.all inLine then some (String.ofList key, String.ofList value) else none

/-- Whether the line starts the first step, as far as the header is concerned. -/
def isEnd (line : String) : Bool := StepMarker.startedWord.toList.isPrefixOf line.toList

/-- Reads a line; once a step has started no line counts. -/
def readLine (h : Header) (line : String) : Header :=
  if h.isComplete then h
  else if isEnd line then { h with isComplete := true }
  else
    match property? line with
    | some (key, value) => { h with properties := h.properties.insert key value }
    | none => h

def get? (h : Header) (key : String) : Option String := Dictionary.get? h.properties key

end Header
end BuildLog
