import BuildLog.Text.Scan

namespace BuildLog

structure Truncation where
  limit : Nat
  markers : List String
  nonempty_of_mem : ∀ m ∈ markers, m ≠ ""
deriving DecidableEq

namespace Truncation

/-- Empty markers, which occur in every line, are left out. -/
def ofMarkers (limit : Nat) (markers : List String) : Truncation where
  limit := limit
  markers := markers.filter (· ≠ "")
  nonempty_of_mem := by simp

def dataMarker : String := "TALOSDATA"

def resultMarker : String := "TalosResult"

def defaultLimit : Nat := 500

def defaultMarkers : List String := [dataMarker, resultMarker]

def standard : Truncation := ofMarkers defaultLimit defaultMarkers

def isExempt (t : Truncation) (line : String) : Bool :=
  t.markers.any fun m => Text.occurs m.toList line.toList

def cut (t : Truncation) (line : String) : String :=
  if t.isExempt line then line else String.ofList (line.toList.take t.limit)

end Truncation
end BuildLog
