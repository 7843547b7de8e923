import BuildLog.DetailLine
import BuildLog.Header
import BuildLog.Measurements
import BuildLog.StepLog

namespace BuildLog

inductive Section where
  | header (h : Header)
  | steps (l : StepLog)
  | details (ds : List Detail)
  | measurements (m : Measurements)

namespace Section

def name : Section → String
  | header _ => "header"
  | steps _ => "step_data"
  | details _ => "Job Info"
  | measurements _ => "talos_data"

def isComplete : Section → Bool
  | header h => h.isComplete
  | steps _ => false
  | details _ => false
  | measurements m => m.isComplete

/-- Reads a line. A line that fails leaves the section as it is. -/
def readLine (s : Section) (line : String) (lineNumber : Nat) : Section × Option Malformed :=
  match s with
  | header h => (header (h.readLine line), none)
  | steps l => (steps (l.readLine line lineNumber), none)
  | details ds =>
    match DetailLine.read line lineNumber with
    | .ok none => (details ds, none)
    | .ok (some d) => (details (ds ++ [d]), none)
    | .error e => (details ds, some e)
  | measurements m =>
    let (m, e) := m.readLine line lineNumber
    (measurements m, e)

def artifact : Section → Json
  | header h => .object (h.properties.map fun e => (e.1, .string e.2))
  | steps l => l.report.toJson
  | details ds => .array (ds.map Detail.toJson)
  | measurements m => .array m.records

end Section
end BuildLog
