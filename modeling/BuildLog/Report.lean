import BuildLog.Session

namespace BuildLog

structure Options where
  /-- Whether the lines of steps are checked for failures. -/
  checkErrors : Bool
  /-- The most error lines that are recorded for a step. -/
  maxStepErrors : Nat
  truncation : Truncation
deriving DecidableEq

def Options.standard : Options := ⟨true, StepLog.defaultMaxErrors, Truncation.standard⟩

/-- A kind of report: the job's summary, its header and steps, or its bulk measurements. -/
inductive ReportKind where
  | jobInfo
  | structuredLog
  | talosData
deriving DecidableEq

namespace ReportKind

def all : List ReportKind := [jobInfo, structuredLog, talosData]

def name : ReportKind → String
  | jobInfo => "job-info"
  | structuredLog => "structured-log"
  | talosData => "talos-data"

def title : ReportKind → String
  | jobInfo => "Job Info"
  | structuredLog => "Structured Log"
  | talosData => "talos_data"

/-- The kind with a name, in letters of either case and with blanks around it. -/
def ofName? (text : String) : Option ReportKind :=
  let wanted := (Text.trim text.toList).map Char.toLower
  all.find? fun k => k.name.toList = wanted

def unknownMessage (text : String) : String :=
  "Unknown builder kind '" ++ text ++ "' (expected job-info, structured-log or talos-data)"

def toJson (k : ReportKind) : Json := .string k.name

def read : Json.Reader ReportKind := Json.readVariant (all.map fun k => (k.name, k))

def sections (k : ReportKind) (checkErrors : Bool) (maxErrors : Nat) : List Section :=
  match k with
  | jobInfo => [.details []]
  | structuredLog => [.header .empty, .steps (.empty checkErrors maxErrors)]
  | talosData => [.measurements .empty]

def session (k : ReportKind) (url : Option String) (o : Options) : Session :=
  .start k.title url (k.sections o.checkErrors o.maxStepErrors) o.truncation

end ReportKind
end BuildLog
