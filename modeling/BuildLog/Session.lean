import BuildLog.Section
import BuildLog.Truncation

namespace BuildLog

structure Session where
  name : String
  sections : List Section
  truncation : Truncation
  /-- The number of lines read. -/
  lineNumber : Nat
  /-- The artifact as of its last assembly. -/
  assembled : Dictionary Json

namespace Session

def urlKey : String := "logurl"

def start (name : String) (url : Option String) (sections : List Section)
    (truncation : Truncation) : Session where
  name := name
  sections := sections
  truncation := truncation
  lineNumber := 0
  assembled := [(urlKey, .ofOption .string url)]

def dispatch (line : String) (lineNumber : Nat) : List Section → List Section × Option Malformed
  | [] => ([], none)
  | s :: rest =>
    if s.isComplete then
      let (rest, e) := dispatch line lineNumber rest
      (s :: rest, e)
    else
      match s.readLine line lineNumber with
      | (s, some e) => (s :: rest, some e)
      | (s, none) =>
        let (rest, e) := dispatch line lineNumber rest
        (s :: rest, e)

/-- Reads a line. One that fails is counted, too. -/
def readLine (s : Session) (line : String) : Session × Option Malformed :=
  let (sections, e) := dispatch (s.truncation.cut line) s.lineNumber s.sections
  ({ s with sections := sections, lineNumber := s.lineNumber + 1 }, e)

def readLines (s : Session) : List String → Session × Option Malformed
  | [] => (s, none)
  | line :: rest =>
    match s.readLine line with
    | (s, some e) => (s, some e)
    | (s, none) => s.readLines rest

theorem readLines_cons_of_failure {s : Session} {line : String} {e : Malformed}
    (h : (s.readLine line).2 = some e) (lines : List String) :
    s.readLines (line :: lines) = ((s.readLine line).1, some e) := by
  rw [readLines]
  split <;> simp_all

theorem readLines_cons_of_none {s : Session} {line : String} (h : (s.readLine line).2 = none)
    (lines : List String) :
    s.readLines (line :: lines) = (s.readLine line).1.readLines lines := by
  rw [readLines]
  split <;> simp_all

/-- Brings the artifact up to date. -/
def assemble (s : Session) : Session :=
  { s with
    assembled := s.sections.foldl (fun a x => Dictionary.insert x.name x.artifact a) s.assembled }

def takeArtifact (s : Session) : Session × Json :=
  let t := s.assemble
  (t, .object t.assembled)

def artifact (s : Session) : Json := s.takeArtifact.2

def debugText (s : Session) : String :=
  let quotedList := fun xs : List String => "[" ++ ", ".intercalate (xs.map Text.quoted) ++ "]"
  let number := fun n => String.ofList (Json.natText n)
  "ArtifactBuilder \x7b name: " ++ Text.quoted s.name ++
    ", line_number: " ++ number s.lineNumber ++
    ", parsers: " ++ quotedList (s.sections.map Section.name) ++
    ", truncation: TruncationPolicy \x7b max_line_length: " ++ number s.truncation.limit ++
    ", markers: " ++ quotedList s.truncation.markers ++ " \x7d \x7d"

end Session
end BuildLog
