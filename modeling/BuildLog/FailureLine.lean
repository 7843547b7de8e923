import BuildLog.Text.Blank
import BuildLog.Text.DecimalDigit
import BuildLog.Text.Scan

namespace BuildLog.FailureLine
open Text

def twoDigits (k : List Char → Bool) : List Char → Bool
  | a :: b :: s => isDecimalDigit a && isDecimalDigit b && k s
  | _ => false

def isSpace (c : Char) : Bool := c = ' '

def levels : List String := ["DEBUG", "INFO", "WARNING", "ERROR", "CRITICAL", "FATAL"]

def afterLevel? (s : List Char) : Option (List Char) :=
  levels.findSome? fun level =>
    match after? (level ++ " - ").toList s with
    | some r => some (r.dropWhile isSpace)
    | none => none

/-- The message after a time of day, spaces, a level name, a dash and spaces. -/
def afterStamp? : List Char → Option (List Char)
  | h :: h' :: ':' :: m :: m' :: ':' :: s :: s' :: ' ' :: r =>
    if [h, h', m, m', s, s'].all isDecimalDigit then afterLevel? (r.dropWhile isSpace) else none
  | _ => none

def message (line : List Char) : List Char :=
  let s := trimEnd line
  (afterStamp? s).getD s

/-- A line that holds one of these is no failure, whatever else it holds. -/
def harmlessWords : List (List Char) := ["TEST-INFO ", "TEST-PASS "].map String.toList

def failureWords : List (List Char) :=
  ["TEST-UNEXPECTED-", "fatal error", "FATAL ERROR", "REFTEST ERROR", "PROCESS-CRASH",
    "Assertion failure:", "Assertion failed:", "###!!! ABORT:", "E/GeckoLinker",
    "SUMMARY: AddressSanitizer", "SUMMARY: LeakSanitizer", "Automation Error:",
    "command timed out:", "wget: unable ", "TEST-VALGRIND-ERROR"].map String.toList

def failureOpenings : List (List Char) :=
  ["error: ", "remoteFailed:", "rm: cannot ", "abort:",
    "The web-page 'stop build' button was pressed", "[taskcluster] Error:"].map String.toList

def accept (_ : List Char) : Bool := true

def processNumber (k : List Char → Bool) (s : List Char) : Bool :=
  word "[".toList (run1 isDecimalDigit (word "]".toList k)) s || k s

def isNameChar (c : Char) : Bool := ('A' ≤ c && c ≤ 'Z') || ('a' ≤ c && c ≤ 'z') || c = '.'

def makeStop (s : List Char) : Bool :=
  let make := word "make".toList (processNumber (word ": ***".toList accept))
  word "g".toList make s || make s

def namedError (s : List Char) : Bool :=
  run1 isNameChar (word "Error: ".toList accept) s

def namedException (s : List Char) : Bool :=
  run isNameChar (word "Exception: ".toList accept) s

def outputExceeded (s : List Char) : Bool :=
  word "Output exceeded ".toList (run1 isDecimalDigit (word " bytes".toList accept)) s

/-- A script error with its place: `a.js: line 1, col 2, Error -`. -/
def scriptError (s : List Char) : Bool :=
  run inLine (word ".js: line ".toList (run1 isDecimalDigit (word ", col ".toList
    (run1 isDecimalDigit (word ", Error -".toList accept))))) s

def opensFailure (s : List Char) : Bool :=
  failureOpenings.any (·.isPrefixOf s) || makeStop s || namedError s || namedException s ||
    outputExceeded s || scriptError s

def numberedError (s : List Char) : Bool :=
  word " error(".toList (run isDecimalDigit (word "):".toList accept)) s

def compilerError (s : List Char) : Bool :=
  word ":".toList (run1 isDecimalDigit (word ": error:".toList accept)) s

/-- A compiler or resource compiler error: ` error C1083:`, ` error RC2135:`. -/
def codedError (s : List Char) : Bool :=
  let code := word "C".toList (run isDecimalDigit (word ":".toList accept))
  word " error ".toList (fun r => word "R".toList code r || code r) s

def statusError (s : List Char) : Bool :=
  let status := twoDigits (word ":".toList accept)
  word "ERROR ".toList (fun r => word "4".toList status r || word "5".toList status r) s

def windowsMakeStop (s : List Char) : Bool :=
  let stop := processNumber (word ": ***".toList accept)
  word "mozmake.".toList (fun r => word "exe".toList stop r || word "EXE".toList stop r) s

def holdsFailure (s : List Char) : Bool :=
  numberedError s || compilerError s || codedError s || statusError s || windowsMakeStop s

/-- Whether a message reports a failure. -/
def isFailureMessage (s : List Char) : Bool :=
  !harmlessWords.any (occurs · s) &&
    (failureWords.any (occurs · s) || opensFailure s || anywhere holdsFailure s)

def isFailure (line : String) : Bool := isFailureMessage (message line.toList)

end BuildLog.FailureLine
