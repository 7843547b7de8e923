import BuildLog.Json.Printer
import BuildLog.Text.Quoted

namespace BuildLog.Json

inductive Defect where
  | endOfArray
  | endOfObject
  | endOfString
  | endOfValue
  | expectedColon
  | expectedArrayCommaOrEnd
  | expectedObjectCommaOrEnd
  | expectedWord
  | expectedValue
  | invalidEscape
  | invalidNumber
  | numberOutOfRange
  | loneSurrogate
  | unfinishedSurrogate
  | controlCharacter
  | keyNotString
  | trailingComma
  | trailingCharacters
  | nestingTooDeep
deriving DecidableEq

def Defect.message : Defect → String
  | endOfArray => "EOF while parsing a list"
  | endOfObject => "EOF while parsing an object"
  | endOfString => "EOF while parsing a string"
  | endOfValue => "EOF while parsing a value"
  | expectedColon => "expected `:`"
  | expectedArrayCommaOrEnd => "expected `,` or `]`"
  | expectedObjectCommaOrEnd => "expected `,` or `\x7d`"
  | expectedWord => "expected ident"
  | expectedValue => "expected value"
  | invalidEscape => "invalid escape"
  | invalidNumber => "invalid number"
  | numberOutOfRange => "number out of range"
  | loneSurrogate => "lone leading surrogate in hex escape"
  | unfinishedSurrogate => "unexpected end of hex escape"
  | controlCharacter => "control character (\\u0000-\\u001F) found while parsing a string"
  | keyNotString => "key must be a string"
  | trailingComma => "trailing comma"
  | trailingCharacters => "trailing characters"
  | nestingTooDeep => "recursion limit exceeded"

inductive Mismatch where
  | wrongType (found : Json) (wanted : String)
  | wrongValue (found : Int) (wanted : String)
  | wrongLength (found : Nat) (wanted : String)
  | missingField (name : String)
  | duplicateField (name : String)
  | unknownVariant (name : String) (known : List String)

def ticked (s : String) : String := "`" ++ s ++ "`"

/-- A value as a message names it: by its kind, and a scalar with its text. -/
def description : Json → String
  | null => "null"
  | bool b => "boolean " ++ ticked (String.ofList (scalarText (bool b)))
  | int n => "integer " ++ ticked (String.ofList (intText n))
  | double x => "floating point " ++ ticked (String.ofList (doubleText x))
  | string s => "string " ++ Text.quoted s
  | array _ => "sequence"
  | object _ => "map"

def alternatives : List String → String
  | [] => "there are no variants"
  | [a] => "expected " ++ ticked a
  | [a, b] => "expected " ++ ticked a ++ " or " ++ ticked b
  | names => "expected one of " ++ ", ".intercalate (names.map ticked)

def Mismatch.message : Mismatch → String
  | wrongType found wanted => "invalid type: " ++ found.description ++ ", expected " ++ wanted
  | wrongValue found wanted =>
    "invalid value: " ++ description (int found) ++ ", expected " ++ wanted
  | wrongLength found wanted =>
    "invalid length " ++ String.ofList (natText found) ++ ", expected " ++ wanted
  | missingField name => "missing field " ++ ticked name
  | duplicateField name => "duplicate field " ++ ticked name
  | unknownVariant name known => "unknown variant " ++ ticked name ++ ", " ++ alternatives known

/-- A failure while reading; a defect comes with the number of bytes that had not been read. -/
inductive Failure where
  | defect (d : Defect) (unread : Nat)
  | mismatch (m : Mismatch)

/-- A failure as it is reported; a defect comes with the place where reading ended. -/
inductive Error where
  | malformed (d : Defect) (line column : Nat)
  | mismatch (m : Mismatch)

def Error.message : Error → String
  | malformed d line column =>
    d.message ++ " at line " ++ String.ofList (natText line) ++ " column " ++
      String.ofList (natText column)
  | mismatch m => m.message

/-- The line, counted from 1, and the number of bytes on it, at the end of some bytes. -/
def place (bytes : List UInt8) : Nat × Nat :=
  (bytes.count 10 + 1, (bytes.reverse.takeWhile (· ≠ 10)).length)

def Failure.report (text : String) : Failure → Error
  | defect d unread =>
    let bytes := text.toUTF8.toList
    let (line, column) := place (bytes.take (bytes.length - unread))
    .malformed d line column
  | mismatch m => .mismatch m

end BuildLog.Json
