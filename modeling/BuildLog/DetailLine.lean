import BuildLog.Detail
import BuildLog.Json.Reader
import BuildLog.Malformed
import BuildLog.Text.Blank
import BuildLog.Text.Scan
import BuildLog.Truncation

namespace BuildLog.DetailLine
open Text

def marker : List Char := "TinderboxPrint:".toList

/-- The payload of a line: what follows the first marker, without blanks around it. -/
def payload? (line : String) : Option (List Char) := (first? (after? marker) line.toList).map trim

def isQuote (c : Char) : Bool := c = '\'' || c = '"'

def scheme? (s : List Char) : Option (List Char × List Char) :=
  let http := "http://".toList
  let https := "https://".toList
  match after? https s with
  | some r => some (https, r)
  | none => (after? http s).map (http, ·)

/-- A web address in quotes of either kind, with at least `least` characters after the scheme, and
what follows the closing quote. -/
def quotedUrl? (least : Nat) : List Char → Option (List Char × List Char)
  | [] => none
  | q :: s =>
    if isQuote q then
      match scheme? s with
      | none => none
      | some (scheme, r) =>
        let path := r.takeWhile fun c => !isQuote c
        match r.drop path.length with
        | [] => none
        | _ :: rest => if least ≤ path.length then some (scheme ++ path, rest) else none
    else none

/-- The address and the value of a link to an uploaded file:
`<a href='http://x/a'>a</a>: uploaded`. -/
def uploaded? (s : List Char) : Option (List Char × List Char) := do
  let r ← after? "<a href=".toList s
  let (url, r) ← quotedUrl? 0 r
  let r ← after? ['>'] r
  let (value, _) ← longest1? inLine (after? "</a>: uploaded".toList) r
  return (url, value)

def inTag (c : Char) : Bool := c ≠ '>' && inLine c

/-- The value of a link element: after other attributes and the first bracket, up to the last
closing tag of the line. No later bracket does if the first one does not. -/
def anchorEnd? (s : List Char) : Option (List Char) := do
  let r ← after? ['>'] (s.dropWhile inTag)
  let (value, _) ← longest1? inLine (after? "</a>".toList) r
  return value

def anchor? (s : List Char) : Option (List Char × List Char) := do
  let r ← after? "<a ".toList s
  let (_, link) ← shortest? inLine (fun t => do
    let t ← after? "href=".toList t
    let (url, t) ← quotedUrl? 1 t
    let value ← anchorEnd? t
    return (url, value)) r
  return link

def address? (s : List Char) : Option (List Char) := do
  let (scheme, r) ← scheme? s
  let path := r.takeWhile fun c => !isBlank c
  if path.isEmpty then none else some (scheme ++ path)

def isTitleChar (c : Char) : Bool :=
  ('A' ≤ c && c ≤ 'Z') || ('a' ≤ c && c ≤ 'z') || isAsciiDigit c ||
    c = '/' || c = '.' || c = '_' || c = ' ' || c = '-'

/-- What `k` reads after a title, a colon and a space, or else without a title. -/
def titled? {α : Type} (k : List Char → Option α) (s : List Char) :
    Option (Option (List Char) × α) :=
  let title := s.takeWhile isTitleChar
  let withTitle := if title.isEmpty then none else (after? [':', ' '] (s.drop title.length)).bind k
  match withTitle with
  | some a => some (some title, a)
  | none => (k s).map (none, ·)

def ofTitle (title : Option (List Char)) : Option String := title.map String.ofList

def uploadedTitle : String := "artifact uploaded"

def ofText (payload : List Char) : Detail :=
  match uploaded? payload with
  | some (url, value) => .link (some uploadedTitle) (String.ofList value) (String.ofList url)
  | none =>
    match titled? anchor? payload with
    | some (title, url, value) => .link (ofTitle title) (String.ofList value) (String.ofList url)
    | none =>
      match titled? address? payload with
      | some (title, url) => .link (ofTitle title) (String.ofList url) (String.ofList url)
      | none =>
        match splitAt? "<br/>".toList payload with
        | some (title, value) =>
          .rawHtml (some (String.ofList (trim title))) (String.ofList (trim value))
        | none => .rawHtml none (String.ofList payload)

/-- The detail of a measurement: the JSON after the marker, without colons and blanks. -/
def ofMeasurement (rest : List Char) : Except Json.Error Detail := do
  let value ← Json.parse (String.ofList (trim (rest.dropWhile (· = ':'))))
  return ⟨.measurement, some Truncation.resultMarker, value, none⟩

def ofPayload (payload : List Char) : Except Json.Error Detail :=
  match after? Truncation.resultMarker.toList payload with
  | some rest => ofMeasurement rest
  | none => .ok (ofText payload)

def read (line : String) (lineNumber : Nat) : Except Malformed (Option Detail) :=
  match payload? line with
  | none => .ok none
  | some payload =>
    match ofPayload payload with
    | .ok d => .ok (some d)
    | .error e => .error ⟨Truncation.resultMarker, lineNumber, e⟩

end BuildLog.DetailLine
