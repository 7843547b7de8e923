import BuildLog.Toml.Outline
import BuildLog.Toml.Range
import BuildLog.Toml.Tree

namespace BuildLog.Toml

/-- Reads something off the front of a text and answers what is left, or why it is refused. -/
abbrev Parser (α : Type) := List Char → Except Failure (α × List Char)

/-- The elements of an array after its opening bracket or a comma. Each takes a character, so the
text is `fuel` enough. -/
def readElements (item : Parser Toml) : (fuel : List Char) → Parser (List Toml)
  | [], _ => .error .malformed
  | _ :: fuel, s => do
    match ← orMalformed (gap false s) with
    | ']' :: r => return ([], r)
    | t =>
      let (v, r) ← item t
      match ← orMalformed (gap false r) with
      | ',' :: u => do
        let (vs, u) ← readElements item fuel u
        return (v :: vs, u)
      | ']' :: u => return ([v], u)
      | _ => .error .malformed

/-- A key, the equals sign and a value; `between` passes over what may stand around the sign. -/
def readKeyValue (between : List Char → Option (List Char)) (item : Parser Toml) :
    Parser (List String × Toml) := fun s => do
  let (keys, r) ← readKey s
  match ← orMalformed (between r) with
  | '=' :: t => do
    let (v, u) ← item (← orMalformed (between t))
    return ((keys, v), u)
  | _ => .error .malformed

def readInlineEntries (item : Parser Toml) : (fuel : List Char) → Entries → Parser Entries
  | [], _, _ => .error .malformed
  | _ :: fuel, es, s => do
    match ← orMalformed (gap false s) with
    | '}' :: r => return (es, r)
    | t =>
      let ((keys, v), r) ← readKeyValue (gap false) item t
      let es ← orMalformed (assignKeys keys v es)
      match ← orMalformed (gap false r) with
      | ',' :: u => readInlineEntries item fuel es u
      | '}' :: u => return (es, u)
      | _ => .error .malformed

def readValue : (depth : Nat) → Parser Toml
  | 0, s => orMalformed (readScalar s)
  | depth + 1, s =>
    match s with
    | '[' :: r => (readElements (readValue depth) r r).map fun x => (.array x.1, x.2)
    | '{' :: r =>
      (readInlineEntries (readValue depth) r [] r).map fun x =>
        (.table (freezeEntries x.1), x.2)
    | r => orMalformed (readScalar r)

/-- The statements of a document, in the table that the last header named; `fuel` bounds their
number. -/
def readStatements :
    (fuel : Nat) → (path : List String) → Entries → List Char → Except Failure Entries
  | 0, _, _, _ => .error .malformed
  | fuel + 1, path, es, s => do
    match ← orMalformed (gap false s) with
    | [] => return es
    | '[' :: '[' :: t =>
      let (keys, r) ← readKey t
      let es ← orMalformed (openElement keys es)
      let r ← orMalformed (headerEnd [']', ']'] r)
      readStatements fuel keys es r
    | '[' :: t =>
      let (keys, r) ← readKey t
      let es ← orMalformed (openTable keys es)
      let r ← orMalformed (headerEnd [']'] r)
      readStatements fuel keys es r
    | t =>
      let ((keys, v), r) ← readKeyValue (some ∘ skipBlanks) (readValue maxDepth) t
      let es ← orMalformed (changeAtHeader (assignKeys keys v) path es)
      let r ← orMalformed (endLine false r)
      readStatements fuel path es r

def dropMark : List Char → List Char
  | '\ufeff' :: s => s
  | s => s

/-- The entries of the document that a text stands for. Whether a key has too many parts matters
only in a text that has an outline, and whether a number is too large only if all else is right. -/
def parse (text : String) : Except Failure (List (String × Toml)) :=
  let s := dropMark text.toList
  match readStatements (s.length + 1) [] [] s with
  | .error f => .error (if hasOutline s then f else .malformed)
  | .ok es =>
    let entries := freezeEntries es
    if entriesInRange entries then .ok entries else .error .malformed

end BuildLog.Toml
