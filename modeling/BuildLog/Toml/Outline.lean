import BuildLog.Toml.Token

namespace BuildLog.Toml
open Text

def endsWord (c : Char) : Bool :=
  ['.', '=', ',', '[', ']', '{', '}', ' ', '\t', '#', '\r', '\n'].contains c

/-- What follows a string after its opening quote. The string ends with the line if no quote
closes it. -/
def skipLineString (quote : Char) (escapes : Bool) : List Char → List Char
  | [] => []
  | [c] => if c = '\n' then [c] else []
  | c :: d :: r =>
    if c = '\n' then c :: d :: r
    else if c = quote then d :: r
    else if escapes && c = '\\' && (d = quote || d = '\\') then skipLineString quote escapes r
    else skipLineString quote escapes (d :: r)

/-- What follows a string in three quotes after the opening ones. The string ends with the text if
no quotes close it. -/
def skipLongString (quote : Char) (escapes : Bool) : List Char → List Char
  | [] => []
  | [_] => []
  | c :: d :: r =>
    let quotes := ((c :: d :: r).takeWhile (· = quote)).length
    if 3 ≤ quotes then (c :: d :: r).drop (min quotes 5)
    else if escapes && c = '\\' && (d = quote || d = '\\') then skipLongString quote escapes r
    else skipLongString quote escapes (d :: r)

def skipWord : List Char → List Char
  | '"' :: '"' :: '"' :: r => skipLongString '"' true r
  | '\'' :: '\'' :: '\'' :: r => skipLongString '\'' false r
  | '"' :: r => skipLineString '"' true r
  | '\'' :: r => skipLineString '\'' false r
  | r => r.dropWhile (!endsWord ·)

/-- What follows words with dots between them, and blanks around. A word may be empty. Each but the
first follows a dot, so the text is `fuel` enough. -/
def skipKey : (fuel : List Char) → List Char → List Char
  | [], s => s
  | _ :: fuel, s =>
    match skipBlanks (skipWord (skipBlanks s)) with
    | '.' :: r => skipKey fuel r
    | r => r

def skipScalar : List Char → Option (List Char)
  | [] => none
  | c :: r =>
    if c = '"' || c = '\'' then some (skipWord (c :: r))
    else if endsWord c && c ≠ '.' then none
    else some (r.dropWhile fun c => !endsWord c || c = '.' || isBlankChar c)

/-- What follows the parts of a value and its closing bracket, after the opening one. Each takes a
character, so the text is `fuel` enough. -/
def skipParts (item : List Char → Option (List Char)) (close : Char) :
    (fuel : List Char) → List Char → Option (List Char)
  | [], _ => none
  | _ :: fuel, s => do
    let t ← gap false s
    if t.head? = some close then some (t.drop 1)
    else
      match ← gap false (← item t) with
      | [] => none
      | c :: u =>
        if c = close then some u else if c = ',' then skipParts item close fuel u else none

def skipEntry (item : List Char → Option (List Char)) (s : List Char) : Option (List Char) := do
  match ← gap false (skipKey s s) with
  | '=' :: r => item (← gap false r)
  | _ => none

def skipValue : (depth : Nat) → List Char → Option (List Char)
  | 0, s => skipScalar s
  | depth + 1, s =>
    match s with
    | '[' :: r => skipParts (skipValue depth) ']' r r
    | '{' :: r => skipParts (skipEntry (skipValue depth)) '}' r r
    | r => skipScalar r

/-- What follows a header, or a key, the equals sign and a value, and the line's end. The value may
be left out. -/
def skipStatement : List Char → Option (List Char)
  | '[' :: '[' :: r => headerEnd [']', ']'] (skipKey r r)
  | '[' :: r => headerEnd [']'] (skipKey r r)
  | s =>
    match skipKey s s with
    | '=' :: r =>
      let v := skipBlanks r
      (skipValue maxDepth v <|> some v).bind (endLine false)
    | _ => none

def consistsOfStatements : (fuel : List Char) → List Char → Bool
  | [], s => s.isEmpty
  | _ :: fuel, s =>
    match gap false s with
    | none => false
    | some [] => true
    | some t =>
      match skipStatement t with
      | none => false
      | some r => consistsOfStatements fuel r

def hasOutline (s : List Char) : Bool := consistsOfStatements s s

end BuildLog.Toml
