import BuildLog.Json.Token
import BuildLog.Text.Scan
import BuildLog.Toml.Failure

namespace BuildLog.Toml
open Text

abbrev Reader (α : Type) := List Char → Option (α × List Char)

def isBlankChar (c : Char) : Bool := c = ' ' || c = '\t'

def skipBlanks (s : List Char) : List Char := s.dropWhile isBlankChar

def isPlain (c : Char) : Bool := c = '\t' || (0x20 ≤ c.toNat && c.toNat ≠ 0x7F)

def endLine (inComment : Bool) : List Char → Option (List Char)
  | [] => some []
  | '\n' :: r => some r
  | '\r' :: '\n' :: r => some r
  | c :: r =>
    if inComment then if isPlain c then endLine true r else none
    else if isBlankChar c then endLine false r
    else if c = '#' then endLine true r
    else none

def gap (inComment : Bool) : List Char → Option (List Char)
  | [] => some []
  | '\n' :: r => gap false r
  | '\r' :: '\n' :: r => gap false r
  | c :: r =>
    if inComment then if isPlain c then gap true r else none
    else if isBlankChar c then gap false r
    else if c = '#' then gap true r
    else some (c :: r)

def readHexEscape (n : Nat) (s : List Char) : Option (Char × List Char) :=
  if s.length < n then none
  else
    match (s.take n).mapM Json.hexValue? with
    | none => none
    | some ds =>
      let v := ds.foldl (fun n d => 16 * n + d) 0
      if v.isValidChar then some (Char.ofNat v, s.drop n) else none

def readEscape : List Char → Option (Char × List Char)
  | 'b' :: s => some ('\x08', s)
  | 't' :: s => some ('\t', s)
  | 'n' :: s => some ('\n', s)
  | 'f' :: s => some ('\x0c', s)
  | 'r' :: s => some ('\r', s)
  | 'e' :: s => some ('\x1b', s)
  | '"' :: s => some ('"', s)
  | '\\' :: s => some ('\\', s)
  | 'x' :: s => readHexEscape 2 s
  | 'u' :: s => readHexEscape 4 s
  | 'U' :: s => readHexEscape 8 s
  | _ => none

def readBasicChars : (fuel : List Char) → Reader (List Char)
  | [], _ => none
  | _ :: fuel, s =>
    match s with
    | [] => none
    | '"' :: r => some ([], r)
    | '\\' :: r =>
      match readEscape r with
      | none => none
      | some (c, r) => (readBasicChars fuel r).map fun x => (c :: x.1, x.2)
    | c :: r => if isPlain c then (readBasicChars fuel r).map fun x => (c :: x.1, x.2) else none

def readLiteralChars : Reader (List Char)
  | [] => none
  | '\'' :: r => some ([], r)
  | c :: r => if isPlain c then (readLiteralChars r).map fun x => (c :: x.1, x.2) else none

def atLineEnd (s : List Char) : Bool :=
  match skipBlanks s with
  | '\n' :: _ => true
  | '\r' :: '\n' :: _ => true
  | _ => false

def skipLines : List Char → List Char
  | '\n' :: r => skipLines r
  | '\r' :: '\n' :: r => skipLines r
  | c :: r => if isBlankChar c then skipLines r else c :: r
  | [] => []

/-- A string in three quotes after the opening ones and a line end that follows them. A backslash
escapes if `escapes` holds. Up to two quotes before the closing ones belong to the string. Each
character takes one of the text, which is `fuel` enough. -/
def readLongChars (quote : Char) (escapes : Bool) : (fuel : List Char) → Reader (List Char)
  | [], _ => none
  | _ :: fuel, s =>
    let quotes := (s.takeWhile (· = quote)).length
    if 3 ≤ quotes then
      if quotes ≤ 5 then some (List.replicate (quotes - 3) quote, s.drop quotes) else none
    else
      match s with
      | [] => none
      | '\n' :: r => (readLongChars quote escapes fuel r).map fun x => ('\n' :: x.1, x.2)
      | '\r' :: '\n' :: r =>
        (readLongChars quote escapes fuel r).map fun x => ('\r' :: '\n' :: x.1, x.2)
      | c :: r =>
        if c = '\\' && escapes then
          if atLineEnd r then readLongChars quote escapes fuel (skipLines r)
          else
            match readEscape r with
            | none => none
            | some (c, r) => (readLongChars quote escapes fuel r).map fun x => (c :: x.1, x.2)
        else if isPlain c then (readLongChars quote escapes fuel r).map fun x => (c :: x.1, x.2)
        else none

def dropLineEnd : List Char → List Char
  | '\n' :: r => r
  | '\r' :: '\n' :: r => r
  | s => s

def readQuoted : Reader String
  | '"' :: '"' :: '"' :: r =>
    (readLongChars '"' true r (dropLineEnd r)).map fun x => (String.ofList x.1, x.2)
  | '\'' :: '\'' :: '\'' :: r =>
    (readLongChars '\'' false r (dropLineEnd r)).map fun x => (String.ofList x.1, x.2)
  | '"' :: r => (readBasicChars r r).map fun x => (String.ofList x.1, x.2)
  | '\'' :: r => (readLiteralChars r).map fun x => (String.ofList x.1, x.2)
  | _ => none

def isKeyChar (c : Char) : Bool :=
  ('A' ≤ c && c ≤ 'Z') || ('a' ≤ c && c ≤ 'z') || isAsciiDigit c || c = '_' || c = '-'

def readSimpleKey : Reader String
  | '"' :: r => (readBasicChars r r).map fun x => (String.ofList x.1, x.2)
  | '\'' :: r => (readLiteralChars r).map fun x => (String.ofList x.1, x.2)
  | s =>
    let key := s.takeWhile isKeyChar
    if key.isEmpty then none else some (String.ofList key, s.drop key.length)

/-- Keys with dots between them, and blanks around. Each but the first follows a dot, so the text is
`fuel` enough. -/
def readDottedKey : (fuel : List Char) → Reader (List String)
  | [], _ => none
  | _ :: fuel, s =>
    match readSimpleKey (skipBlanks s) with
    | none => none
    | some (key, r) =>
      match skipBlanks r with
      | '.' :: t => (readDottedKey fuel t).map fun x => (key :: x.1, x.2)
      | t => some ([key], t)

def maxKeys : Nat := 80

def readKey (s : List Char) : Except Failure (List String × List Char) := do
  let (keys, r) ← orMalformed (readDottedKey s s)
  if maxKeys < keys.length then .error .tooManyKeys else return (keys, r)

def headerEnd (close : List Char) (s : List Char) : Option (List Char) :=
  (after? close s).bind (endLine false)

def maxDepth : Nat := 80

end BuildLog.Toml
