import BuildLog.Json.Reader

namespace BuildLog.Json
open Text

/-- The characters up to the closing quote. Each takes one of the text, which is `fuel` enough. -/
def passString : (fuel : List Char) → Reader Unit
  | [], _ => failBefore .endOfString []
  | _ :: fuel, s =>
    match s with
    | [] => failBefore .endOfString []
    | '"' :: r => .ok ((), r)
    | '\\' :: [] => failBefore .endOfString []
    | '\\' :: 'u' :: r => do
      let (_, r) ← readHexUnit r
      passString fuel r
    | '\\' :: c :: r =>
      if ['"', '\\', '/', 'b', 'f', 'n', 'r', 't'].contains c then passString fuel r
      else failAt .invalidEscape (c :: r)
    | c :: r => if c.toNat < 0x20 then failBefore .controlCharacter (c :: r) else passString fuel r

def passExponent (s : List Char) : Except Failure (Unit × List Char) :=
  let s := match s with
    | '+' :: r | '-' :: r => r
    | r => r
  if startsWithDigit s then .ok ((), s.dropWhile isAsciiDigit) else failAt .invalidNumber s

def passFraction (s : List Char) : Except Failure (Unit × List Char) :=
  match s with
  | '.' :: r =>
    if startsWithDigit r then
      match r.dropWhile isAsciiDigit with
      | 'e' :: t | 'E' :: t => passExponent t
      | t => .ok ((), t)
    else failAt .invalidNumber r
  | 'e' :: r | 'E' :: r => passExponent r
  | r => .ok ((), r)

def passNumber (s : List Char) : Except Failure (Unit × List Char) :=
  match s with
  | '0' :: r => if startsWithDigit r then failAt .invalidNumber r else passFraction r
  | r =>
    if startsWithDigit r then passFraction (r.dropWhile isAsciiDigit)
    else failAt .invalidNumber r

def passScalar : Reader Unit
  | [] => failAt .endOfValue []
  | 'n' :: s => readLetters ['u', 'l', 'l'] s
  | 't' :: s => readLetters ['r', 'u', 'e'] s
  | 'f' :: s => readLetters ['a', 'l', 's', 'e'] s
  | '-' :: s => passNumber s
  | '"' :: s => passString s s
  | c :: s => if isAsciiDigit c then passNumber (c :: s) else failAt .expectedValue (c :: s)

def passField (item : Reader Unit) : Reader Unit := fun s =>
  match skip s with
  | '"' :: r => do
    let (_, r) ← passString r r
    let (_, r) ← readColon r
    item r
  | [] => failAt .endOfObject []
  | r => failAt .keyNotString r

/-- Further parts and the closing bracket `close`. Each takes a comma, so the text is `fuel`
enough. -/
def passMore (item : Reader Unit) (close : Char) (atEnd atOther : Defect) :
    (fuel : List Char) → Reader Unit
  | [], s => failAt atEnd s
  | _ :: fuel, s =>
    match skip s with
    | [] => failAt atEnd []
    | c :: r =>
      if c = close then .ok ((), r)
      else if c = ',' then do
        let (_, r) ← item r
        passMore item close atEnd atOther fuel r
      else failAt atOther (c :: r)

def passParts (item : Reader Unit) (close : Char) (atEnd atOther : Defect) : Reader Unit := fun s =>
  match skip s with
  | [] => failAt atEnd []
  | c :: r =>
    if c = close then .ok ((), r)
    else do
      let (_, r) ← item (c :: r)
      passMore item close atEnd atOther r r

/-- A value. Each level of arrays and objects takes a bracket, so the text is `depth` enough. -/
def passValue : (depth : List Char) → Reader Unit
  | [], s => passScalar (skip s)
  | _ :: depth, s =>
    match skip s with
    | '[' :: r => passParts (passValue depth) ']' .endOfArray .expectedArrayCommaOrEnd r
    | '{' :: r =>
      passParts (passField (passValue depth)) '}' .endOfObject .expectedObjectCommaOrEnd r
    | r => passScalar r

def pass : Reader Unit := fun s => passValue s s

end BuildLog.Json
