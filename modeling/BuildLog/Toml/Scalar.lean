import BuildLog.Timestamp
import BuildLog.Toml.Basic
import BuildLog.Toml.Token

namespace BuildLog.Toml
open Text

/-- The digits of a number, without the underscores that may stand between two digits. -/
def digits? (isDigit : Char → Bool) : List Char → Option (List Char)
  | [] => none
  | [c] => if isDigit c then some [c] else none
  | c :: '_' :: r => if isDigit c then (digits? isDigit r).map (c :: ·) else none
  | c :: r => if isDigit c then (digits? isDigit r).map (c :: ·) else none

def sign : List Char → Bool × List Char
  | '-' :: r => (true, r)
  | '+' :: r => (false, r)
  | r => (false, r)

/-- The value of an integer's decimal digits. A zero in front of other digits is no digit. -/
def decimal? (s : List Char) : Option Nat :=
  match digits? isAsciiDigit s with
  | some ('0' :: _ :: _) => none
  | some ds => some (decimalValue ds)
  | none => none

def isHexDigit (c : Char) : Bool := (Json.hexValue? c).isSome

def based (base : Nat) (ds : List Char) : Nat :=
  ds.foldl (fun n c => base * n + (Json.hexValue? c).getD 0) 0

def integer? (s : List Char) : Option Int :=
  match s with
  | '0' :: 'x' :: r => (digits? isHexDigit r).map fun ds => (based 16 ds : Int)
  | '0' :: 'o' :: r => (digits? (fun c => '0' ≤ c && c ≤ '7') r).map fun ds => (based 8 ds : Int)
  | '0' :: 'b' :: r => (digits? (fun c => c = '0' || c = '1') r).map fun ds => (based 2 ds : Int)
  | _ =>
    let (negative, r) := sign s
    (decimal? r).map fun n => if negative then -(n : Int) else n

def exponent? (s : List Char) : Option Int :=
  let (negative, r) := sign s
  (digits? isAsciiDigit r).map fun ds =>
    if negative then -(decimalValue ds : Int) else decimalValue ds

def exponentOrEnd? : List Char → Option Int
  | [] => some 0
  | c :: r => if c = 'e' || c = 'E' then exponent? r else none

def isNumeral (c : Char) : Bool := isAsciiDigit c || c = '_'

/-- The integer `m` and the exponent `e` of a float `m * 10 ^ e`, without its sign. It has a
fraction or an exponent. -/
def scientific? (s : List Char) : Option (Nat × Int) :=
  let whole := s.takeWhile isNumeral
  match decimal? whole, s.drop whole.length with
  | some n, '.' :: t =>
    let part := t.takeWhile isNumeral
    match digits? isAsciiDigit part, exponentOrEnd? (t.drop part.length) with
    | some ds, some e => some (n * Nat.pow 10 ds.length + decimalValue ds, e - ds.length)
    | _, _ => none
  | some n, c :: t => (exponentOrEnd? (c :: t)).map (n, ·)
  | _, _ => none

def isFloat (s : List Char) : Bool :=
  let r := (sign s).2
  r = ['i', 'n', 'f'] || r = ['n', 'a', 'n'] || (scientific? r).isSome

def fixedDigits? (n : Nat) (s : List Char) : Option (Nat × List Char) :=
  let ds := s.take n
  if ds.length = n && ds.all isAsciiDigit then some (decimalValue ds, s.drop n) else none

def date? (s : List Char) : Option (List Char) := do
  let (year, s) ← fixedDigits? 4 s
  let (month, s) ← fixedDigits? 2 (← after? ['-'] s)
  let (day, s) ← fixedDigits? 2 (← after? ['-'] s)
  let length ← if month = 0 then none else (Timestamp.monthLengths year)[month - 1]?
  if 1 ≤ day && day ≤ length then some s else none

def secondFraction? (s : List Char) : Option (List Char) :=
  match s with
  | '.' :: r => if Json.startsWithDigit r then some (r.dropWhile isAsciiDigit) else none
  | r => some r

/-- What follows a time of day in front of the text. The seconds may be left out. -/
def time? (s : List Char) : Option (List Char) := do
  let (hour, s) ← fixedDigits? 2 s
  let (minute, s) ← fixedDigits? 2 (← after? [':'] s)
  if 24 ≤ hour || 60 ≤ minute then none
  else
    match s with
    | ':' :: r => do
      let (second, r) ← fixedDigits? 2 r
      if 60 < second then none else secondFraction? r
    | r => some r

def isOffset : List Char → Bool
  | [] => true
  | ['Z'] => true
  | ['z'] => true
  | c :: r =>
    (c = '+' || c = '-') &&
      match fixedDigits? 2 r with
      | some (hour, ':' :: t) =>
        match fixedDigits? 2 t with
        | some (minute, []) => hour < 24 && minute < 60
        | _ => false
      | _ => false

def isDatetime (s : List Char) : Bool :=
  match date? s with
  | some [] => true
  | some (c :: r) =>
    (c = 'T' || c = 't' || c = ' ') &&
      match time? r with
      | some t => isOffset t
      | none => false
  | none => time? s == some []

def isBareChar (c : Char) : Bool := isKeyChar c || c = '+' || c = '.' || c = ':'

/-- The characters of a value without quotes. A space may stand between a date and a time. -/
def bareToken (s : List Char) : List Char × List Char :=
  let token := s.takeWhile isBareChar
  let rest := s.drop token.length
  match rest with
  | ' ' :: c :: r =>
    if date? token == some [] && isAsciiDigit c then
      let more := (c :: r).takeWhile isBareChar
      (token ++ ' ' :: more, (c :: r).drop more.length)
    else (token, rest)
  | _ => (token, rest)

def ofBare? (s : List Char) : Option Toml :=
  if s = ['t', 'r', 'u', 'e'] then some (.boolean true)
  else if s = ['f', 'a', 'l', 's', 'e'] then some (.boolean false)
  else
    match integer? s with
    | some n => some (.integer n)
    | none =>
      if isFloat s then some (.float (String.ofList s))
      else if isDatetime s then some (.datetime (String.ofList s))
      else none

def readScalar : Reader Toml
  | [] => none
  | c :: r =>
    if c = '"' || c = '\'' then (readQuoted (c :: r)).map fun x => (.string x.1, x.2)
    else
      let (token, rest) := bareToken (c :: r)
      (ofBare? token).map (·, rest)

end BuildLog.Toml
