import BuildLog.Json.Failure
import BuildLog.Text.DecimalDigit

namespace BuildLog.Json
open Text

abbrev Reader (α : Type) := List Char → Except Failure (α × List Char)

def byteCount (s : List Char) : Nat := s.foldr (fun c n => c.utf8Size + n) 0

/-- Fails at the next byte, which counts as read. -/
def failAt {α : Type} (d : Defect) (s : List Char) : Except Failure α :=
  .error (.defect d (byteCount s - 1))

def failBefore {α : Type} (d : Defect) (s : List Char) : Except Failure α :=
  .error (.defect d (byteCount s))

def mismatched {α : Type} (m : Mismatch) : Except Failure α := .error (.mismatch m)

def isSpace (c : Char) : Bool := c = ' ' || c = '\n' || c = '\t' || c = '\r'

def skip (s : List Char) : List Char := s.dropWhile isSpace

/-- The rest of a word whose first letter has been read. -/
def readLetters : List Char → Reader Unit
  | [], s => .ok ((), s)
  | _ :: _, [] => failBefore .endOfValue []
  | a :: w, c :: s => if a = c then readLetters w s else failAt .expectedWord (c :: s)

def hexValue? (c : Char) : Option Nat :=
  if isAsciiDigit c then some (c.toNat - 48)
  else if 'a' ≤ c && c ≤ 'f' then some (c.toNat - 87)
  else if 'A' ≤ c && c ≤ 'F' then some (c.toNat - 55)
  else none

/-- The number written by four hexadecimal digits. Four bytes are read, whatever they are. -/
def readHexUnit (s : List Char) : Except Failure (Nat × List Char) :=
  if byteCount (s.take 4) < 4 then failBefore .endOfString []
  else
    match (s.take 4).mapM hexValue? with
    | some ds => .ok (ds.foldl (fun n d => 16 * n + d) 0, s.drop 4)
    | none => .error (.defect .invalidEscape (byteCount s - 4))

/-- The character of a four-digit escape, or of two that are a surrogate pair. -/
def readUnit (s : List Char) : Except Failure (Char × List Char) := do
  let (n, s) ← readHexUnit s
  if 0xDC00 ≤ n && n ≤ 0xDFFF then failBefore .loneSurrogate s
  else if n < 0xD800 || 0xDBFF < n then return (Char.ofNat n, s)
  else
    match s with
    | [] => failBefore .endOfString []
    | '\\' :: [] => failBefore .endOfString []
    | '\\' :: 'u' :: r =>
      let (m, r) ← readHexUnit r
      if 0xDC00 ≤ m && m ≤ 0xDFFF then
        return (Char.ofNat (0x10000 + (n - 0xD800) * 0x400 + (m - 0xDC00)), r)
      else failBefore .loneSurrogate r
    | '\\' :: r => failAt .unfinishedSurrogate r
    | r => failAt .unfinishedSurrogate r

def readEscape : List Char → Except Failure (Char × List Char)
  | [] => failBefore .endOfString []
  | '"' :: s => .ok ('"', s)
  | '\\' :: s => .ok ('\\', s)
  | '/' :: s => .ok ('/', s)
  | 'b' :: s => .ok ('\x08', s)
  | 'f' :: s => .ok ('\x0c', s)
  | 'n' :: s => .ok ('\n', s)
  | 'r' :: s => .ok ('\r', s)
  | 't' :: s => .ok ('\t', s)
  | 'u' :: s => readUnit s
  | s => failAt .invalidEscape s

def readStringChars : (fuel : List Char) → Reader (List Char)
  | [], _ => failBefore .endOfString []
  | _ :: fuel, s =>
    match s with
    | [] => failBefore .endOfString []
    | '"' :: r => .ok ([], r)
    | '\\' :: r => do
      let (c, r) ← readEscape r
      let (cs, r) ← readStringChars fuel r
      return (c :: cs, r)
    | c :: r =>
      if c.toNat < 0x20 then failAt .controlCharacter (c :: r)
      else do
        let (cs, r) ← readStringChars fuel r
        return (c :: cs, r)

def readString (s : List Char) : Except Failure (String × List Char) := do
  let (cs, r) ← readStringChars s s
  return (String.ofList cs, r)

/-- Appends the decimal digits in front of the text to `n` while the result is at most `limit`.
Answers the result, how many digits it took, and what is left. -/
def gather (limit : Nat) : (n count : Nat) → List Char → Nat × Nat × List Char
  | n, count, [] => (n, count, [])
  | n, count, c :: s =>
    let m := 10 * n + (c.toNat - 48)
    if isAsciiDigit c && m ≤ limit then gather limit m (count + 1) s else (n, count, c :: s)

/-- The integer part and the fraction count as far as they fit 64 bits without the point. -/
def significandLimit : Nat := Nat.pow 2 64 - 1

/-- An exponent of more than 32 bits is as good as an infinite one. -/
def exponentLimit : Nat := Nat.pow 2 31 - 1

def startsWithDigit : List Char → Bool
  | c :: _ => isAsciiDigit c
  | [] => false

def readDecimal (negative : Bool) (n : Nat) (e : Int) (s : List Char) :
    Except Failure (Json × List Char) :=
  match Double.ofDecimal? n e with
  | some x => .ok (double (if negative then x.negate else x), s)
  | none => failBefore .numberOutOfRange s

def readExponent (negative : Bool) (n : Nat) (e : Int) (s : List Char) :
    Except Failure (Json × List Char) :=
  let (down, s) := match s with
    | '+' :: r => (false, r)
    | '-' :: r => (true, r)
    | r => (false, r)
  match s with
  | [] => failBefore .endOfValue []
  | c :: _ =>
    if !isAsciiDigit c then failAt .invalidNumber s
    else
      let (x, _, r) := gather exponentLimit 0 0 s
      if startsWithDigit r then
        if n ≠ 0 && !down then failAt .numberOutOfRange r
        else readDecimal negative 0 0 (r.dropWhile isAsciiDigit)
      else readDecimal negative n (if down then e - x else e + x) r

def readDecimalEnd (negative : Bool) (n : Nat) (e : Int) (s : List Char) :
    Except Failure (Json × List Char) :=
  match s with
  | 'e' :: r | 'E' :: r => readExponent negative n e r
  | _ => readDecimal negative n e s

/-- The fraction of a number, after the point, and its exponent. Digits that no longer fit are left
out. -/
def readFraction (negative : Bool) (n : Nat) (e : Int) (s : List Char) :
    Except Failure (Json × List Char) :=
  let (m, count, r) := gather significandLimit n 0 s
  if startsWithDigit r then readDecimalEnd negative m (e - count) (r.dropWhile isAsciiDigit)
  else if count ≠ 0 then readDecimalEnd negative m (e - count) r
  else if r.isEmpty then failBefore .endOfValue []
  else failAt .invalidNumber r

def readFractionOrEnd (negative : Bool) (n : Nat) (e : Int) (s : List Char) :
    Except Failure (Json × List Char) :=
  match s with
  | '.' :: r => readFraction negative n e r
  | _ => readDecimalEnd negative n e s

/-- An integer of 64 bits. Minus zero is no integer. -/
def integer? (negative : Bool) (n : Nat) : Option Int :=
  if !negative then some n
  else if 0 < n && n ≤ Nat.pow 2 63 then some (-n)
  else none

def readUnsigned (negative : Bool) (s : List Char) : Except Failure (Json × List Char) :=
  match s with
  | [] => failBefore .endOfValue []
  | c :: t =>
    if !isAsciiDigit c then failAt .invalidNumber s
    else if c = '0' && startsWithDigit t then failAt .invalidNumber t
    else
      let (n, _, r) := gather significandLimit 0 0 s
      if startsWithDigit r then
        let more := r.takeWhile isAsciiDigit
        readFractionOrEnd negative n more.length (r.drop more.length)
      else
        match r with
        | '.' :: _ | 'e' :: _ | 'E' :: _ => readFractionOrEnd negative n 0 r
        | _ =>
          match integer? negative n with
          | some i => .ok (int i, r)
          | none => readDecimal negative n 0 r

def readScalar : Reader Json
  | [] => failAt .endOfValue []
  | 'n' :: s => do let (_, r) ← readLetters ['u', 'l', 'l'] s; return (null, r)
  | 't' :: s => do let (_, r) ← readLetters ['r', 'u', 'e'] s; return (bool true, r)
  | 'f' :: s => do let (_, r) ← readLetters ['a', 'l', 's', 'e'] s; return (bool false, r)
  | '-' :: s => readUnsigned true s
  | '"' :: s => do let (t, r) ← readString s; return (string t, r)
  | c :: s => if isAsciiDigit c then readUnsigned false (c :: s) else failAt .expectedValue (c :: s)

end BuildLog.Json
