import BuildLog.Double.Shortest
import BuildLog.Json.Basic

namespace BuildLog.Json

def natText (n : Nat) : List Char := Nat.toDigits 10 n

def intText (n : Int) : List Char :=
  if n < 0 then '-' :: natText n.natAbs else natText n.natAbs

/-- The digits without trailing zeros, and how many were dropped. -/
def dropZeros (ds : List Char) : List Char × Nat :=
  let kept := (ds.reverse.dropWhile (· = '0')).reverse
  (kept, ds.length - kept.length)

/-- The digits `ds` times `10 ^ k`: positional if the leading digit's exponent is between -5 and 15,
and else with that exponent and its sign. A positional text has at least one digit on either side
of the point. -/
def decimalText (ds : List Char) (k : Int) : List Char :=
  let leading := k + ds.length - 1
  if -5 ≤ leading && leading ≤ 15 then
    if 0 ≤ k then ds ++ List.replicate k.toNat '0' ++ ['.', '0']
    else if 0 ≤ leading then
      let whole := (leading + 1).toNat
      ds.take whole ++ '.' :: ds.drop whole
    else '0' :: '.' :: List.replicate (-leading - 1).toNat '0' ++ ds
  else
    let mantissa := match ds with
      | [] => []
      | [d] => [d]
      | d :: r => d :: '.' :: r
    mantissa ++ 'e' :: (if leading < 0 then '-' else '+') :: natText leading.natAbs

/-- The shortest text that reads back as the number, with a fraction or an exponent. -/
def doubleText (x : Double) : List Char :=
  let (d, k) := x.shortest
  let text :=
    if d = 0 then ['0', '.', '0']
    else
      let (ds, dropped) := dropZeros (natText d)
      decimalText ds (k + dropped)
  if x.isNegative then '-' :: text else text

def escapedChar : Char → List Char
  | '"' => ['\\', '"']
  | '\\' => ['\\', '\\']
  | '\x08' => ['\\', 'b']
  | '\x0c' => ['\\', 'f']
  | '\n' => ['\\', 'n']
  | '\r' => ['\\', 'r']
  | '\t' => ['\\', 't']
  | c =>
    if c.toNat < 0x20 then
      ['\\', 'u', '0', '0', Nat.digitChar (c.toNat / 16), Nat.digitChar (c.toNat % 16)]
    else [c]

def stringText (s : String) : List Char := '"' :: s.toList.flatMap escapedChar ++ ['"']

def scalarText : Json → List Char
  | null => ['n', 'u', 'l', 'l']
  | bool true => ['t', 'r', 'u', 'e']
  | bool false => ['f', 'a', 'l', 's', 'e']
  | int n => intText n
  | double x => doubleText x
  | string s => stringText s
  | array _ => ['[', ']']
  | object _ => ['{', '}']

mutual
def compactText : Json → List Char
  | array [] => ['[', ']']
  | array (j :: js) => '[' :: compactText j ++ compactElements js
  | object [] => ['{', '}']
  | object (f :: fs) => '{' :: compactField f ++ compactFields fs
  | j => scalarText j

def compactElements : List Json → List Char
  | [] => [']']
  | j :: js => ',' :: compactText j ++ compactElements js

def compactField : String × Json → List Char
  | (name, j) => stringText name ++ ':' :: compactText j

def compactFields : List (String × Json) → List Char
  | [] => ['}']
  | f :: fs => ',' :: compactField f ++ compactFields fs
end

def newLine (level : Nat) : List Char := '\n' :: List.replicate (2 * level) ' '

mutual
def prettyText (level : Nat) : Json → List Char
  | array [] => ['[', ']']
  | array (j :: js) =>
    '[' :: newLine (level + 1) ++ prettyText (level + 1) j ++ prettyElements level js
  | object [] => ['{', '}']
  | object (f :: fs) =>
    '{' :: newLine (level + 1) ++ prettyField (level + 1) f ++ prettyFields level fs
  | j => scalarText j

def prettyElements (level : Nat) : List Json → List Char
  | [] => newLine level ++ [']']
  | j :: js => ',' :: newLine (level + 1) ++ prettyText (level + 1) j ++ prettyElements level js

def prettyField (level : Nat) : String × Json → List Char
  | (name, j) => stringText name ++ ':' :: ' ' :: prettyText level j

def prettyFields (level : Nat) : List (String × Json) → List Char
  | [] => newLine level ++ ['}']
  | f :: fs => ',' :: newLine (level + 1) ++ prettyField (level + 1) f ++ prettyFields level fs
end

def compact (j : Json) : String := String.ofList (compactText j)

def pretty (j : Json) : String := String.ofList (prettyText 0 j)

end BuildLog.Json
