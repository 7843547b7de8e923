namespace BuildLog.Text.Utf8

/-- A character begun: how many bytes it still owes, the bounds of the next of them, and the value
of the bits read. -/
structure Pending where
  owed : Nat
  low : UInt8
  high : UInt8
  value : Nat
deriving DecidableEq

/-- The character that the byte `b` begins, if it begins one of several bytes. -/
def lead? (b : UInt8) : Option Pending :=
  let n := b.toNat
  if 0xC2 ≤ n && n ≤ 0xDF then some ⟨1, 0x80, 0xBF, n - 0xC0⟩
  else if n = 0xE0 then some ⟨2, 0xA0, 0xBF, 0⟩
  else if n = 0xED then some ⟨2, 0x80, 0x9F, 13⟩
  else if 0xE1 ≤ n && n ≤ 0xEF then some ⟨2, 0x80, 0xBF, n - 0xE0⟩
  else if n = 0xF0 then some ⟨3, 0x90, 0xBF, 0⟩
  else if 0xF1 ≤ n && n ≤ 0xF3 then some ⟨3, 0x80, 0xBF, n - 0xF0⟩
  else if n = 0xF4 then some ⟨3, 0x80, 0x8F, 4⟩
  else none

/-- A byte between characters: the character or invalid part it makes, or the character that it
begins. -/
def start (b : UInt8) : List (Option Char) × Option Pending :=
  if b < 0x80 then ([some (Char.ofNat b.toNat)], none)
  else
    match lead? b with
    | some p => ([], some p)
    | none => ([none], none)

/-- One byte more. A byte that does not carry the character on ends an invalid part and is then
read as one between characters. -/
def step : Option Pending → UInt8 → List (Option Char) × Option Pending
  | none, b => start b
  | some p, b =>
    if p.low ≤ b && b ≤ p.high then
      let value := 64 * p.value + (b.toNat - 0x80)
      if p.owed ≤ 1 then ([some (Char.ofNat value)], none)
      else ([], some ⟨p.owed - 1, 0x80, 0xBF, value⟩)
    else
      let (out, q) := start b
      (none :: out, q)

/-- The characters, `none` for each maximal invalid part, of bytes that come after a character
begun. -/
def partsFrom : Option Pending → List UInt8 → List (Option Char)
  | none, [] => []
  | some _, [] => [none]
  | p, b :: bs =>
    let (out, q) := step p b
    out ++ partsFrom q bs

/-- The characters of the bytes, `none` for each maximal invalid part. -/
def parts (bytes : List UInt8) : List (Option Char) := partsFrom none bytes

def replacement : Char := Char.ofNat 0xFFFD

/-- The text of the bytes, with the replacement character for each maximal invalid part. -/
def decodeLossy (bytes : List UInt8) : List Char := (parts bytes).map (·.getD replacement)

def decode? (bytes : List UInt8) : Option (List Char) := (parts bytes).mapM id

end BuildLog.Text.Utf8
