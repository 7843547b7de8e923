namespace BuildLog

structure Double where
  bits : UInt64
deriving DecidableEq, Inhabited

namespace Double

def isNegative (x : Double) : Bool := 63 ≤ x.bits.toNat.log2

def exponentField (x : Double) : Nat := x.bits.toNat / Nat.pow 2 52 % Nat.pow 2 11

def fractionField (x : Double) : Nat := x.bits.toNat % Nat.pow 2 52

/-- The integer `m` of the value `m * 2 ^ q`, without its sign. -/
def significand (x : Double) : Nat :=
  if x.exponentField = 0 then x.fractionField else x.fractionField + Nat.pow 2 52

/-- The exponent `q` of the value `m * 2 ^ q`. -/
def exponent (x : Double) : Int := max x.exponentField 1 - 1075

def negate (x : Double) : Double := ⟨x.bits ^^^ ((1 : UInt64) <<< 63)⟩

def zero : Double := ⟨0⟩

def ofFloat (x : Float) : Double := ⟨x.toBits⟩

def powerOfTen (e : Nat) : Float := Float.ofScientific 1 false e

/-- Divides by a power of ten, in steps of 308 at most, until nothing is left. -/
def divideByPower (x : Float) (e : Nat) : Float :=
  if e ≤ 308 then x / powerOfTen e
  else if x == 0 then x
  else divideByPower (x / powerOfTen 308) (e - 308)
termination_by e
decreasing_by omega

/-- The integer `n`, of at most 64 bits, scaled by a power of ten: each of the two and then the
product or quotient is rounded to a double. There is no answer for a product that is too large. -/
def ofDecimal? (n : Nat) (e : Int) : Option Double :=
  let x := (UInt64.ofNat n).toFloat
  if e < 0 then some (ofFloat (divideByPower x e.natAbs))
  else if 308 < e then if n = 0 then some zero else none
  else
    let y := x * powerOfTen e.natAbs
    if y.isInf then none else some (ofFloat y)

/-- Whether `m * 10 ^ e` rounds to no double: it is at least halfway from the largest one to
`2 ^ 1024`, which has 309 digits. -/
def overflows (m : Nat) (e : Int) : Bool :=
  let digits := (Nat.toDigits 10 m).length + e
  m ≠ 0 && (309 < digits ||
    (digits = 309 && (Nat.pow 2 1024 - Nat.pow 2 970) * Nat.pow 10 (-e).toNat ≤
      m * Nat.pow 10 e.toNat))

end Double
end BuildLog
