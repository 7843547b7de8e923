import BuildLog.Double

namespace BuildLog.Double

/-- The reals that round to a double, as numerators over one denominator. Both bounds belong to
the interval if the significand is even. -/
structure Interval where
  low : Nat
  value : Nat
  high : Nat
  denominator : Nat
  closed : Bool

def interval (x : Double) : Interval :=
  let m := x.significand
  let below := if x.fractionField = 0 && 1 < x.exponentField then 1 else 2
  let up := Nat.pow 2 (x.exponent - 2).toNat
  let down := Nat.pow 2 (2 - x.exponent).toNat
  ⟨(4 * m - below) * up, 4 * m * up, (4 * m + 2) * up, down, m % 2 == 0⟩

def Interval.holds (i : Interval) (d : Nat) (k : Int) : Bool :=
  let point := d * Nat.pow 10 k.toNat * i.denominator
  let scale := Nat.pow 10 (-k).toNat
  if i.closed then i.low * scale ≤ point && point ≤ i.high * scale
  else i.low * scale < point && point < i.high * scale

/-- The multiple of `10 ^ k` in the interval that is nearest to its value, if there is one. Of two
that are equally near the even one is taken. -/
def Interval.nearest? (i : Interval) (k : Int) : Option Nat :=
  let num := i.value * Nat.pow 10 (-k).toNat
  let den := i.denominator * Nat.pow 10 k.toNat
  let d := num / den
  let rest := 2 * (num % den)
  let upFirst := den < rest || (rest == den && d % 2 == 1)
  match i.holds d k, i.holds (d + 1) k with
  | true, true => some (if upFirst then d + 1 else d)
  | true, false => some d
  | false, true => some (d + 1)
  | false, false => none

/-- The exponent of the leading digit of a positive value, which exceeds `10 ^ (-400)`. -/
def Interval.leading (i : Interval) : Int :=
  let digits := (Nat.toDigits 10 (i.value * Nat.pow 10 400 / i.denominator)).length
  (digits : Int) - 401

def Interval.shortestFrom (i : Interval) (leading : Int) (n : Nat) : Nat → Nat × Int
  | 0 => (0, 0)
  | fuel + 1 =>
    let k := leading + 1 - n
    match i.nearest? k with
    | some d => (d, k)
    | none => i.shortestFrom leading (n + 1) fuel

def maxDigits : Nat := 17

/-- Digits `d` and an exponent `k` such that `d * 10 ^ k` rounds to the double without its sign. -/
def shortest (x : Double) : Nat × Int :=
  if x.significand = 0 then (0, 0)
  else
    let i := x.interval
    i.shortestFrom i.leading 1 maxDigits

end BuildLog.Double
