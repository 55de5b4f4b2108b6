import ComposeMerge.Decimal.Double

/-!
# Shortest decimals

The decimal with the fewest digits that reads back as a given double; of several the one nearest
to the double, and of two equally near the greater.

* `Rounds` is the interval of numbers that read back as the double;
* `candidate` looks for a number of `n` digits in it: one of the two neighbours of the double
  among them;
* `shortest` takes the least `n` that has one.
-/

namespace ComposeMerge

/-- The positive number `0.d₁d₂… · 10 ^ point`; the first digit is not zero. -/
structure Decimal where
  digits : List Char
  point : Int
  deriving DecidableEq

namespace Decimal

/-- The numbers that read back as a double, over one denominator: those between `low / den` and
`high / den`, with the ends when `closed`. The double itself is `value / den`. -/
structure Rounds where
  low : Nat
  value : Nat
  high : Nat
  den : Nat
  closed : Bool

/-- The numbers that read back as a positive finite double: up to half way to its neighbours. The
neighbour below a power of two is half as far. -/
def Rounds.of (x : Double) : Rounds :=
  let m := x.significand
  let q := x.scale - 2
  let up := Nat.pow 2 q.toNat
  let below := if m = Nat.pow 2 52 ∧ 1 < x.exponentField then 1 else 2
  { low := (4 * m - below) * up
    value := 4 * m * up
    high := (4 * m + 2) * up
    den := Nat.pow 2 (-q).toNat
    closed := m % 2 = 0 }

/-- Whether `d · step / den` reads back as the double, everything scaled by `factor`. -/
def Rounds.admits (r : Rounds) (factor step d : Nat) : Bool :=
  let x := d * step
  if r.closed then r.low * factor ≤ x && x ≤ r.high * factor
  else r.low * factor < x && x < r.high * factor

/-- The `p` for which the value lies from `10 ^ (p - 1)` on and below `10 ^ p`. -/
def Rounds.point (r : Rounds) : Int :=
  if r.den ≤ r.value then Double.digitCount (r.value / r.den)
  else 1 - (Double.digitCount ((r.den + r.value - 1) / r.value - 1) : Int)

/-- The better of the two `n`-digit neighbours of the value, as a multiple of `10 ^ (p - n)`. -/
def Rounds.candidate (r : Rounds) (n : Nat) : Option Nat :=
  let e := r.point - n
  let factor := Nat.pow 10 (-e).toNat
  let step := r.den * Nat.pow 10 e.toNat
  let v := r.value * factor
  let d := v / step
  let lower := r.admits factor step d
  let upper := r.admits factor step (d + 1)
  if lower && upper then some (if (d + 1) * step - v ≤ v - d * step then d + 1 else d)
  else if upper then some (d + 1)
  else if lower then some d
  else none

/-- The decimal `d · 10 ^ e` without zeros at the end of its digits. -/
def ofScaled (d : Nat) (e : Int) : Decimal :=
  let digits := Nat.toDigits 10 d
  { digits := (digits.reverse.dropWhile (· = '0')).reverse
    point := e + digits.length }

/-- The shortest decimal that reads back as a positive finite double. -/
def shortest (x : Double) : Decimal :=
  let r := Rounds.of x
  let found := (List.range 17).findSome? fun k => (r.candidate (k + 1)).map fun d => (k + 1, d)
  match found with
  | some (n, d) => ofScaled d (r.point - n)
  | none => ofScaled (r.value / r.den) 0

end Decimal
end ComposeMerge
