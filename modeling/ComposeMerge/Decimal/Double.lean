/-!
# Binary64 numbers

The floating point numbers of IEEE 754 binary64, held as their 64 bits and computed with in exact
integer arithmetic.

* `ofRatio` rounds a ratio of natural numbers to the nearest double, a tie going to the even one;
* `ofDecimal` does so for `mantissa · 10 ^ exponent`;
* `equal` is numerical equality: no NaN equals anything, and both zeros are equal.
-/

namespace ComposeMerge

/-- A binary64 number, given by its bits. -/
structure Double where
  bits : UInt64
  deriving DecidableEq

namespace Double

/-- The sign bit. -/
def isNegative (x : Double) : Bool := Nat.pow 2 63 ≤ x.bits.toNat

/-- The bits below the sign, as a number. -/
def magnitude (x : Double) : Nat := x.bits.toNat % Nat.pow 2 63

/-- The magnitude of the infinities; every greater one belongs to a NaN. -/
def infinityMagnitude : Nat := 2047 * Nat.pow 2 52

/-- The double of a sign and a magnitude below `2 ^ 63`. -/
def ofMagnitude (negative : Bool) (magnitude : Nat) : Double :=
  ⟨UInt64.ofNat (if negative then Nat.pow 2 63 + magnitude else magnitude)⟩

/-- The infinity of a sign. -/
def infinity (negative : Bool) : Double := ofMagnitude negative infinityMagnitude

/-- The quiet NaN with a positive sign. -/
def nan : Double := ofMagnitude false (infinityMagnitude + Nat.pow 2 51)

def isNaN (x : Double) : Bool := infinityMagnitude < x.magnitude

def isInfinite (x : Double) : Bool := x.magnitude == infinityMagnitude

def isFinite (x : Double) : Bool := x.magnitude < infinityMagnitude

def isZero (x : Double) : Bool := x.magnitude == 0

/-- The exponent field. -/
def exponentField (x : Double) : Nat := x.magnitude / Nat.pow 2 52

/-- The integer `m` for which a finite double has the absolute value `m · 2 ^ scale`. -/
def significand (x : Double) : Nat :=
  if x.exponentField = 0 then x.magnitude else Nat.pow 2 52 + x.magnitude % Nat.pow 2 52

/-- The exponent that goes with `significand`. -/
def scale (x : Double) : Int :=
  if x.exponentField = 0 then -1074 else (x.exponentField : Int) - 1075

/-- Numerical equality. -/
def equal (x y : Double) : Bool :=
  !x.isNaN && !y.isNaN && (x.bits == y.bits || (x.isZero && y.isZero))

/-- The integer nearest to `num / den`; of two equally near ones, the even one. -/
def roundToEven (num den : Nat) : Nat :=
  let q := num / den
  let r := num % den
  if 2 * r < den then q
  else if den < 2 * r then q + 1
  else q + q % 2

/-- `num / (den · 2 ^ e)`, rounded to an integer. -/
def roundScaled (num den : Nat) (e : Int) : Nat :=
  roundToEven (num * Nat.pow 2 (-e).toNat) (den * Nat.pow 2 e.toNat)

/-- Whether `num / (den · 2 ^ e)` is below `2 ^ 52`. -/
def isBelowNormal (num den : Nat) (e : Int) : Bool :=
  num * Nat.pow 2 (-e).toNat < den * Nat.pow 2 e.toNat * Nat.pow 2 52

/-- The exponent at which the positive ratio `num / den` is rounded: the one that leaves 53 bits
before the point, and at least `-1074`. -/
def roundingScale (num den : Nat) : Int :=
  let e : Int := (num.log2 : Int) - den.log2 - 52
  max (-1074) (if isBelowNormal num den e then e - 1 else e)

/-- The double nearest to `num / den`, or an infinity when the ratio is out of range. -/
def ofRatio (negative : Bool) (num den : Nat) : Double :=
  if num = 0 then ofMagnitude negative 0
  else
    let e := roundingScale num den
    -- a significand of 2 ^ 53 carries over into the exponent field
    let magnitude := (e + 1074).toNat * Nat.pow 2 52 + roundScaled num den e
    ofMagnitude negative (min magnitude infinityMagnitude)

/-- The number of decimal digits of a natural number. -/
def digitCount (n : Nat) : Nat := (Nat.toDigits 10 n).length

/-- The double nearest to `mantissa · 10 ^ exponent`. Far out of range the answer is known without
the power: the greatest double is below `10 ^ 309`, and half the least one above `10 ^ (-324)`. -/
def ofDecimal (negative : Bool) (mantissa : Nat) (exponent : Int) : Double :=
  if mantissa = 0 then ofMagnitude negative 0
  else
    let point : Int := exponent + digitCount mantissa
    if 310 < point then infinity negative
    else if point < -330 then ofMagnitude negative 0
    else ofRatio negative (mantissa * Nat.pow 10 exponent.toNat) (Nat.pow 10 (-exponent).toNat)

end Double
end ComposeMerge
