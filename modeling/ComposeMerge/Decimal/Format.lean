import ComposeMerge.Decimal.Shortest
import ComposeMerge.Text.Numeral

/-!
# The texts of a floating point number

A number is written with its shortest digits. A `DecimalStyle` says what is left to decide: which
numbers are written out and which with an exponent, whether a whole number keeps a `.0`, and the
words for numbers that are not finite.

* `plain` is the text of a number as a value: never an exponent, `1` for one;
* `described` is its text in a message: `1.0`, written out;
* `exact` is its text in a dump of a value: `1.0`, `1e16`, `1e-5`;
* `key` is its text as a key of a mapping: `1.0`, `1e16`, `.inf`.

`parse?` reads the decimal spelling of a number.
-/

namespace ComposeMerge

/-- How numbers are written. `low` and `high` bound the position of the point, counted from the
first digit, for which a number is written without an exponent. -/
structure DecimalStyle where
  low : Option Int
  high : Option Int
  keepsPoint : Bool
  infinity : String
  nan : String

namespace DecimalStyle

/-- The value itself: written out, without `.0`. -/
def plain : DecimalStyle := ⟨none, none, false, "inf", "NaN"⟩

/-- A number in a message: written out, with `.0`. -/
def described : DecimalStyle := ⟨none, none, true, "inf", "NaN"⟩

/-- A number in a dump: written out from `0.0001` on and below `10 ^ 16`. -/
def exact : DecimalStyle := ⟨some (-3), some 16, true, "inf", "NaN"⟩

/-- A number as a key: written out from `0.00001` on and below `10 ^ 16`. -/
def key : DecimalStyle := ⟨some (-4), some 16, true, ".inf", ".nan"⟩

/-- Whether a decimal with its point there is written without an exponent. -/
def isPositional (style : DecimalStyle) (point : Int) : Bool :=
  style.low.all (· ≤ point) && style.high.all (point ≤ ·)

/-- The `.0` of a whole number. -/
def wholeEnd (style : DecimalStyle) : List Char := if style.keepsPoint then ['.', '0'] else []

/-- A decimal written out. -/
def positional (style : DecimalStyle) (d : Decimal) : List Char :=
  let p := d.point.toNat
  if d.point ≤ 0 then '0' :: '.' :: List.replicate (-d.point).toNat '0' ++ d.digits
  else if d.digits.length ≤ p then
    d.digits ++ List.replicate (p - d.digits.length) '0' ++ style.wholeEnd
  else d.digits.take p ++ '.' :: d.digits.drop p

/-- A decimal with one digit before the point and an exponent. -/
def scientific (d : Decimal) : List Char :=
  let fraction := d.digits.drop 1
  d.digits.take 1 ++ (if fraction.isEmpty then [] else '.' :: fraction) ++
    'e' :: (toString (d.point - 1)).toList

/-- The text of a finite number without its sign. -/
def magnitude (style : DecimalStyle) (x : Double) : List Char :=
  if x.isZero then '0' :: style.wholeEnd
  else
    let d := Decimal.shortest x
    if style.isPositional d.point then style.positional d else scientific d

/-- The text of a number. -/
def render (style : DecimalStyle) (x : Double) : String :=
  if x.isNaN then style.nan
  else
    let digits := if x.isInfinite then style.infinity.toList else style.magnitude x
    String.ofList (if x.isNegative then '-' :: digits else digits)

end DecimalStyle

namespace Double

/-- Splits a text after the decimal digits it starts with. -/
def spanDigits (s : List Char) : List Char × List Char :=
  (s.takeWhile Char.isDigit, s.dropWhile Char.isDigit)

/-- The exponent that a text from `e` on gives; no text gives zero. -/
def exponent? : List Char → Option Int
  | [] => some 0
  | e :: s =>
    if e = 'e' || e = 'E' then
      let (negative, digits) := match s with
        | '-' :: s => (true, s)
        | '+' :: s => (false, s)
        | s => (false, s)
      if Text.isDigits digits then
        some (if negative then -(Text.digitsValue digits : Int) else Text.digitsValue digits)
      else none
    else none

/-- A number without a sign: digits with an optional point among them, at least one of them, and
an optional exponent. -/
def unsigned? (negative : Bool) (s : List Char) : Option Double :=
  let (whole, rest) := spanDigits s
  let (fraction, rest) := match rest with
    | '.' :: rest => spanDigits rest
    | rest => ([], rest)
  if whole.isEmpty && fraction.isEmpty then none
  else (exponent? rest).map fun e =>
    ofDecimal negative (Text.digitsValue (whole ++ fraction)) (e - fraction.length)

/-- The number that a decimal spelling stands for; a spelling out of range stands for an
infinity. -/
def parse? : List Char → Option Double
  | '-' :: s => unsigned? true s
  | '+' :: s => unsigned? false s
  | s => unsigned? false s

end Double
end ComposeMerge
