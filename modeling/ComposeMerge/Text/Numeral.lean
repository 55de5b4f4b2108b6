import ComposeMerge.Text.Blank

/-!
# Decimal numerals

Whole numbers written with ASCII digits.

* `digitsValue` is the value of a run of digits;
* `natural?` reads a number below a limit, which may have a plus sign;
* `integer?` reads a 64-bit integer, which may have a sign.
-/

namespace ComposeMerge
namespace Text

/-- The value of a run of decimal digits. -/
def digitsValue (s : List Char) : Nat := s.foldl (fun n c => n * 10 + (c.toNat - '0'.toNat)) 0

/-- Whether a text is a run of at least one digit. -/
def isDigits (s : List Char) : Bool := !s.isEmpty && s.all Char.isDigit

/-- A text without a plus sign at its start. -/
def dropPlus (s : List Char) : List Char := (dropStart? ['+'] s).getD s

/-- The number below `limit` that a text stands for. -/
def natural? (limit : Nat) (s : List Char) : Option Nat :=
  let digits := dropPlus s
  if isDigits digits && digitsValue digits < limit then some (digitsValue digits) else none

/-- The 64-bit integer that a text stands for. -/
def integer? (s : List Char) : Option Int64 :=
  match dropStart? ['-'] s with
  | some digits =>
    if isDigits digits && digitsValue digits ≤ Nat.pow 2 63 then
      some (Int64.ofInt (-(digitsValue digits : Int)))
    else none
  | none => (natural? (Nat.pow 2 63) s).map Int64.ofNat

end Text
end ComposeMerge
