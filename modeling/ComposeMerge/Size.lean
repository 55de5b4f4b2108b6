import ComposeMerge.Text.Numeral

/-!
# Byte sizes

A size in bytes as people write it: digits and a unit, such as `512m` or `1gb`.

* `parse` reads one; upper and lower case are alike, and white space may stand around both parts;
* a size that does not fit in 63 bits is refused, never reduced.
-/

namespace ComposeMerge

/-- Why a text is no size. -/
inductive SizeFault where
  | number (input : String)
  | unit (name input : String)
  | tooLarge (input : String)
  deriving DecidableEq

/-- The words of a fault. -/
def SizeFault.message : SizeFault → String
  | .number input => s!"invalid size \"{input}\""
  | .unit name input => s!"invalid size unit \"{name}\" in \"{input}\""
  | .tooLarge input => s!"size \"{input}\" is too large"

namespace Size

/-- One more than the greatest size. -/
def limit : Nat := Nat.pow 2 63

/-- The number of bytes in a unit. -/
def unit? (s : List Char) : Option Nat :=
  if s = [] ∨ s = ['b'] then some 1
  else if s = ['k'] ∨ s = ['k', 'b'] then some (Nat.pow 2 10)
  else if s = ['m'] ∨ s = ['m', 'b'] then some (Nat.pow 2 20)
  else if s = ['g'] ∨ s = ['g', 'b'] then some (Nat.pow 2 30)
  else none

/-- Reads a size. -/
def parse (input : String) : Except SizeFault Int64 :=
  let text := (Text.trim input.toList).map Char.toLower
  let digits := text.takeWhile Char.isDigit
  let unit := Text.trim (text.dropWhile Char.isDigit)
  if digits.isEmpty || limit ≤ Text.digitsValue digits then .error (.number input)
  else match unit? unit with
    | none => .error (.unit (String.ofList unit) input)
    | some bytes =>
      let size := Text.digitsValue digits * bytes
      if size < limit then .ok (Int64.ofNat size) else .error (.tooLarge input)

end Size
end ComposeMerge
