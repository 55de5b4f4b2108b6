import ComposeMerge.Decimal.Format
import ComposeMerge.Yaml.Node

/-!
# Types of scalars

What a scalar stands for. A plain scalar without a tag is null, a truth value, a number or a text,
by the way it is written; a tag of the core types asks for its type.

* `integer?` reads decimal, hexadecimal, octal and binary integers;
* `float?` reads decimal fractions, the infinities and NaN;
* `plainNode` and `scalarNode` give the node of a scalar, or nothing when its type does not fit or
  when it is an integer of more than 64 bits.
-/

namespace ComposeMerge
namespace Yaml
namespace Resolution

/-- Whether a text is a digit 0 followed by more digits, with or without a sign. -/
def hasLeadingZero (s : List Char) : Bool :=
  let digits := match s with
    | '+' :: r | '-' :: r => r
    | r => r
  match digits with
  | '0' :: d :: r => (d :: r).all Char.isDigit
  | _ => false

/-- Whether a text stands for null. -/
def isNull (s : String) : Bool := ["null", "Null", "NULL", "~"].contains s

/-- The truth value that a text stands for. -/
def bool? (s : String) : Option Bool :=
  if ["true", "True", "TRUE"].contains s then some true
  else if ["false", "False", "FALSE"].contains s then some false
  else none

/-- The value of a digit in some base. -/
def digitValue? (base : Nat) (c : Char) : Option Nat :=
  let value :=
    if c.isDigit then c.toNat - 48
    else if 'a' ≤ c && c ≤ 'f' then c.toNat - 87
    else if 'A' ≤ c && c ≤ 'F' then c.toNat - 55
    else 16
  if value < base then some value else none

/-- The value of a run of at least one digit. -/
def number? (base : Nat) (s : List Char) : Option Nat :=
  if s.isEmpty then none
  else s.foldlM (fun n c => (digitValue? base c).map fun d => n * base + d) 0

/-- The absolute value of an integer, written with a sign for its base or in decimal digits. -/
def magnitude? (isDecimal : Bool) : List Char → Option Nat
  | '0' :: 'x' :: s => number? 16 s
  | '0' :: 'o' :: s => number? 8 s
  | '0' :: 'b' :: s => number? 2 s
  | s => if isDecimal then number? 10 s else none

/-- The integer that a text stands for, of any size. -/
def integer? (s : List Char) : Option Int :=
  let isDecimal := !hasLeadingZero s
  match s with
  | '-' :: r => (magnitude? isDecimal r).map fun n => -(n : Int)
  | '+' :: r => (magnitude? isDecimal r).map Int.ofNat
  | r => (magnitude? isDecimal r).map Int.ofNat

/-- How an integer can be held. -/
inductive Width where
  | word
  | double
  | wider
  deriving DecidableEq

/-- The width of an integer: 64 bits with or without a sign, twice as many, or more. -/
def width (n : Int) : Width :=
  if -(Nat.pow 2 63 : Int) ≤ n ∧ n < Nat.pow 2 64 then .word
  else if -(Nat.pow 2 127 : Int) ≤ n ∧ n < Nat.pow 2 128 then .double
  else .wider

/-- The floating point number that a text stands for. -/
def float? (s : List Char) : Option Double :=
  let unsigned := Text.dropPlus s
  let text := String.ofList s
  if s.head? = some '+' && (unsigned.head? = some '+' || unsigned.head? = some '-') then none
  else if [".inf", ".Inf", ".INF"].contains (String.ofList unsigned) then
    some (Double.infinity false)
  else if ["-.inf", "-.Inf", "-.INF"].contains text then some (Double.infinity true)
  else if [".nan", ".NaN", ".NAN"].contains text then some Double.nan
  else (Double.parse? unsigned).filter Double.isFinite

/-- The number or the text that a plain scalar stands for. -/
def numberOrText (s : String) : Node :=
  if hasLeadingZero s.toList then .text s
  else match float? s.toList with
    | some x => .float x
    | none => .text s

/-- The node of a plain scalar. -/
def plainNode (s : String) : Option Node :=
  if s.isEmpty || isNull s then some .null
  else match bool? s, integer? s.toList with
    | some b, _ => some (.bool b)
    | none, some n =>
      match width n with
      | .word => some (.integer n)
      | .double => none
      | .wider => some (numberOrText s)
    | none, none => some (numberOrText s)

/-- The start of the tags of the core types. -/
def coreTag (name : String) : String := "tag:yaml.org,2002:" ++ name

/-- The node of a scalar under a tag that is not local. -/
def taggedNode (tag s : String) : Option Node :=
  if tag = coreTag "bool" then (bool? s).map .bool
  else if tag = coreTag "int" then
    ((integer? s.toList).filter fun n => width n = .word).map .integer
  else if tag = coreTag "float" then (float? s.toList).map .float
  else if tag = coreTag "null" then if isNull s then some .null else none
  else some (.text s)

/-- The node of a scalar. -/
def scalarNode (tag : Option String) (isPlain : Bool) (s : String) : Option Node :=
  match tag with
  | some tag => taggedNode tag s
  | none => if isPlain then plainNode s else some (.text s)

/-- The name of a tag of the document's own; the mark before it is dropped. -/
def localTag? (tag : Option String) : Option String :=
  tag.bind fun t =>
    match t.toList with
    | ['!'] => some "!"
    | '!' :: name => some (String.ofList name)
    | _ => none

end Resolution
end Yaml
end ComposeMerge
