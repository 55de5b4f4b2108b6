import ComposeMerge.Entries
import ComposeMerge.Decimal.Format
import ComposeMerge.Text.Quoted

/-!
# Raw values

What a field of a manifest looks like before it is given a type: a scalar, a sequence, or a
mapping with string keys.

* `Scalar.text` is the text of a scalar, as a field that wants a string takes it;
* `Value.kindName` names the kind of a value in messages;
* `Value.dump` writes a value out in full for a message;
* `Value.same` is equality of content, with numbers compared as numbers;
* `Value.Canonical` says that the keys of every mapping are strictly increasing.
-/

namespace ComposeMerge

/-- A leaf value. -/
inductive Scalar where
  | null
  | bool (b : Bool)
  | int (n : Int64)
  | float (x : Double)
  | text (s : String)
  deriving DecidableEq

/-- An untyped nested value. -/
inductive Value where
  | scalar (s : Scalar)
  | sequence (items : List Value)
  | mapping (entries : List (String × Value))

/-- The raw fields of one service. -/
abbrev RawService := Entries Value

/-- Raw services by name. -/
abbrev RawServices := Entries RawService

/-- The decimal digits of a 64-bit integer. -/
def integerText (n : Int64) : String := toString n.toInt

/-- The text of a truth value. -/
def boolText (b : Bool) : String := if b then "true" else "false"

namespace Scalar

/-- The text of a scalar. -/
def asText : Scalar → String
  | .null => ""
  | .bool b => boolText b
  | .int n => integerText n
  | .float x => DecimalStyle.plain.render x
  | .text s => s

/-- The name of the kind of a scalar. -/
def kindName : Scalar → String
  | .null => "null"
  | .bool _ => "boolean"
  | .int _ | .float _ => "number"
  | .text _ => "string"

/-- A scalar written out with its kind. -/
def dump : Scalar → String
  | .null => "Null"
  | .bool b => s!"Bool({boolText b})"
  | .int n => s!"Int({integerText n})"
  | .float x => s!"Float({DecimalStyle.exact.render x})"
  | .text s => s!"String({Text.quoted s})"

/-- Equality of content. -/
def same : Scalar → Scalar → Bool
  | .float x, .float y => x.equal y
  | a, b => a = b

end Scalar

namespace Value

/-- The null value. -/
def null : Value := .scalar .null

/-- A string value. -/
def string (s : String) : Value := .scalar (.text s)

/-- The sequence of some strings. -/
def strings (l : List String) : Value := .sequence (l.map string)

def isNull : Value → Bool
  | .scalar .null => true
  | _ => false

/-- The string that a value is. -/
def asString? : Value → Option String
  | .scalar (.text s) => some s
  | _ => none

/-- The entries that a value has. -/
def asMapping? : Value → Option (Entries Value)
  | .mapping es => some es
  | _ => none

/-- The name of the kind of a value. -/
def kindName : Value → String
  | .scalar s => s.kindName
  | .sequence _ => "sequence"
  | .mapping _ => "mapping"

mutual

/-- A value written out with its kinds. -/
def dump : Value → String
  | .scalar s => s!"Scalar({s.dump})"
  | .sequence items => "Sequence([" ++ String.intercalate ", " (dumpItems items) ++ "])"
  | .mapping es => "Mapping(\x7b" ++ String.intercalate ", " (dumpEntries es) ++ "\x7d)"

/-- The items of a sequence written out. -/
def dumpItems : List Value → List String
  | [] => []
  | v :: vs => dump v :: dumpItems vs

/-- The entries of a mapping written out. -/
def dumpEntries : List (String × Value) → List String
  | [] => []
  | (k, v) :: es => (Text.quoted k ++ ": " ++ dump v) :: dumpEntries es

end

mutual

/-- Equality of content: like equality, but numbers are compared as numbers. -/
def same : Value → Value → Bool
  | .scalar a, .scalar b => a.same b
  | .sequence as, .sequence bs => sameItems as bs
  | .mapping as, .mapping bs => sameEntries as bs
  | _, _ => false

/-- Equality of content of two sequences. -/
def sameItems : List Value → List Value → Bool
  | [], [] => true
  | a :: as, b :: bs => same a b && sameItems as bs
  | _, _ => false

/-- Equality of content of two mappings. -/
def sameEntries : List (String × Value) → List (String × Value) → Bool
  | [], [] => true
  | (k, a) :: as, (l, b) :: bs => k = l && same a b && sameEntries as bs
  | _, _ => false

end

mutual

/-- The keys of every mapping inside a value are strictly increasing. -/
def Canonical : Value → Prop
  | .scalar _ => True
  | .sequence items => CanonicalItems items
  | .mapping es => Entries.Sorted es ∧ CanonicalEntries es

/-- Every item is canonical. -/
def CanonicalItems : List Value → Prop
  | [] => True
  | v :: vs => Canonical v ∧ CanonicalItems vs

/-- The value of every entry is canonical. -/
def CanonicalEntries : List (String × Value) → Prop
  | [] => True
  | (_, v) :: es => Canonical v ∧ CanonicalEntries es

end

end Value
end ComposeMerge
