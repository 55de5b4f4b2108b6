import ComposeMerge.Error
import ComposeMerge.Yaml.Node

/-!
# Values of document trees

* `Value.ofNode` turns a document tree into a raw value: keys become strings, tags are dropped,
  and integers above 63 bits become floating point numbers;
* `Value.toNode` turns a raw value into a document tree.

A key that is a sequence or a mapping is an error.
-/

namespace ComposeMerge

open Yaml (Node)

/-- The scalar of an integer: one that does not fit in 64 bits with a sign is rounded. -/
def Scalar.ofInteger (n : Int) : Scalar :=
  if -(Nat.pow 2 63 : Int) ≤ n ∧ n < Nat.pow 2 63 then .int (Int64.ofInt n)
  else .float (Double.ofRatio (n < 0) n.natAbs 1)

namespace Yaml.Node

/-- The string that a key is turned into. -/
def keyText : Node → Except FormatFault String
  | .null => .ok ""
  | .bool b => .ok (boolText b)
  | .integer n => .ok (toString n)
  | .float x => .ok (DecimalStyle.key.render x)
  | .text s => .ok s
  | .tagged _ node => keyText node
  | .sequence _ => .error .compoundKey
  | .mapping _ => .error .compoundKey

end Yaml.Node

namespace Value

mutual

/-- The raw value of a document tree. -/
def ofNode : Node → Except FormatFault Value
  | .null => .ok .null
  | .bool b => .ok (.scalar (.bool b))
  | .integer n => .ok (.scalar (.ofInteger n))
  | .float x => .ok (.scalar (.float x))
  | .text s => .ok (.string s)
  | .sequence items => (ofItems items).map .sequence
  | .mapping es => (ofEntries es).map fun pairs => .mapping (Entries.ofList pairs)
  | .tagged _ node => ofNode node

/-- The raw values of the items of a sequence. -/
def ofItems : List Node → Except FormatFault (List Value)
  | [] => .ok []
  | n :: ns => do
    let v ← ofNode n
    let vs ← ofItems ns
    .ok (v :: vs)

/-- The entries of a mapping with their keys as strings, in the order of the document. -/
def ofEntries : List (Node × Node) → Except FormatFault (List (String × Value))
  | [] => .ok []
  | (k, n) :: es => do
    let key ← k.keyText
    let v ← ofNode n
    let rest ← ofEntries es
    .ok ((key, v) :: rest)

end

/-- The document tree of a scalar. -/
def scalarNode : Scalar → Node
  | .null => .null
  | .bool b => .bool b
  | .int n => .integer n.toInt
  | .float x => .float x
  | .text s => .text s

mutual

/-- The document tree of a raw value. -/
def toNode : Value → Node
  | .scalar s => scalarNode s
  | .sequence items => .sequence (toItems items)
  | .mapping es => .mapping (toEntries es)

/-- The document trees of the items of a sequence. -/
def toItems : List Value → List Node
  | [] => []
  | v :: vs => toNode v :: toItems vs

/-- The document trees of the entries of a mapping. -/
def toEntries : List (String × Value) → List (Node × Node)
  | [] => []
  | (k, v) :: es => (.text k, toNode v) :: toEntries es

end

end Value
end ComposeMerge
