import ComposeMerge.Decimal.Double

/-!
# Document trees

What a YAML document says, before its keys are turned into strings: scalars of the core types,
sequences, mappings with keys of any kind, and nodes under a tag of the document's own.
-/

namespace ComposeMerge
namespace Yaml

/-- A node of a document tree. -/
inductive Node where
  | null
  | bool (b : Bool)
  | integer (n : Int)
  | float (x : Double)
  | text (s : String)
  | sequence (items : List Node)
  | mapping (entries : List (Node × Node))
  | tagged (tag : String) (node : Node)

end Yaml
end ComposeMerge
