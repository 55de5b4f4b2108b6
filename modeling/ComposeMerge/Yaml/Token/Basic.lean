import ComposeMerge.Yaml.Cursor

/-!
# Tokens

The tokens of a YAML document. Tokens for the start and the end of block collections follow from
the indentation; a `key` token stands before a simple key that turned out to be one.
-/

namespace ComposeMerge
namespace Yaml

/-- A token of a document. -/
inductive Token where
  | versionDirective (major minor : Nat)
  | tagDirective (handle start : String)
  | documentStart
  | documentEnd
  | blockSequenceStart
  | blockMappingStart
  | blockEnd
  | flowSequenceStart
  | flowSequenceEnd
  | flowMappingStart
  | flowMappingEnd
  | blockEntry
  | flowEntry
  | key
  | value
  | alias (name : String)
  | anchor (name : String)
  | tag (handle suffix : String)
  /-- The text of a scalar; a plain one is written without quotes or block indicator. -/
  | scalar (text : String) (isPlain : Bool)
  deriving DecidableEq

/-- Text that is being gathered, in reverse. -/
abbrev Gathered := List Char

/-- The text that was gathered. -/
def Gathered.text (g : Gathered) : String := String.ofList g.reverse

end Yaml
end ComposeMerge
