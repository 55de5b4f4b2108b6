import ComposeMerge.Size
import ComposeMerge.Value
import ComposeMerge.Words

/-!
# Mismatches

Why a raw value does not have the shape of a typed setting, and how a message says so.

* `Found` is what the value turned out to be, `Expected` what the setting wants;
* `Mismatch` is the whole reason.
-/

namespace ComposeMerge

/-- What a raw value turned out to be. -/
inductive Found where
  | nothing
  | bool (b : Bool)
  | integer (n : Int64)
  | float (x : Double)
  | text (s : String)
  | sequence
  | mapping
  deriving DecidableEq

/-- The words for what was found. -/
def Found.describe : Found → String
  | .nothing => "unit value"
  | .bool b => s!"boolean `{boolText b}`"
  | .integer n => s!"integer `{integerText n}`"
  | .float x => s!"floating point `{DecimalStyle.described.render x}`"
  | .text s => s!"string {Text.quoted s}"
  | .sequence => "sequence"
  | .mapping => "map"

/-- What a message finds in a value. -/
def Value.found : Value → Found
  | .scalar .null => .nothing
  | .scalar (.bool b) => .bool b
  | .scalar (.int n) => .integer n
  | .scalar (.float x) => .float x
  | .scalar (.text s) => .text s
  | .sequence _ => .sequence
  | .mapping _ => .mapping

/-- What a setting wants. -/
inductive Expected where
  | string
  | boolean
  | sequence
  | mapping
  | scalarText
  | record (name : String)
  deriving DecidableEq

/-- The words for what is wanted. -/
def Expected.describe : Expected → String
  | .string => "a string"
  | .boolean => "a boolean"
  | .sequence => "a sequence"
  | .mapping => "a map"
  | .scalarText => "a string, number, or boolean"
  | .record name => s!"struct {name}"

/-- Settings with several spellings; a value that fits none of them is reported by this name. -/
inductive Choice where
  | stringOrList
  | mapOrList
  | intOrString
  | dependencies
  | build
  | networks
  | ulimit
  | external
  deriving DecidableEq

/-- The name of a choice in messages. -/
def Choice.name : Choice → String
  | .stringOrList => "StringOrList"
  | .mapOrList => "MapOrList"
  | .intOrString => "IntOrString"
  | .dependencies => "Repr"
  | .build => "BuildRepr"
  | .networks => "ServiceNetworksRepr"
  | .ulimit => "UlimitRepr"
  | .external => "ExternalRepr"

/-- The number of elements, in words. -/
def elementCount (n : Nat) : String := if n = 1 then "1 element" else s!"{n} elements"

/-- Why a raw value does not have the shape of a setting. -/
inductive Mismatch where
  | wrongType (found : Found) (expected : Expected)
  | noVariant (choice : Choice)
  | missingField (name : String)
  /-- A record written as a sequence lacks elements. -/
  | tooShort (length : Nat) (record : String) (wanted : Nat)
  /-- A record written as a sequence has elements left over. -/
  | tooLong (length wanted : Nat)
  | notInteger (text : String)
  | size (fault : SizeFault)
  | words (fault : WordsFault)
  /-- A list of strings is a value of another kind, or holds one. -/
  | notTextList (kind : String)
  deriving DecidableEq

/-- The words of a mismatch. -/
def Mismatch.message : Mismatch → String
  | .wrongType found expected => s!"invalid type: {found.describe}, expected {expected.describe}"
  | .noVariant choice => s!"data did not match any variant of untagged enum {choice.name}"
  | .missingField name => s!"missing field `{name}`"
  | .tooShort length record wanted =>
    s!"invalid length {length}, expected struct {record} with {elementCount wanted}"
  | .tooLong length wanted =>
    s!"invalid length {length}, expected {elementCount wanted} in sequence"
  | .notInteger text => s!"expected an integer, got \"{text}\""
  | .size fault => fault.message
  | .words fault => fault.message
  | .notTextList kind => s!"expected a string or a list of strings, got {kind}"

end ComposeMerge
