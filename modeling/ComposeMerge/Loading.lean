import ComposeMerge.Manifest
import ComposeMerge.Yaml.Reading

/-!
# Loading manifests

The manifest that some bytes hold, as a YAML document.
-/

namespace ComposeMerge

/-- The raw value of the document that some bytes hold. -/
def loadValue (bytes : Bytes) : Except Error Value :=
  match Yaml.read bytes with
  | some node => (Value.ofNode node).mapError .format
  | none => .error .yaml

/-- The text of the version that a document declares with a number. -/
def versionText (bytes : Bytes) : Except Error String :=
  match Yaml.readEntryText Manifest.versionKey bytes with
  | some text => .ok text
  | none => .error .yaml

/-- The manifest that some bytes hold. -/
def Manifest.load (bytes : Bytes) : Except Error Manifest := do
  let document ← loadValue bytes
  Manifest.ofTree (versionText bytes) document

end ComposeMerge
