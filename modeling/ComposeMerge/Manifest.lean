import ComposeMerge.Document
import ComposeMerge.Text.Numeral

/-!
# Manifests

One manifest, with its services still raw.

* `majorVersion` is the major part of a declared version, `Schema.ofMajor` the shape it stands for;
* `Manifest.ofTree` reads a whole document: below version 2 every top-level entry is a service,
  from version 2 on there are sections for services, volumes and networks.
-/

namespace ComposeMerge

/-- The shapes of manifests. -/
inductive Schema where
  /-- A flat list of services. -/
  | v1
  /-- Sections for services, volumes and networks. -/
  | v2
  /-- Declared, but not supported. -/
  | v3
  deriving DecidableEq

/-- The shape that a major version stands for. -/
def Schema.ofMajor (major : Nat) : Schema :=
  if major < 2 then .v1 else if major = 2 then .v2 else .v3

/-- The major version of a declared version: the number before the point, if there is one. The
empty version is version 1. -/
def majorVersion (version : String) : Except Error Nat :=
  let fault := Error.format (.version version)
  if version.isEmpty then .ok 1
  else match Text.splitOn '.' version.toList with
    | [major] | [major, _] => (Text.natural? (Nat.pow 2 32) major).elim (.error fault) .ok
    | _ => .error fault

/-- A manifest. -/
structure Manifest where
  /-- The version as declared. -/
  version : String
  services : RawServices
  volumes : Entries Value
  networks : Entries Value

namespace Manifest

/-- The shape of a manifest. -/
def schema (m : Manifest) : Except Error Schema := (majorVersion m.version).map Schema.ofMajor

/-- The fields of a service: a mapping, or null for none. -/
def serviceFields (name : String) : Value → Except Error RawService
  | .mapping es => .ok es
  | .scalar .null => .ok []
  | v => .error (.format (.serviceKind name v.kindName))

/-- The services of a list of definitions. -/
def serviceEntries (entries : Entries Value) : Except Error RawServices :=
  entries.traverse serviceFields

/-- The entries of a top-level section: a mapping, or null for none. -/
def sectionEntries (name : String) : Value → Except Error (Entries Value)
  | .mapping es => .ok es
  | .scalar .null => .ok []
  | v => .error (.format (.sectionKind name v.kindName))

/-- The entries of a top-level section, which may be missing. -/
def section? (root : Entries Value) (name : String) : Except Error (Entries Value) :=
  match root.get? name with
  | some v => sectionEntries name v
  | none => .ok []

/-- The top-level entries of a document: a mapping, or null for none. -/
def rootEntries : Value → Except Error (Entries Value)
  | .mapping es => .ok es
  | .scalar .null => .ok []
  | v => .error (.format (.document v.kindName))

/-- The name of the entry that declares the version. -/
def versionKey : String := "version"

/-- The version that a document declares. A number stands for its text in the document, which
`source` gives. -/
def declaredVersion (source : Except Error String) (root : Entries Value) : Except Error String :=
  match root.get? versionKey with
  | none => .ok ""
  | some (.scalar .null) => .ok ""
  | some (.scalar (.int _)) => source
  | some (.scalar (.float _)) => source
  | some (.scalar s) => .ok s.asText
  | some v => .error (.format (.versionKind v.kindName))

/-- The manifest of a document; `source` gives the text of its version. -/
def ofTree (source : Except Error String) (document : Value) : Except Error Manifest := do
  let root ← rootEntries document
  let version ← declaredVersion source root
  let major ← majorVersion version
  if major < 2 then
    let services ← serviceEntries (root.erase versionKey)
    .ok ⟨version, services, [], []⟩
  else
    let services ← (section? root "services").bind serviceEntries
    let volumes ← section? root "volumes"
    let networks ← section? root "networks"
    .ok ⟨version, services, volumes, networks⟩

end Manifest
end ComposeMerge
