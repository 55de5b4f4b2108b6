import ComposeMerge.Config.Mismatch
import ComposeMerge.Files

/-!
# Errors

Everything that can go wrong on the way from manifests to a merged project, by cause. The wording
of an error is `Error.message`; the causes it is made of have wordings of their own.
-/

namespace ComposeMerge

/-- Why a document is no manifest. -/
inductive FormatFault where
  | version (text : String)
  | document (kind : String)
  | versionKind (kind : String)
  | sectionKind (name kind : String)
  | serviceKind (name kind : String)
  | compoundKey
  deriving DecidableEq

/-- The words of a fault. -/
def FormatFault.message : FormatFault → String
  | .version text =>
    s!"invalid version string, expected single integer or dot delimited int.int, got: {text}"
  | .document kind => s!"top-level document must be a mapping, got {kind}"
  | .versionKind kind => s!"version must be a scalar, got {kind}"
  | .sectionKind name kind => s!"{name} must be a mapping, got {kind}"
  | .serviceKind name kind => s!"service \"{name}\" must be a mapping, got {kind}"
  | .compoundKey => "mapping keys must be scalars"

/-- Why a variable reference has no value. -/
inductive ReferenceFault where
  | malformed (rest input : String)
  | required (name message : String)
  | unset (name : String)
  deriving DecidableEq

/-- The words of a fault. -/
def ReferenceFault.message : ReferenceFault → String
  | .malformed rest input => s!"malformed reference at \"{rest}\" in \"{input}\""
  | .required name message =>
    s!"required variable {name} is missing a value" ++
      if message.isEmpty then "" else s!": {message}"
  | .unset name => s!"variable {name} is not set"

/-- Why a file that a manifest refers to gives no variables. -/
inductive ResourceFault where
  | noLookup
  | notFound (reference : String)
  | unreadable (path : Path) (failure : IoFailure)
  | notText (path : Path) (fault : Text.Utf8Fault)
  deriving DecidableEq

/-- The words of a fault. -/
def ResourceFault.message : ResourceFault → String
  | .noLookup => "env_file is used but no mechanism was provided to load files"
  | .notFound reference => s!"resource not found: {reference}"
  | .unreadable path failure => s!"cannot read {path}: {failure.message}"
  | .notText path fault => s!"{path} is not valid UTF-8: {fault.message}"

/-- Why a service definition is refused. -/
inductive ServiceFault where
  | name
  | inheritance
  | restart (dump : String)
  | portsKind (kind : String)
  | portKind (kind : String)
  | notStrings (field kind : String)
  deriving DecidableEq

/-- The words of a fault. -/
def ServiceFault.message : ServiceFault → String
  | .name => "service names may only contain [a-zA-Z0-9._-]"
  | .inheritance => "extends must name a service, as a string or \x7bservice: <name>\x7d"
  | .restart dump => s!"invalid restart policy {dump}"
  | .portsKind kind => s!"ports must be a list, got {kind}"
  | .portKind kind => s!"ports entries must be numbers or strings, got {kind}"
  | .notStrings field kind => s!"{field} must be a list of strings, got {kind}"

/-- Why a project cannot be set up or put in order. -/
inductive ProjectFault where
  | emptyName
  | noName (directory : Path)
  | noManifest
  | cycle (service : String)
  deriving DecidableEq

/-- The words of a fault. -/
def ProjectFault.message : ProjectFault → String
  | .emptyName => "project name is empty after normalization"
  | .noName directory => s!"cannot derive a project name from {directory}"
  | .noManifest => "no compose file specified"
  | .cycle service => s!"cyclic dependency detected involving service \"{service}\""

/-- Everything that can go wrong. -/
inductive Error where
  /-- A document or a version string has the wrong shape. -/
  | format (fault : FormatFault)
  /-- The bytes of a manifest are no single YAML document. -/
  | yaml
  /-- A reference in a field has no value. -/
  | interpolation (field : String) (fault : ReferenceFault)
  /-- A file that a manifest refers to cannot be used. -/
  | resource (manifest : Path) (fault : ResourceFault)
  /-- The manifest declares a version that is not supported. -/
  | unsupportedVersion (version : String)
  /-- A raw value does not have the shape of its setting. -/
  | conversion (field : String) (mismatch : Mismatch)
  /-- A processing hook failed. -/
  | hook (message : String)
  /-- A service definition is refused. -/
  | service (name : String) (fault : ServiceFault)
  /-- A manifest or an environment file cannot be read. -/
  | io (path : Path) (failure : IoFailure)
  /-- A project cannot be set up or put in order. -/
  | project (fault : ProjectFault)
  deriving DecidableEq

namespace Error

/-- The words of an error. -/
def message : Error → String
  | .format fault => s!"invalid format: {fault.message}"
  | .yaml => "failed to parse YAML document"
  | .interpolation field fault => s!"invalid interpolation format for {field}: {fault.message}"
  | .resource manifest fault => s!"cannot resolve reference in {manifest}: {fault.message}"
  | .unsupportedVersion version => s!"compose file version {version} is not supported"
  | .conversion field mismatch => s!"cannot convert {field}: {mismatch.message}"
  | .hook message => s!"processing hook failed: {message}"
  | .service name fault => s!"service \"{name}\" is invalid: {fault.message}"
  | .io path failure => s!"I/O error at {path}: {failure.message}"
  | .project fault => s!"invalid configuration: {fault.message}"

/-- The broad classes of errors. -/
inductive Kind where
  | format
  | interpolation
  | unresolvableReference
  | unsupportedVersion
  | conversion
  | validation
  | other
  deriving DecidableEq

/-- The class of an error. -/
def kind : Error → Kind
  | .format _ | .yaml => .format
  | .interpolation .. => .interpolation
  | .resource .. => .unresolvableReference
  | .unsupportedVersion _ => .unsupportedVersion
  | .conversion .. => .conversion
  | .service .. => .validation
  | .hook _ | .io .. | .project _ => .other

end Error
end ComposeMerge
