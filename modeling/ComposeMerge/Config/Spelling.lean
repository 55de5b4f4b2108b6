import ComposeMerge.Config.Parts
import ComposeMerge.Config.Shape

/-!
# Spellings of settings

Many settings may be written in more than one way. The functions here read each spelling into one
form: a string or a list, a mapping or a list of `KEY=VALUE` texts, a number or a text.
-/

namespace ComposeMerge
namespace Spelling

open Shape

/-- A text, written as any scalar. -/
def text : Value → Read (Option String) := optional scalarText

/-- Texts, written as a list. -/
def texts (choice : Choice) : List Value → Read (List String) :=
  fun vs => oneOf choice (vs.mapM scalarText)

/-- Texts, written as one scalar or as a list. -/
def list : Value → Read (List String)
  | .scalar .null => .ok []
  | .scalar s => .ok [s.asText]
  | .sequence vs => texts .stringOrList vs
  | .mapping _ => .error (.noVariant .stringOrList)

/-- The words of a command, written as a list or as one scalar to be cut into words. -/
def command : Value → Read (List String)
  | .scalar .null => .ok []
  | .scalar s => (Words.split s.asText).mapError .words
  | v => list v

/-- The values of a mapping from names to optional texts. -/
def optionalTexts (es : List (String × Value)) : Read (Entries (Option String)) :=
  oneOf .mapOrList (Entries.traverse (fun _ v => text v) es)

/-- An entry in its `KEY=VALUE` form; without a value the key stands alone. -/
def pairText (e : String × Option String) : String :=
  match e.2 with
  | some v => e.1 ++ "=" ++ v
  | none => e.1

/-- The key and the value of a `KEY=VALUE` text; without `=` the value is empty. -/
def splitPair (s : String) : String × String :=
  match Text.splitFirst '=' s.toList with
  | some (key, value) => (String.ofList key, String.ofList value)
  | none => (s, "")

/-- `KEY=VALUE` texts, written as a list or as a mapping. -/
def pairs : Value → Read (List String)
  | .scalar .null => .ok []
  | .mapping es => (optionalTexts es).map fun vs => vs.map pairText
  | .sequence vs => texts .mapOrList vs
  | .scalar _ => .error (.noVariant .mapOrList)

/-- Texts by name, written as a mapping or as a list of `KEY=VALUE` texts. -/
def labels : Value → Read (Table String)
  | .scalar .null => .ok .empty
  | .mapping es => (optionalTexts es).map fun vs => .ofList (vs.mapValues (·.getD ""))
  | .sequence vs => (texts .mapOrList vs).map fun ts => .ofList (ts.map splitPair)
  | .scalar _ => .error (.noVariant .mapOrList)

/-- An integer, written as a number or as a text that `parse` reads. -/
def number (parse : String → Read Int64) : Value → Read (Option Int64)
  | .scalar .null => .ok none
  | .scalar (.int n) => .ok (some n)
  | .scalar (.text s) => (parse s).map some
  | _ => .error (.noVariant .intOrString)

/-- The integer that a text stands for. -/
def parseCount (s : String) : Read Int64 :=
  match Text.integer? (Text.trim s.toList) with
  | some n => .ok n
  | none => .error (.notInteger s)

/-- The size that a text stands for. -/
def parseSize (s : String) : Read Int64 := (Size.parse s).mapError .size

/-- Names of services, written as a list or as the keys of a mapping. -/
def dependencies : Value → Read (List String)
  | .scalar .null => .ok []
  | .sequence vs => texts .dependencies vs
  | .mapping es => .ok (Entries.names es)
  | .scalar _ => .error (.noVariant .dependencies)

/-! ### Records -/

/-- The fields of build settings. -/
def buildShape : RecordShape Build Build :=
  .plain "Build" .empty
    [.of "context" (optional string) fun v r => { r with context := v },
     .of "dockerfile" (optional string) fun v r => { r with dockerfile := v },
     .of "args" labels fun v r => { r with args := v }]

/-- Build settings, written as the context alone or as a record. -/
def build : Value → Read (Option Build)
  | .scalar .null => .ok none
  | .scalar (.text context) => .ok (some { Build.empty with context := some context })
  | v => oneOf .build ((buildShape.read .chosen v).map some)

/-- The fields of logging settings. -/
def loggingShape : RecordShape Logging Logging :=
  .plain "Logging" .empty
    [.of "driver" (optional string) fun v r => { r with driver := v },
     .of "options" labels fun v r => { r with options := v }]

/-- Logging settings. -/
def logging (reading : Reading) : Value → Read (Option Logging) :=
  optional (loggingShape.read reading)

/-- An inheritance declaration that is being read. -/
structure ExtendsDraft where
  service : Option String
  file : Option String

/-- The fields of an inheritance declaration; the service must be named. -/
def extendsShape : RecordShape ExtendsDraft Extends where
  name := "Extends"
  start := ⟨none, none⟩
  fields :=
    [.of "service" string fun v r => { r with service := some v },
     .of "file" (optional string) fun v r => { r with file := v }]
  finish r :=
    match r.service with
    | some service => .ok ⟨service, r.file⟩
    | none => .error "service"

/-- An inheritance declaration. -/
def inheritance (reading : Reading) : Value → Read (Option Extends) :=
  optional (extendsShape.read reading)

/-- The fields of a service's part in a network. -/
def networkShape : RecordShape ServiceNetwork ServiceNetwork :=
  .plain "ServiceNetwork" .empty
    [.of "aliases" (items .chosen string) fun v r => { r with aliases := v },
     .of "ipv4_address" (optional string) fun v r => { r with ipv4 := v },
     .of "ipv6_address" (optional string) fun v r => { r with ipv6 := v }]

/-- Networks by name, written as a list of names or as a mapping to their settings. -/
def networks : Value → Read (Table ServiceNetwork)
  | .scalar .null => .ok .empty
  | .sequence vs =>
    (oneOf .networks (vs.mapM string)).map fun names => .ofList (names.map (·, .empty))
  | .mapping es =>
    (oneOf .networks (entries .chosen (optional (networkShape.read .chosen)) (.mapping es))).map
      fun t => t.mapValues (·.getD .empty)
  | .scalar _ => .error (.noVariant .networks)

/-- An integer, written as a number. -/
def integer? : Value → Option Int64
  | .scalar (.int n) => some n
  | _ => none

/-- A resource limit, written as one number or as a pair of named ones. -/
def ulimit : Value → Read Ulimit
  | .scalar (.int n) => .ok ⟨n, n⟩
  | .mapping es =>
    match (Entries.get? "soft" es).bind integer?, (Entries.get? "hard" es).bind integer? with
    | some soft, some hard => .ok ⟨soft, hard⟩
    | _, _ => .error (.noVariant .ulimit)
  | _ => .error (.noVariant .ulimit)

/-- Resource limits by name. -/
def ulimits (reading : Reading) : Value → Read (Table Ulimit) := entries reading ulimit

/-- Whether something is external, written as a truth value or with its name. -/
def external : Value → Read External
  | .scalar (.bool b) => .ok (.flag b)
  | .mapping es =>
    match Entries.get? "name" es with
    | none | some (.scalar .null) => .ok (.flag true)
    | some (.scalar (.text name)) => .ok (.named name)
    | some _ => .error (.noVariant .external)
  | _ => .error (.noVariant .external)

/-- The fields of a top-level volume. -/
def volumeShape : RecordShape VolumeConfig VolumeConfig :=
  .plain "VolumeConfig" .empty
    [.of "driver" (optional string) fun v r => { r with driver := v },
     .of "driver_opts" labels fun v r => { r with driverOpts := v },
     .of "external" (optional external) fun v r => { r with external := v }]

/-- The fields of a pool of addresses. -/
def poolShape : RecordShape IpamPool IpamPool :=
  .plain "IpamConfig" .empty
    [.of "subnet" (optional string) fun v r => { r with subnet := v },
     .of "ip_range" (optional string) fun v r => { r with ipRange := v },
     .of "gateway" (optional string) fun v r => { r with gateway := v },
     .of "aux_addresses" (entries .direct string) fun v r => { r with auxAddresses := v }]

/-- The fields of address management. -/
def ipamShape : RecordShape Ipam Ipam :=
  .plain "Ipam" .empty
    [.of "driver" (optional string) fun v r => { r with driver := v },
     .of "config" (items .direct (poolShape.read .direct)) fun v r => { r with pools := v }]

/-- The fields of a top-level network. -/
def networkConfigShape : RecordShape NetworkConfig NetworkConfig :=
  .plain "NetworkConfig" .empty
    [.of "driver" (optional string) fun v r => { r with driver := v },
     .of "driver_opts" labels fun v r => { r with driverOpts := v },
     .of "external" (optional external) fun v r => { r with external := v },
     .of "ipam" (optional (ipamShape.read .direct)) fun v r => { r with ipam := v }]

end Spelling

/-- Build settings as a whole. -/
def Build.read : Value → Read Build := Spelling.buildShape.read .direct

/-- A top-level volume. -/
def VolumeConfig.read : Value → Read VolumeConfig := Spelling.volumeShape.read .direct

/-- A top-level network. -/
def NetworkConfig.read : Value → Read NetworkConfig := Spelling.networkConfigShape.read .direct

end ComposeMerge
