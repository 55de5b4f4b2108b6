import ComposeMerge.Config.Legacy
import ComposeMerge.EnvFile
import ComposeMerge.Interpolation
import ComposeMerge.Manifest
import ComposeMerge.Overlay
import ComposeMerge.Validation

/-!
# Merging a manifest

What a manifest makes of the services that earlier manifests defined.

* `prepare` brings the raw services of a manifest into their final form: the inheritance shorthand
  is written in full, references are replaced, a hook may change the services, and they are
  validated;
* `mergeService` lays the fields of a service over its earlier definition, reads its environment
  files and gives it a type;
* `mergeManifest` does all of this, and converts volumes and networks at the end.

The first error of any stage is the result.
-/

namespace ComposeMerge

/-- Which stages run, and how. -/
structure Options where
  /-- Whether references are replaced. -/
  interpolate : Bool
  /-- Whether services are validated. -/
  validate : Bool
  undefined : UndefinedPolicy
  /-- A change to the raw services before they are validated. -/
  preprocess : Option (RawServices → Except Error RawServices)
  /-- A change to the merged services. -/
  postprocess : Option (Services → Except Error Services)

/-- Every stage runs, without hooks. -/
def Options.standard : Options := ⟨true, true, .blank, none, none⟩

/-- What the engine asks of its surroundings. -/
structure Surroundings where
  environment : Environment
  resources : Option ResourceLookup

/-- What a manifest defines. -/
structure Merged where
  /-- The version as declared. -/
  version : String
  /-- The services of the manifest, laid over their earlier definitions. -/
  services : Services
  volumes : Table VolumeConfig
  networks : Table NetworkConfig
  deriving DecidableEq

namespace Merging

/-- A typed reading, with its mismatch as the error of a field. -/
def convert {α : Type} (field : String) (outcome : Read α) : Except Error α :=
  outcome.mapError (.conversion field)

/-- A manifest with its references replaced, if that is wanted. -/
def substitute (env : Environment) (options : Options) (m : Manifest) : Except Error Manifest :=
  if options.interpolate then do
    let services ← interpolateServices env options.undefined m.services
    let volumes ← interpolateSection env options.undefined m.volumes
    let networks ← interpolateSection env options.undefined m.networks
    .ok { m with services := services, volumes := volumes, networks := networks }
  else .ok m

/-- What a hook makes of something; without a hook it stays as it is. -/
def runHook {α : Type} (hook : Option (α → Except Error α)) (a : α) : Except Error α :=
  match hook with
  | some run => run a
  | none => .ok a

/-- Validates services, if that is wanted. -/
def check (options : Options) (services : RawServices) : Except Error Unit :=
  if options.validate then Validation.validate services else .ok ()

/-- A manifest with its services in their final raw form. -/
def prepare (env : Environment) (options : Options) (m : Manifest) : Except Error Manifest := do
  let m ← substitute env options { m with services := normalizeExtends m.services }
  let services ← runHook options.preprocess m.services
  check options services
  .ok { m with services := services }

/-- Raw fields laid over the earlier definition of a service. -/
def layOver (existing : Services) (name : String) (fields : RawService) : RawService :=
  match existing.get? name with
  | some earlier => overlayService earlier.toRaw fields
  | none => fields

/-- The service that raw fields make of the earlier definition of a service. -/
def mergeService (existing : Services) (lookup : Option ResourceLookup) (file : Path)
    (name : String) (fields : RawService) : Except Error ServiceConfig := do
  let fields ← resolveEnvFiles lookup file (layOver existing name fields)
  convert name (ServiceConfig.read fields)

/-- The raw fields, in the form of later versions, of a legacy service. -/
def widenService (name : String) (fields : RawService) : Except Error RawService :=
  (convert name (LegacyService.read fields)).map fun s => s.widen.toRaw

/-- The same for a service of a version 1 manifest. -/
def mergeLegacyService (existing : Services) (lookup : Option ResourceLookup) (file : Path)
    (name : String) (fields : RawService) : Except Error ServiceConfig := do
  let fields ← widenService name fields
  mergeService existing lookup file name fields

/-- The services of a manifest of some shape. -/
def mergeServices (existing : Services) (lookup : Option ResourceLookup) (file : Path)
    (schema : Schema) (m : Manifest) : Except Error (Entries ServiceConfig) :=
  match schema with
  | .v1 => m.services.traverse (mergeLegacyService existing lookup file)
  | .v2 => m.services.traverse (mergeService existing lookup file)
  | .v3 => .error (.unsupportedVersion m.version)

/-- A service whose restart policy is the text of the boolean has the policy `no`. -/
def adjustService (c : ServiceConfig) : ServiceConfig :=
  if c.restart = some "false" then c.set .restart (some "no") else c

/-- Services with their values adjusted. -/
def adjust (services : Services) : Services := services.mapValues adjustService

/-- A top-level volume or network; null is one without settings. -/
def convertEntry {α : Type} (empty : α) (read : Value → Read α) (name : String) (v : Value) :
    Except Error α :=
  if v.isNull then .ok empty else convert name (read v)

/-- The volumes or networks of a section. -/
def convertSection {α : Type} (empty : α) (read : Value → Read α) (entries : Entries Value) :
    Except Error (Table α) :=
  (entries.traverse (convertEntry empty read)).map Table.ofList

end Merging

open Merging in
/-- What a manifest defines, given the services of earlier manifests. -/
def mergeManifest (existing : Services) (around : Surroundings) (options : Options) (file : Path)
    (m : Manifest) : Except Error Merged := do
  let schema ← m.schema
  let m ← prepare around.environment options m
  let services ← mergeServices existing around.resources file schema m
  let services ← runHook options.postprocess (adjust (.ofList services))
  let volumes ← convertSection .empty VolumeConfig.read m.volumes
  let networks ← convertSection .empty NetworkConfig.read m.networks
  .ok ⟨m.version, services, volumes, networks⟩

end ComposeMerge
