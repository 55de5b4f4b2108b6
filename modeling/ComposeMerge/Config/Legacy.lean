import ComposeMerge.Config.Service

/-!
# Legacy services

A service of a version 1 manifest. It has five fields of its own, of which `build` hides the field
of that name in later versions; the other fields are shared with later versions.

* `LegacyService.read` reads a raw service, its own fields first and then the shared ones;
* `LegacyService.widen` carries its own fields over to their places in a `ServiceConfig`.
-/

namespace ComposeMerge

/-- A service of a version 1 manifest. -/
structure LegacyService where
  /-- The build context. -/
  build : Option String
  dockerfile : Option String
  logDriver : Option String
  logOpt : Table String
  /-- The network mode. -/
  net : Option String
  shared : ServiceConfig
  deriving DecidableEq

namespace LegacyService

/-- The service without settings. -/
def empty : LegacyService := ⟨none, none, none, .empty, none, .empty⟩

/-- The fields that only a legacy service has. -/
def ownShape : RecordShape LegacyService LegacyService :=
  .plain "ServiceConfigV1" empty
    [.of "build" Spelling.text fun v r => { r with build := v },
     .of "dockerfile" Spelling.text fun v r => { r with dockerfile := v },
     .of "log_driver" Spelling.text fun v r => { r with logDriver := v },
     .of "log_opt" Spelling.labels fun v r => { r with logOpt := v },
     .of "net" Spelling.text fun v r => { r with net := v }]

/-- The names of those fields. -/
def ownKeys : List String := ownShape.fields.map RecordField.name

/-- The raw fields that are shared with later versions. -/
def sharedFields (fields : RawService) : RawService :=
  fields.filter fun e => !ownKeys.contains e.1

/-- Reads a raw legacy service. -/
def read (fields : RawService) : Read LegacyService := do
  let own ← ownShape.ofMapping fields
  let shared ← ServiceConfig.putFields .chosen .empty (sharedFields fields)
  .ok { own with shared := shared }

/-- Reads a value that should be a legacy service; null is a service without settings. -/
def ofValue : Value → Read LegacyService
  | .mapping es => read es
  | .scalar .null => read []
  | v => Shape.mismatch v (.record ownShape.name)

open Written in
/-- Writes the fields that are set, the own ones first. -/
def write (s : LegacyService) : List (String × Value) :=
  field "build" (text s.build) ++ field "dockerfile" (text s.dockerfile) ++
    field "log_driver" (text s.logDriver) ++ field "log_opt" (labels s.logOpt) ++
    field "net" (text s.net) ++ s.shared.write

/-- The raw service that a legacy service is written as. -/
def toRaw (s : LegacyService) : RawService := Entries.ofList (Value.canonicalEntries s.write)

/-- Build settings with the build context and the Dockerfile of a legacy service. -/
def widenBuild (s : LegacyService) (build : Option Build) : Option Build :=
  if s.build.isSome || s.dockerfile.isSome then
    let base := build.getD .empty
    some { base with
      context := s.build.or base.context
      dockerfile := s.dockerfile.or base.dockerfile }
  else build

/-- Logging settings with the driver and the options of a legacy service. -/
def widenLogging (s : LegacyService) (logging : Option Logging) : Option Logging :=
  if s.logDriver.isSome || !s.logOpt.isEmpty then
    let base := logging.getD .empty
    some { base with
      driver := s.logDriver.or base.driver
      options := base.options.insertAll s.logOpt.entries }
  else logging

/-- The service in the form of later versions; where both forms of a setting are given, the legacy
one counts. -/
def widen (s : LegacyService) : ServiceConfig :=
  ((s.shared.set .build (s.widenBuild s.shared.build)).set
    .logging (s.widenLogging s.shared.logging)).set
    .networkMode (s.net.or s.shared.networkMode)

end LegacyService
end ComposeMerge
