import ComposeMerge.Config.Field
import ComposeMerge.Config.Spelling
import ComposeMerge.Config.Written

/-!
# Services

The typed configuration of a service: a setting for every `ServiceField`.

* `FieldKind.Setting` is the type of what a kind of field holds, with `unset` for its default;
* `ServiceConfig.read` reads a raw service; its fields are read in the order of their names, and
  the first mismatch counts;
* `ServiceConfig.write` writes the settings that differ from their defaults.
-/

namespace ComposeMerge
namespace FieldKind

/-- What a field of a kind holds. -/
abbrev Setting : FieldKind → Type
  | .text => Option String
  | .count | .size => Option Int64
  | .flag => Bool
  | .list | .command | .pairs | .dependencies => List String
  | .labels => Table String
  | .build => Option Build
  | .inheritance => Option Extends
  | .logging => Option Logging
  | .networks => Table ServiceNetwork
  | .ulimits => Table Ulimit

/-- What a field holds that is not set. -/
def unset : (k : FieldKind) → k.Setting
  | .text => (none : Option String)
  | .count | .size => (none : Option Int64)
  | .flag => false
  | .list | .command | .pairs | .dependencies => ([] : List String)
  | .labels => (.empty : Table String)
  | .build => (none : Option Build)
  | .inheritance => (none : Option Extends)
  | .logging => (none : Option Logging)
  | .networks => (.empty : Table ServiceNetwork)
  | .ulimits => (.empty : Table Ulimit)

instance decEqSetting : (k : FieldKind) → DecidableEq k.Setting
  | .text => inferInstanceAs (DecidableEq (Option String))
  | .count | .size => inferInstanceAs (DecidableEq (Option Int64))
  | .flag => inferInstanceAs (DecidableEq Bool)
  | .list | .command | .pairs | .dependencies => inferInstanceAs (DecidableEq (List String))
  | .labels => inferInstanceAs (DecidableEq (Table String))
  | .build => inferInstanceAs (DecidableEq (Option Build))
  | .inheritance => inferInstanceAs (DecidableEq (Option Extends))
  | .logging => inferInstanceAs (DecidableEq (Option Logging))
  | .networks => inferInstanceAs (DecidableEq (Table ServiceNetwork))
  | .ulimits => inferInstanceAs (DecidableEq (Table Ulimit))

/-- Reads the value of a field. -/
def read (reading : Reading) : (k : FieldKind) → Value → Read k.Setting
  | .text => Spelling.text
  | .count => Spelling.number Spelling.parseCount
  | .size => Spelling.number Spelling.parseSize
  | .flag => Shape.boolean
  | .list => Spelling.list
  | .command => Spelling.command
  | .pairs => Spelling.pairs
  | .dependencies => Spelling.dependencies
  | .labels => Spelling.labels
  | .build => Spelling.build
  | .inheritance => Spelling.inheritance reading
  | .logging => Spelling.logging reading
  | .networks => Spelling.networks
  | .ulimits => Spelling.ulimits reading

/-- Writes what a field holds; nothing is written for a field that is not set. -/
def write : (k : FieldKind) → k.Setting → Option Value
  | .text => Written.text
  | .count | .size => Written.number
  | .flag => Written.flag
  | .list | .command | .pairs | .dependencies => Written.texts
  | .labels => Written.labels
  | .build => Option.map Build.write
  | .inheritance => Option.map Extends.write
  | .logging => Option.map Logging.write
  | .networks => Written.table ServiceNetwork.write
  | .ulimits => Written.table Ulimit.write

end FieldKind

/-- The configuration of a service. -/
structure ServiceConfig where
  /-- What a field holds. -/
  get : (f : ServiceField) → f.kind.Setting

namespace ServiceConfig

theorem ext {a b : ServiceConfig} (h : ∀ f, a.get f = b.get f) : a = b := by
  cases a
  cases b
  congr
  exact funext h

/-- The services that are started before this one. -/
def dependsOn (c : ServiceConfig) : List String := c.get .dependsOn

/-- The links to other services. -/
def links (c : ServiceConfig) : List String := c.get .links

/-- Where volumes are borrowed from. -/
def volumesFrom (c : ServiceConfig) : List String := c.get .volumesFrom

/-- The restart policy. -/
def restart (c : ServiceConfig) : Option String := c.get .restart

/-- The image reference. -/
def image (c : ServiceConfig) : Option String := c.get .image

/-- The build settings. -/
def build (c : ServiceConfig) : Option Build := c.get .build

/-- The logging settings. -/
def logging (c : ServiceConfig) : Option Logging := c.get .logging

/-- The network mode. -/
def networkMode (c : ServiceConfig) : Option String := c.get .networkMode

/-- Whether two services agree in every field. -/
def agree (a b : ServiceConfig) : Bool := ServiceField.all.all fun f => a.get f = b.get f

theorem agree_iff {a b : ServiceConfig} : a.agree b = true ↔ a = b := by
  simp only [agree, List.all_eq_true, decide_eq_true_eq]
  exact ⟨fun h => ext fun f => h f (ServiceField.mem_all f), fun h f _ => h ▸ rfl⟩

instance : DecidableEq ServiceConfig := fun _ _ => decidable_of_iff _ agree_iff

/-- The service without settings. -/
def empty : ServiceConfig := ⟨fun f => f.kind.unset⟩

/-- The service with one field set. -/
def set (c : ServiceConfig) (f : ServiceField) (v : f.kind.Setting) : ServiceConfig :=
  ⟨fun g => if h : f = g then h ▸ v else c.get g⟩

@[simp]
theorem get_set_self (c : ServiceConfig) (f : ServiceField) (v : f.kind.Setting) :
    (c.set f v).get f = v := by
  simp [set]

theorem get_set_of_ne (c : ServiceConfig) {f g : ServiceField} (h : f ≠ g)
    (v : f.kind.Setting) : (c.set f v).get g = c.get g := by
  simp [set, h]

/-- The service with the value of one raw field read; unknown fields are passed over. -/
def putField (reading : Reading) (c : ServiceConfig) (name : String) (v : Value) :
    Read ServiceConfig :=
  match ServiceField.ofKey? name with
  | some f => (f.kind.read reading v).map (c.set f)
  | none => .ok c

/-- The service with raw fields read, in the order of their names. -/
def putFields (reading : Reading) (c : ServiceConfig) : RawService → Read ServiceConfig
  | [] => .ok c
  | (name, v) :: es => do
    let c ← c.putField reading name v
    putFields reading c es

/-- Reads a raw service. -/
def read (fields : RawService) : Read ServiceConfig := putFields .direct empty fields

/-- Reads a value that should be a service; null is a service without settings. -/
def ofValue : Value → Read ServiceConfig
  | .mapping es => read es
  | .scalar .null => read []
  | v => Shape.mismatch v (.record "ServiceConfig")

/-- Writes the fields that are set, in the order of their declaration. -/
def write (c : ServiceConfig) : List (String × Value) :=
  ServiceField.all.flatMap fun f => Written.field f.key (f.kind.write (c.get f))

/-- The raw service that a service is written as. -/
def toRaw (c : ServiceConfig) : RawService := Entries.ofList (Value.canonicalEntries c.write)

end ServiceConfig

/-- Services by name. -/
abbrev Services := Table ServiceConfig

end ComposeMerge
