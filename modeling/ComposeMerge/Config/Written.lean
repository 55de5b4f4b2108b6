import ComposeMerge.Config.Parts
import ComposeMerge.Value

/-!
# Writing settings

Typed settings as values again. Nothing is written for what is not set: absent texts and numbers,
empty lists and tables, and flags that are off.

A record is written with its fields in the order of their declaration. `Value.canonical` puts the
keys of every mapping in order, which makes it a raw value.
-/

namespace ComposeMerge
namespace Value

mutual

/-- A value with the keys of every mapping in order. -/
def canonical : Value → Value
  | .scalar s => .scalar s
  | .sequence items => .sequence (canonicalItems items)
  | .mapping es => .mapping (Entries.ofList (canonicalEntries es))

/-- The items of a sequence with the keys inside them in order. -/
def canonicalItems : List Value → List Value
  | [] => []
  | v :: vs => canonical v :: canonicalItems vs

/-- The entries of a mapping with the keys inside their values in order. -/
def canonicalEntries : List (String × Value) → List (String × Value)
  | [] => []
  | (k, v) :: es => (k, canonical v) :: canonicalEntries es

end

end Value

namespace Written

/-- A field of a record, unless nothing is written for it. -/
def field (key : String) (v : Option Value) : List (String × Value) :=
  (v.map fun v => (key, v)).toList

/-- A text. -/
def text (s : Option String) : Option Value := s.map .string

/-- A number. -/
def number (n : Option Int64) : Option Value := n.map fun n => .scalar (.int n)

/-- A flag that is on. -/
def flag (b : Bool) : Option Value := if b then some (.scalar (.bool true)) else none

/-- Texts. -/
def texts (l : List String) : Option Value := if l.isEmpty then none else some (.strings l)

/-- Values by name. -/
def table {α : Type} (write : α → Value) (t : Table α) : Option Value :=
  if t.isEmpty then none else some (.mapping (t.mapValues write).entries)

/-- Texts by name. -/
def labels (t : Table String) : Option Value := table .string t

end Written

open Written

/-- Build settings. -/
def Build.write (b : Build) : Value :=
  .mapping (field "context" (text b.context) ++ field "dockerfile" (text b.dockerfile) ++
    field "args" (labels b.args))

/-- Logging settings. -/
def Logging.write (l : Logging) : Value :=
  .mapping (field "driver" (text l.driver) ++ field "options" (labels l.options))

/-- An inheritance declaration. -/
def Extends.write (e : Extends) : Value :=
  .mapping (("service", .string e.service) :: field "file" (text e.file))

/-- A service's part in a network. -/
def ServiceNetwork.write (n : ServiceNetwork) : Value :=
  .mapping (field "aliases" (texts n.aliases) ++ field "ipv4_address" (text n.ipv4) ++
    field "ipv6_address" (text n.ipv6))

/-- A resource limit. -/
def Ulimit.write (u : Ulimit) : Value :=
  .mapping [("soft", .scalar (.int u.soft)), ("hard", .scalar (.int u.hard))]

/-- Whether something is external. -/
def External.write : External → Value
  | .flag b => .scalar (.bool b)
  | .named name => .mapping [("name", .string name)]

/-- A top-level volume. -/
def VolumeConfig.write (v : VolumeConfig) : Value :=
  .mapping (field "driver" (text v.driver) ++ field "driver_opts" (labels v.driverOpts) ++
    field "external" (v.external.map External.write))

/-- A pool of addresses. -/
def IpamPool.write (p : IpamPool) : Value :=
  .mapping (field "subnet" (text p.subnet) ++ field "ip_range" (text p.ipRange) ++
    field "gateway" (text p.gateway) ++ field "aux_addresses" (labels p.auxAddresses))

/-- Address management. -/
def Ipam.write (i : Ipam) : Value :=
  .mapping (field "driver" (text i.driver) ++
    field "config" (if i.pools.isEmpty then none else some (.sequence (i.pools.map IpamPool.write))))

/-- A top-level network. -/
def NetworkConfig.write (n : NetworkConfig) : Value :=
  .mapping (field "driver" (text n.driver) ++ field "driver_opts" (labels n.driverOpts) ++
    field "external" (n.external.map External.write) ++ field "ipam" (n.ipam.map Ipam.write))

end ComposeMerge
