import ComposeMerge.Error
import ComposeMerge.Inheritance

/-!
# Validation

What raw services must look like before anything is merged. Services are checked in the order of
their names, and the first fault counts.

* A service name is not empty and made of ASCII letters, digits, `.`, `_` and `-`.
* `extends` names a service.
* `restart` is a known policy.
* `ports` is a list of integers and strings.
* `links` and `volumes_from` are lists of strings, and so is `depends_on` unless it is a mapping.
-/

namespace ComposeMerge
namespace Validation

/-- The characters of a service name. -/
def isNameChar (c : Char) : Bool := c.isAlphanum || c = '.' || c = '_' || c = '-'

/-- Whether a text is a service name. -/
def isServiceName (name : String) : Bool := !name.isEmpty && name.toList.all isNameChar

/-- Whether a text is a number of retries: a natural number below `2 ^ 32`. -/
def isRetryCount (s : List Char) : Bool := (Text.natural? (Nat.pow 2 32) s).isSome

/-- The restart policies without an argument. -/
def plainPolicies : List String := ["no", "always", "unless-stopped", "on-failure"]

/-- Whether a text is a restart policy. The text of the boolean stands for `no`. -/
def isRestartPolicy (policy : String) : Bool :=
  policy = "false" || plainPolicies.contains policy ||
    (Text.dropStart? "on-failure:".toList policy.toList).any isRetryCount

/-- Whether an `extends` declaration names a service. -/
def namesService (v : Value) : Bool :=
  (((v.asMapping?).bind (Entries.get? "service")).bind Value.asString?).isSome

/-- The fault of an `extends` declaration. -/
def extendsFault (v : Value) : Option ServiceFault :=
  if namesService v then none else some .inheritance

/-- The fault of a `restart` policy. -/
def restartFault : Value → Option ServiceFault
  | .scalar .null => none
  | .scalar (.bool false) => none
  | .scalar (.text s) => if isRestartPolicy s then none else some (.restart (Value.string s).dump)
  | v => some (.restart v.dump)

/-- The fault of one published port. -/
def portFault : Value → Option ServiceFault
  | .scalar (.int _) => none
  | .scalar (.text _) => none
  | v => some (.portKind v.kindName)

/-- The fault of a list of published ports. -/
def portsFault : Value → Option ServiceFault
  | .sequence items => items.findSome? portFault
  | v => some (.portsKind v.kindName)

/-- Whether a value is a list of strings. -/
def isStrings : Value → Bool
  | .sequence items => items.all fun v => v.asString?.isSome
  | _ => false

/-- The fault of a field that should be a list of strings. -/
def stringsFault (field : String) (v : Value) : Option ServiceFault :=
  if isStrings v then none else some (.notStrings field v.kindName)

/-- The fault of a `depends_on` declaration. -/
def dependenciesFault : Value → Option ServiceFault
  | .mapping _ => none
  | v => stringsFault "depends_on" v

/-- The checks of a service in their order: a field and the fault of its value. -/
def checks : List (String × (Value → Option ServiceFault)) :=
  [(extendsField, extendsFault), ("restart", restartFault), ("ports", portsFault),
   ("links", stringsFault "links"), ("volumes_from", stringsFault "volumes_from"),
   ("depends_on", dependenciesFault)]

/-- The first fault of a service. -/
def serviceFault? (name : String) (service : RawService) : Option ServiceFault :=
  if isServiceName name then
    checks.findSome? fun (field, fault?) => (service.get? field).bind fault?
  else some .name

/-- Checks one service. -/
def validateService (name : String) (service : RawService) : Except Error Unit :=
  match serviceFault? name service with
  | some fault => .error (.service name fault)
  | none => .ok ()

/-- Checks all services. -/
def validate : RawServices → Except Error Unit
  | [] => .ok ()
  | (name, service) :: rest => do
    validateService name service
    validate rest

end Validation
end ComposeMerge
