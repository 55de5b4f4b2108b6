import ComposeMerge.Value

/-!
# The inheritance shorthand

A service may name the service that it inherits from directly, `extends: base`. `normalizeExtends`
writes this in full, `extends: {service: base}`, and changes nothing else.
-/

namespace ComposeMerge

/-- The field that declares inheritance. -/
def extendsField : String := "extends"

/-- The full form of a declaration. -/
def fullExtends : Value → Value
  | .scalar (.text target) => .mapping [("service", .string target)]
  | v => v

/-- A service with its declaration in full form. -/
def normalizeService (fields : RawService) : RawService :=
  fields.map fun (key, value) => (key, if key = extendsField then fullExtends value else value)

/-- Services with their declarations in full form. -/
def normalizeExtends (services : RawServices) : RawServices := services.mapValues normalizeService

end ComposeMerge
