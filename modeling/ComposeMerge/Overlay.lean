import ComposeMerge.Value

/-!
# Overlaying raw definitions

What becomes of a definition when a later one is laid over it.

* Two mappings are overlaid key by key.
* Two sequences are put one after the other, unless the field is one of `replacedFields`.
* Otherwise the later value stands.

The order matters: definitions are laid over each other from left to right.
-/

namespace ComposeMerge

/-- The fields whose sequences replace each other. -/
def replacedFields : List String := ["links", "volumes_from"]

/-- Whether a sequence under this field replaces an earlier one. -/
def isReplaced (field : String) : Bool := replacedFields.contains field

mutual

/-- The value under `field` when `incoming`, the last argument, is laid over `existing`. -/
def overlay (field : String) (existing : Value) : Value → Value
  | .sequence extra =>
    match existing with
    | .sequence base => if isReplaced field then .sequence extra else .sequence (base ++ extra)
    | _ => .sequence extra
  | .mapping extra =>
    match existing with
    | .mapping base => .mapping (overlayEntries base extra)
    | _ => .mapping extra
  | .scalar s => .scalar s

/-- The entries of `base` with others, the last argument, laid over them. -/
def overlayEntries (base : List (String × Value)) : List (String × Value) → List (String × Value)
  | [] => base
  | (k, v) :: es =>
    let merged := match Entries.get? k base with
      | some existing => overlay k existing v
      | none => v
    overlayEntries (Entries.insert k merged base) es

end

/-- The service `base` with the fields of `incoming` laid over it. -/
def overlayService (base incoming : RawService) : RawService := overlayEntries base incoming

end ComposeMerge
