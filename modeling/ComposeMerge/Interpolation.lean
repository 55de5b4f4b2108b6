import ComposeMerge.Environment
import ComposeMerge.Error
import ComposeMerge.Reference

/-!
# Interpolation

Putting the values of variables in place of the references to them.

* `Segment.meaning` is the text that one piece stands for;
* `interpolateText` joins the meanings of all pieces of a text;
* `interpolate` does so for every string inside a value, and leaves keys and other scalars alone.

What a reference is replaced with is never looked through again.
-/

namespace ComposeMerge

/-- What a reference without a modifier means when its variable is unset. -/
inductive UndefinedPolicy where
  /-- The empty text. -/
  | blank
  /-- An error. -/
  | fail
  deriving DecidableEq

namespace Reference

/-- The value of a variable that a modifier accepts. -/
def accepted (value : Option String) (whenEmpty : Bool) : Option String :=
  value.filter fun v => !(whenEmpty && v.isEmpty)

/-- The text that a piece stands for. -/
def Segment.meaning (env : Environment) (policy : UndefinedPolicy) :
    Segment → Except ReferenceFault String
  | .literal text => .ok text
  | .dollar => .ok "$"
  | .variable name none =>
    match env name, policy with
    | some v, _ => .ok v
    | none, .blank => .ok ""
    | none, .fail => .error (.unset name)
  | .variable name (some (.default word whenEmpty)) =>
    .ok ((accepted (env name) whenEmpty).getD word)
  | .variable name (some (.required message whenEmpty)) =>
    match accepted (env name) whenEmpty with
    | some v => .ok v
    | none => .error (.required name message)

/-- The texts that some pieces stand for, one after the other. -/
def meanings (env : Environment) (policy : UndefinedPolicy) :
    List Segment → Except ReferenceFault String
  | [] => .ok ""
  | segment :: rest => do
    let text ← segment.meaning env policy
    let more ← meanings env policy rest
    .ok (text ++ more)

/-- A text with its references replaced. One without a dollar sign is left alone. -/
def substitute (env : Environment) (policy : UndefinedPolicy) (input : String) :
    Except ReferenceFault String :=
  if '$' ∉ input.toList then .ok input
  else match tokenize input with
    | .error rest => .error (.malformed rest input)
    | .ok segments => meanings env policy segments

end Reference

/-- A text of a field with its references replaced. -/
def interpolateText (env : Environment) (policy : UndefinedPolicy) (field input : String) :
    Except Error String :=
  (Reference.substitute env policy input).mapError (.interpolation field)

mutual

/-- A value with the references in its strings replaced. -/
def interpolate (env : Environment) (policy : UndefinedPolicy) (field : String) :
    Value → Except Error Value
  | .scalar (.text s) => (interpolateText env policy field s).map .string
  | .scalar s => .ok (.scalar s)
  | .sequence items => (interpolateItems env policy field items).map .sequence
  | .mapping es => (interpolateEntries env policy field es).map .mapping

/-- The items of a sequence with their references replaced. -/
def interpolateItems (env : Environment) (policy : UndefinedPolicy) (field : String) :
    List Value → Except Error (List Value)
  | [] => .ok []
  | v :: vs => do
    let w ← interpolate env policy field v
    let ws ← interpolateItems env policy field vs
    .ok (w :: ws)

/-- The entries of a mapping with the references in their values replaced. -/
def interpolateEntries (env : Environment) (policy : UndefinedPolicy) (field : String) :
    List (String × Value) → Except Error (List (String × Value))
  | [] => .ok []
  | (k, v) :: es => do
    let w ← interpolate env policy field v
    let rest ← interpolateEntries env policy field es
    .ok ((k, w) :: rest)

end

/-- The entries of a top-level section, each one a field of its own name. -/
def interpolateSection (env : Environment) (policy : UndefinedPolicy) (entries : Entries Value) :
    Except Error (Entries Value) :=
  entries.traverse fun name value => interpolate env policy name value

/-- The fields of one service. -/
def interpolateService (env : Environment) (policy : UndefinedPolicy) (service : String)
    (fields : RawService) : Except Error RawService :=
  fields.traverse fun key value => interpolate env policy (service ++ "." ++ key) value

/-- The fields of all services. -/
def interpolateServices (env : Environment) (policy : UndefinedPolicy) (services : RawServices) :
    Except Error RawServices :=
  services.traverse fun service fields => interpolateService env policy service fields

end ComposeMerge
