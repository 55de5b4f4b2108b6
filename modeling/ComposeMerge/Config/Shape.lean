import ComposeMerge.Config.Mismatch

/-!
# Reading shapes

How raw values are read as texts, truth values, lists and records.

* `scalarText` takes any scalar but null as its text, `string` takes strings only;
* `optional` lets null stand for nothing;
* `oneOf` reports whatever is wrong with a value as a mismatch of one `Choice`;
* `RecordShape.read` reads a record of named fields.

A value is read differently when a choice between spellings has been made before (`Reading`): then
null is no collection, and a record may be written as the sequence of its fields.
-/

namespace ComposeMerge

/-- How a value was reached. -/
inductive Reading where
  /-- It is the value of a setting with one spelling. -/
  | direct
  /-- It was reached through a choice between spellings. -/
  | chosen
  deriving DecidableEq

/-- The outcome of reading a value. -/
abbrev Read (α : Type) := Except Mismatch α

namespace Shape

variable {α β : Type}

/-- The mismatch of a value that should be something else. -/
def mismatch (v : Value) (expected : Expected) : Read α := .error (.wrongType v.found expected)

/-- Any scalar but null, as its text. -/
def scalarText : Value → Read String
  | .scalar .null => mismatch .null .scalarText
  | .scalar s => .ok s.asText
  | v => mismatch v .scalarText

/-- A string. -/
def string : Value → Read String
  | .scalar (.text s) => .ok s
  | v => mismatch v .string

/-- A truth value. -/
def boolean : Value → Read Bool
  | .scalar (.bool b) => .ok b
  | v => mismatch v .boolean

/-- Null, or what `read` reads. -/
def optional (read : Value → Read α) : Value → Read (Option α)
  | .scalar .null => .ok none
  | v => (read v).map some

/-- What `read` reads; any mismatch is one of the whole choice. -/
def oneOf (choice : Choice) (outcome : Read α) : Read α :=
  outcome.mapError fun _ => .noVariant choice

/-- The items of a sequence. -/
def items (reading : Reading) (read : Value → Read α) : Value → Read (List α)
  | .sequence vs => vs.mapM read
  | .scalar .null =>
    match reading with
    | .direct => .ok []
    | .chosen => mismatch .null .sequence
  | v => mismatch v .sequence

/-- The entries of a mapping. -/
def entries (reading : Reading) (read : Value → Read α) : Value → Read (Table α)
  | .mapping es => (Entries.traverse (fun _ v => read v) es).map Table.ofList
  | .scalar .null =>
    match reading with
    | .direct => .ok .empty
    | .chosen => mismatch .null .mapping
  | v => mismatch v .mapping

end Shape

/-- A field of a record: its name, and how its value is put into the record. -/
structure RecordField (ρ : Type) where
  name : String
  put : Value → ρ → Read ρ

/-- A field that `read` reads and `set` puts into the record. -/
def RecordField.of {ρ α : Type} (name : String) (read : Value → Read α) (set : α → ρ → ρ) :
    RecordField ρ :=
  ⟨name, fun v r => (read v).map fun a => set a r⟩

/-- How a record is read: from `start`, field by field. In the end `finish` gives the record, or
the name of a field that is still missing. -/
structure RecordShape (ρ α : Type) where
  name : String
  start : ρ
  fields : List (RecordField ρ)
  finish : ρ → Except String α

namespace RecordShape

variable {ρ α : Type}

/-- A record of optional fields. -/
def plain (name : String) (start : ρ) (fields : List (RecordField ρ)) : RecordShape ρ ρ :=
  ⟨name, start, fields, .ok⟩

/-- The record with the entry of a mapping put in; unknown names are passed over. -/
def putEntry (shape : RecordShape ρ α) (r : ρ) (e : String × Value) : Read ρ :=
  match shape.fields.find? fun f => f.name = e.1 with
  | some field => field.put e.2 r
  | none => .ok r

/-- The record with the entries of a mapping put in, in the order of their names. -/
def putEntries (shape : RecordShape ρ α) (r : ρ) : List (String × Value) → Read ρ
  | [] => .ok r
  | e :: es => do
    let r ← shape.putEntry r e
    shape.putEntries r es

/-- The record with values put in for the fields, one after the other. -/
def putInOrder (r : ρ) : List (RecordField ρ) → List Value → Read ρ
  | field :: fields, v :: vs => do
    let r ← field.put v r
    putInOrder r fields vs
  | _, _ => .ok r

/-- A record written as a mapping. -/
def ofMapping (shape : RecordShape ρ α) (es : List (String × Value)) : Read α := do
  let r ← shape.putEntries shape.start es
  (shape.finish r).mapError .missingField

/-- A record written as the sequence of its fields. -/
def ofSequence (shape : RecordShape ρ α) (vs : List Value) : Read α := do
  let r ← putInOrder shape.start shape.fields vs
  let a ← (shape.finish r).mapError fun _ =>
    .tooShort vs.length shape.name shape.fields.length
  if shape.fields.length < vs.length then .error (.tooLong vs.length shape.fields.length)
  else .ok a

/-- A record. -/
def read (shape : RecordShape ρ α) (reading : Reading) : Value → Read α
  | .mapping es => shape.ofMapping es
  | .sequence vs =>
    match reading with
    | .direct => Shape.mismatch (.sequence vs) (.record shape.name)
    | .chosen => shape.ofSequence vs
  | .scalar .null =>
    match reading with
    | .direct => shape.ofMapping []
    | .chosen => Shape.mismatch .null (.record shape.name)
  | v => Shape.mismatch v (.record shape.name)

end RecordShape
end ComposeMerge
