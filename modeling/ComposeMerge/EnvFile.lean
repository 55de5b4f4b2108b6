import ComposeMerge.Resource

/-!
# Environment files of a service

A service may list files in `env_file`; their lines become entries of its `environment`. The
entries that `environment` already has come first, then the lines of the last file, and so on down
to the first file. A line is left out when an earlier entry starts with its key, where the key of
a line is its text up to and including the first `=`, or all of it.

* `resolveEnvFiles` is the service with its files read.
-/

namespace ComposeMerge
namespace EnvFile

/-- The field that lists files. -/
def filesField : String := "env_file"

/-- The field that the lines go to. -/
def environmentField : String := "environment"

/-- The error for a field that should be a string or a list of strings. -/
def shapeError (field : String) (v : Value) : Error := .conversion field (.notTextList v.kindName)

/-- The text of a list item. -/
def itemText (field : String) : Value → Except Error String
  | .scalar s => .ok s.asText
  | v => .error (shapeError field v)

/-- The texts of a field that is a string or a list of strings. -/
def texts (field : String) : Value → Except Error (List String)
  | .scalar .null => .ok []
  | .scalar s => .ok [s.asText]
  | .sequence items => items.mapM (itemText field)
  | .mapping es => .error (shapeError field (.mapping es))

/-- An entry of an `environment` mapping in its `KEY=VALUE` form. -/
def entryText (key : String) : Value → String
  | .scalar .null => key
  | .scalar s => key ++ "=" ++ s.asText
  | v => key ++ "=" ++ v.kindName

/-- The entries of a raw `environment`. -/
def environmentTexts : Value → Except Error (List String)
  | .mapping es => .ok (es.map fun (key, value) => entryText key value)
  | v => texts environmentField v

/-- The text of a line up to and including the first `=`, or all of it. -/
def keyPart (line : List Char) : List Char :=
  match Text.splitFirst '=' line with
  | some (key, _) => key ++ ['=']
  | none => line

/-- The lines of a file that hold an entry, trimmed. -/
def entryLines (content : List Char) : List (List Char) :=
  ((Text.lines content).map Text.trim).filter fun line => !Environment.isComment line

/-- Whether one of the entries starts with the key of a line. -/
def isClaimed (entries : List String) (line : List Char) : Bool :=
  entries.any fun entry => Text.startsWith (keyPart line) entry.toList

/-- The entries with a line added, unless its key is claimed. -/
def addLine (entries : List String) (line : List Char) : List String :=
  if isClaimed entries line then entries else entries ++ [String.ofList line]

/-- The entries with the lines of a file added. -/
def addLines (entries : List String) (content : List Char) : List String :=
  (entryLines content).foldl addLine entries

/-- The text of a referenced file. -/
def readFile (lookup : ResourceLookup) (manifest : Path) (reference : String) :
    Except Error (List Char) := do
  let (content, path) ← lookup reference manifest
  (Text.Utf8.decode content).mapError fun fault => .resource manifest (.notText path fault)

/-- The entries with the lines of files added, one file after the other. -/
def addFiles (lookup : ResourceLookup) (manifest : Path) (entries : List String) :
    List String → Except Error (List String)
  | [] => .ok entries
  | reference :: rest => do
    let content ← readFile lookup manifest reference
    addFiles lookup manifest (addLines entries content) rest

/-- The entries that a service already has. -/
def ownEntries (service : RawService) : Except Error (List String) :=
  match service.get? environmentField with
  | some v => environmentTexts v
  | none => .ok []

end EnvFile

open EnvFile in
/-- A service with the lines of its environment files in its `environment`. A service without
files stays as it is. -/
def resolveEnvFiles (lookup : Option ResourceLookup) (manifest : Path) (service : RawService) :
    Except Error RawService :=
  match service.get? filesField with
  | none => .ok service
  | some declared => do
    let references ← texts filesField declared
    if references.isEmpty then .ok service
    else match lookup with
      | none => .error (.resource manifest .noLookup)
      | some lookup => do
        let own ← ownEntries service
        let entries ← addFiles lookup manifest own references.reverse
        .ok (service.insert environmentField (.strings entries))

end ComposeMerge
