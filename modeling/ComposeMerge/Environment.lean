import ComposeMerge.Entries
import ComposeMerge.Text.Blank

/-!
# Environments

Where variables get their values.

* an `Environment` answers a name with a value, or with nothing for a variable that is not set;
* `ofEntries` answers from a list of variables, `firstOf` from the first environment that knows;
* `ofText` reads the `KEY=VALUE` lines of an environment file.
-/

namespace ComposeMerge

/-- The values of variables. -/
abbrev Environment := String → Option String

namespace Environment

/-- Knows no variable. -/
def empty : Environment := fun _ => none

/-- The variables of a list. -/
def ofEntries (vars : Entries String) : Environment := fun name => vars.get? name

/-- The first value that one of several environments has. -/
def firstOf (envs : List Environment) : Environment := fun name => envs.findSome? (· name)

/-- Whether a trimmed line holds nothing but a comment, or nothing at all. -/
def isComment (line : List Char) : Bool := line = [] || line.head? = some '#'

/-- A value without the quote character that both starts and ends it. -/
def unquoteWith? (quote : Char) (value : List Char) : Option (List Char) :=
  (Text.dropStart? [quote] value).bind (Text.dropEnd? [quote])

/-- A value without a pair of quotes around it. -/
def unquote (value : List Char) : List Char :=
  ((unquoteWith? '"' value).or (unquoteWith? '\'' value)).getD value

/-- The variable that a line defines: comments and lines without `=` define none. -/
def definition? (line : List Char) : Option (String × String) :=
  let line := Text.trim line
  if isComment line then none
  else (Text.splitFirst '=' line).map fun (key, value) =>
    (String.ofList (Text.trim key), String.ofList (unquote (Text.trim value)))

/-- The variables that the lines of a text define; of two definitions the later counts. -/
def definitions (content : List Char) : Table String :=
  Table.ofList ((Text.lines content).filterMap definition?)

/-- The environment given by the lines of a text. -/
def ofText (content : List Char) : Environment := ofEntries (definitions content).entries

end Environment
end ComposeMerge
