import ComposeMerge.Text.Blank

/-!
# Words of a command

Cutting a command into words with the quoting rules of a shell.

* Words are separated by white space.
* Between single quotes every character stands for itself.
* Between double quotes a backslash stands for itself, unless one of `"`, `\`, `$` and a grave
  accent follows it.
* Elsewhere a backslash takes the next character as it is.
-/

namespace ComposeMerge

/-- Why a text cannot be cut into words. -/
inductive WordsFault where
  | openSingleQuote (input : String)
  | openDoubleQuote (input : String)
  | trailingBackslash (input : String)
  deriving DecidableEq

/-- The words of a fault. -/
def WordsFault.message : WordsFault → String
  | .openSingleQuote input => s!"unterminated single quote in \"{input}\""
  | .openDoubleQuote input => s!"unterminated double quote in \"{input}\""
  | .trailingBackslash input => s!"trailing backslash in \"{input}\""

namespace Words

/-- Where in its quoting a text is being read. -/
inductive Mode where
  | plain
  | escaped
  | single
  | double
  | doubleEscaped
  deriving DecidableEq

/-- The characters that a backslash escapes between double quotes. -/
def isEscapable (c : Char) : Bool := c = '"' || c = '\\' || c = '$' || c.toNat = 0x60

/-- What is wrong when a text ends in a mode. -/
def Mode.unfinished : Mode → Option (String → WordsFault)
  | .plain => none
  | .escaped => some .trailingBackslash
  | .single => some .openSingleQuote
  | .double | .doubleEscaped => some .openDoubleQuote

/-- A word being read, with its characters in reverse; `none` between words. -/
abbrev Pending := Option (List Char)

/-- The pending word with one more character. -/
def Pending.push (word : Pending) (c : Char) : Pending := some (c :: word.getD [])

/-- The pending word, which may still be empty. -/
def Pending.started (word : Pending) : Pending := some (word.getD [])

/-- The pending word as a list of at most one word. -/
def Pending.close (word : Pending) : List String :=
  word.toList.map fun w => String.ofList w.reverse

/-- The mode and the pending word after one character that ends no word. -/
def step (mode : Mode) (word : Pending) (c : Char) : Mode × Pending :=
  match mode with
  | .plain =>
    if c = '\'' then (.single, word.started)
    else if c = '"' then (.double, word.started)
    else if c = '\\' then (.escaped, word.started)
    else (.plain, word.push c)
  | .escaped => (.plain, word.push c)
  | .single => if c = '\'' then (.plain, word) else (.single, word.push c)
  | .double =>
    if c = '"' then (.plain, word)
    else if c = '\\' then (.doubleEscaped, word)
    else (.double, word.push c)
  | .doubleEscaped =>
    (.double, if isEscapable c then word.push c else Pending.push (word.push '\\') c)

/-- The words of the rest of a text, after the pending word. -/
def cut (mode : Mode) (word : Pending) : List Char → Except (String → WordsFault) (List String)
  | [] =>
    match mode.unfinished with
    | some fault => .error fault
    | none => .ok word.close
  | c :: s =>
    if mode = .plain && Text.isBlank c then (cut .plain none s).map (word.close ++ ·)
    else cut (step mode word c).1 (step mode word c).2 s

/-- The words of a command. -/
def split (input : String) : Except WordsFault (List String) :=
  (cut .plain none input.toList).mapError fun fault => fault input

end Words
end ComposeMerge
