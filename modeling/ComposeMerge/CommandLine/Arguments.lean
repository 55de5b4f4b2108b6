import ComposeMerge.Text.Blank

/-!
# Command line arguments

What the arguments of the command line ask for. There are two commands, `config` and `services`,
with options of their own; some options may stand before the command or after it.

* `Level` is a command, or the part before the command, and `Level.options` what may stand there;
* an option that takes a value takes the next argument, unless that is an option itself;
* `Arguments.parse` gives the arguments their meaning, or says how they are refused (`Usage`).
-/

namespace ComposeMerge
namespace CommandLine

/-- How arguments are refused, or answered without running a command. -/
inductive Usage where
  | displayHelp
  | displayVersion
  | displayHelpOnMissing
  | missingSubcommand
  | invalidSubcommand
  | unknownArgument
  | invalidValue
  | argumentConflict
  | tooManyValues
  deriving DecidableEq

/-- Whether the arguments were answered rather than refused. -/
def Usage.isAnswer : Usage → Bool
  | .displayHelp | .displayVersion => true
  | _ => false

/-- The options. -/
inductive Switch where
  | file
  | projectName
  | noInterpolate
  | strictEnv
  | services
  | volumes
  | format
  | long
  | help
  | version
  deriving DecidableEq

namespace Switch

/-- Whether an option takes a value. -/
def takesValue : Switch → Bool
  | .file | .projectName | .format => true
  | _ => false

/-- Whether an option may be given more than once. -/
def isRepeatable : Switch → Bool
  | .file => true
  | _ => false

/-- Whether an option accepts a value. -/
def accepts (s : Switch) (value : String) : Bool :=
  match s with
  | .file => !value.isEmpty
  | .format => value = "yaml" || value = "json"
  | _ => true

end Switch

/-- The spellings of an option: a long name and perhaps a letter. -/
structure Spelling where
  switch : Switch
  name : String
  letter : Option Char

/-- The commands, and the part before them. -/
inductive Level where
  | top
  | config
  | services
  deriving DecidableEq

namespace Level

/-- The options that may stand anywhere. -/
def everywhere : List Spelling :=
  [⟨.file, "file", some 'f'⟩, ⟨.projectName, "project-name", some 'p'⟩,
   ⟨.noInterpolate, "no-interpolate", none⟩, ⟨.strictEnv, "strict-env", none⟩,
   ⟨.help, "help", some 'h'⟩]

/-- The options of a level of their own. -/
def own : Level → List Spelling
  | .top => [⟨.version, "version", some 'V'⟩]
  | .config => [⟨.services, "services", none⟩, ⟨.volumes, "volumes", none⟩,
      ⟨.format, "format", none⟩]
  | .services => [⟨.long, "long", some 'l'⟩]

/-- The options of a level. -/
def options (l : Level) : List Spelling := l.own ++ everywhere

/-- The option of a long name. -/
def byName? (l : Level) (name : String) : Option Switch :=
  (l.options.find? fun s => s.name = name).map Spelling.switch

/-- The option of a letter. -/
def byLetter? (l : Level) (letter : Char) : Option Switch :=
  (l.options.find? fun s => s.letter = some letter).map Spelling.switch

/-- The command of a name. -/
def ofName? (name : String) : Option Level :=
  if name = "config" then some .config
  else if name = "services" then some .services
  else none

/-- How an argument is refused that is no option. -/
def refuse (l : Level) (isAfterDashes : Bool) (arg : String) : Usage :=
  match l with
  | .top =>
    if isAfterDashes && ((ofName? arg).isSome || arg = "help") then .unknownArgument
    else .invalidSubcommand
  | _ => .unknownArgument

end Level

/-- The options given at a level so far. The last one may still wait for its value, or for being
checked. -/
structure Given where
  options : List (Switch × String)
  pending : Option (Switch × Option String)

namespace Given

/-- No options. -/
def empty : Given := ⟨[], none⟩

/-- Whether an option is given. -/
def has (g : Given) (s : Switch) : Bool := g.options.any fun o => o.1 = s

/-- The values of an option, in order. -/
def values (g : Given) (s : Switch) : List String :=
  (g.options.filter fun o => o.1 = s).map Prod.snd

/-- Takes an option with its value, if it is one that takes values. -/
def accept (g : Given) (s : Switch) (value : Option String) : Except Usage Given :=
  match s with
  | .help => .error .displayHelp
  | .version => .error .displayVersion
  | s =>
    if s.takesValue && value.isNone then .error .invalidValue
    else if g.has s && !s.isRepeatable then .error .argumentConflict
    else if value.all s.accepts then .ok { g with options := g.options ++ [(s, value.getD "")] }
    else .error .invalidValue

/-- Takes the option that is pending. -/
def settle (g : Given) : Except Usage Given :=
  match g.pending with
  | some (s, value) => accept { g with pending := none } s value
  | none => .ok g

/-- An option, with the value that is attached to it. -/
def add (g : Given) (s : Switch) (attached : Option String) : Except Usage Given := do
  let g ← g.settle
  match attached with
  | some value => g.accept s (some value)
  | none => if s.takesValue then .ok { g with pending := some (s, none) } else g.accept s none

/-- An option by its long name, perhaps with `=` and a value. -/
def addLong (g : Given) (l : Level) (s : List Char) : Except Usage Given :=
  let (name, attached) := match Text.splitFirst '=' s with
    | some (name, value) => (name, some (String.ofList value))
    | none => (s, none)
  match l.byName? (String.ofList name) with
  | none => .error .unknownArgument
  | some switch =>
    if attached.isSome && !switch.takesValue then .error .tooManyValues
    else g.add switch attached

/-- The value that is attached to an option letter. -/
def attachedTo (s : List Char) : Option String :=
  if s.isEmpty then none
  else some (String.ofList ((Text.dropStart? ['='] s).getD s))

/-- Options by their letters; after one that takes a value, the rest is the value. -/
def addLetters (g : Given) (l : Level) : List Char → Except Usage Given
  | [] => .ok g
  | c :: s =>
    match l.byLetter? c with
    | none => .error .unknownArgument
    | some switch =>
      if switch.takesValue then g.add switch (attachedTo s)
      else (g.add switch none).bind fun g => addLetters g l s

end Given

/-- What is found at a level: its options, and the command that follows with its arguments. -/
structure Found where
  given : Given
  command : Option (Level × List String)

/-- What an argument is, when no option waits for it. -/
inductive Argument where
  | dashes
  | long (s : List Char)
  | letters (s : List Char)
  | word

/-- The kind of an argument. -/
def Argument.ofString (arg : String) : Argument :=
  match arg.toList with
  | ['-', '-'] => .dashes
  | '-' :: '-' :: s => .long s
  | ['-'] => .word
  | '-' :: s => .letters s
  | _ => .word

/-- How the arguments after `help` are answered: they name a command. -/
def helpFor : List String → Usage
  | [] => .displayHelp
  | [name] => if (Level.ofName? name).isSome || name = "help" then .displayHelp
      else .invalidSubcommand
  | _ => .invalidSubcommand

/-- Reads the arguments of a level, up to a command. -/
def readLevel (l : Level) (g : Given) : List String → Except Usage Found
  | [] => .ok ⟨g, none⟩
  | arg :: rest =>
    match Argument.ofString arg with
    | .dashes =>
      match rest with
      | [] => .ok ⟨g, none⟩
      | next :: _ => .error (l.refuse true next)
    | .long s => (g.addLong l s).bind fun g => readLevel l g rest
    | .letters s => (g.addLetters l s).bind fun g => readLevel l g rest
    | .word =>
      match g.pending with
      | some (s, none) => readLevel l { g with pending := some (s, some arg) } rest
      | _ =>
        match l, Level.ofName? arg with
        | .top, some command => .ok ⟨g, some (command, rest)⟩
        | .top, none => .error (if arg = "help" then helpFor rest else l.refuse false arg)
        | _, _ => .error (l.refuse false arg)

/-- The formats of a printed configuration. -/
inductive Format where
  | yaml
  | json
  deriving DecidableEq

/-- The commands with their own options. -/
inductive Command where
  /-- Print the configuration, or only the names of its services or volumes. -/
  | config (servicesOnly volumesOnly : Bool) (format : Format)
  /-- List the services in start order, perhaps with where they come from. -/
  | services (long : Bool)
  deriving DecidableEq

/-- What the command line asks for. -/
structure Arguments where
  files : List String
  projectName : Option String
  noInterpolate : Bool
  strictEnv : Bool
  command : Command
  deriving DecidableEq

/-- The command of a level with its options. -/
def commandOf (l : Level) (g : Given) : Command :=
  match l with
  | .services => .services (g.has .long)
  | _ => .config (g.has .services) (g.has .volumes)
      (if g.values .format = ["json"] then .json else .yaml)

/-- The options of a command together with those before it; the former count where both are
given. -/
def combine (outer inner : Given) (name : Option String) (l : Level) : Arguments where
  files := if inner.has .file then inner.values .file else outer.values .file
  projectName := ((inner.values .projectName).head?.or (outer.values .projectName).head?).or name
  noInterpolate := outer.has .noInterpolate || inner.has .noInterpolate
  strictEnv := outer.has .strictEnv || inner.has .strictEnv
  command := commandOf l inner

/-- How arguments without a command are refused. -/
def withoutCommand (g : Given) (name : Option String) : Usage :=
  if g.options.isEmpty && name.isNone then .displayHelpOnMissing else .missingSubcommand

/-- What arguments ask for; `name` is the project name that the environment gives. -/
def Arguments.parse (name : Option String) (args : List String) : Except Usage Arguments := do
  let top ← readLevel .top .empty args
  match top.command with
  | none => do
    let g ← top.given.settle
    .error (withoutCommand g name)
  | some (l, rest) => do
    let found ← readLevel l .empty rest
    let inner ← found.given.settle
    if inner.has .services && inner.has .volumes then .error .argumentConflict
    else do
      let outer ← top.given.settle
      .ok (combine outer inner name l)

end CommandLine
end ComposeMerge
