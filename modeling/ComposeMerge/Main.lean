import ComposeMerge.CommandLine.Run

/-!
# The program

The outer layer around `CommandLine.run`: it looks at the environment and the file system, prints
what comes of the command line, and gives its status.

A command names the files it needs only while it runs. It is run on what has been seen of the file
system so far; where it meets a path that has not been looked at, the path is looked at and the
command is run again.
-/

namespace ComposeMerge
namespace Main

open CommandLine

/-- What was seen at a path. -/
structure Sight where
  content : Except IoFailure Bytes
  canonicalName : Except IoFailure (Option String)

/-- The failure that an error of the operating system stands for. -/
def failureOf : IO.Error → IoFailure
  | .noFileOrDirectory .. => .notFound
  | e => .other (toString e)

/-- The last name of an absolute path; the root has none. -/
def lastName (path : Path) : Option String :=
  match (Path.components path).getLast? with
  | some (c :: name) => some (String.ofList (c :: name))
  | _ => none

/-- Looks at a path. -/
def look (path : Path) : IO Sight := do
  let content ← (IO.FS.readBinFile path).toBaseIO
  let canonical ← (IO.FS.realPath path).toBaseIO
  return {
    content := (content.map fun bytes => bytes.toList).mapError failureOf
    canonicalName := (canonical.map fun p => lastName (toString p)).mapError failureOf }

/-- The file system as far as it has been seen. -/
def seen (sights : Entries Sight) : FileSystem where
  read p := ((sights.get? p).map Sight.content).getD (.error .unseen)
  isPresent p := (sights.get? p).any fun s => s.canonicalName.isOk
  canonicalName p := ((sights.get? p).map Sight.canonicalName).getD (.error .unseen)

/-- The path that a command failed at because it has not been looked at. -/
def unseenPath? : Outcome → Option Path
  | .failed f =>
    match f.cause? with
    | some (.io path .unseen) => some path
    | some (.resource _ (.unreadable path .unseen)) => some path
    | _ => none
  | _ => none

/-- Runs a command line, looking at the paths that it asks for. -/
partial def runSeeing (env : Environment) (args : List String) (sights : Entries Sight) :
    IO Outcome := do
  let outcome := run ⟨env, seen sights⟩ args
  match unseenPath? outcome with
  | some path => runSeeing env args (sights.insert path (← look path))
  | none => return outcome

/-- The variables of the process. -/
def hostVariables : IO (Entries String) := do
  let bytes ← try IO.FS.readBinFile "/proc/self/environ" catch _ => pure .empty
  let text := String.fromUTF8? bytes
  let definitions := Text.splitOn '\x00' ((text.getD "").toList)
  return Entries.ofList (definitions.filterMap fun definition =>
    (Text.splitFirst '=' definition).map fun (name, value) =>
      (String.ofList name, String.ofList value))

/-- The causes of a failure on a line each, numbered if there are several. -/
def causeLines (causes : List String) : List String :=
  match causes with
  | [cause] => ["    " ++ cause]
  | _ => causes.mapIdx fun i cause => s!"    {i}: " ++ cause

/-- A failure as it is reported: its outermost message, and the causes below it. -/
def failureReport (f : Failure) : String :=
  let heading := "Error: " ++ f.chain.headD ""
  match f.chain.tail with
  | [] => heading
  | causes => "\n".intercalate ([heading, "", "Caused by:"] ++ causeLines causes)

/-- How the program is used. -/
def usageText : String :=
  "Usage: compose-merge [OPTIONS] <COMMAND>\n\nCommands:\n" ++
  "  config    Print the merged configuration\n" ++
  "  services  List services in dependency order\n\nOptions:\n" ++
  "  -f, --file <FILE>          Compose file to load; repeat to merge several in order\n" ++
  "  -p, --project-name <NAME>  Project name (defaults to the directory of the first file)\n" ++
  "      --no-interpolate       Leave $VAR references untouched\n" ++
  "      --strict-env           Fail on references to undefined variables\n" ++
  "  -h, --help                 Print help\n" ++
  "  -V, --version              Print version"

/-- Prints what comes of a command line. -/
def print : Outcome → IO Unit
  | .printed text => IO.print text
  | .failed f => IO.eprintln (failureReport f)
  | .usage .displayVersion => IO.println "compose-merge 0.1.0"
  | .usage u => if u.isAnswer then IO.println usageText else IO.eprintln usageText

end Main
end ComposeMerge

open ComposeMerge in
def main (args : List String) : IO UInt32 := do
  let env := Environment.ofEntries (← Main.hostVariables)
  let usual := [Path.join "." CommandLine.usualManifest, Path.join "." CommandLine.usualOverride]
  let sights ← usual.mapM fun path => do return (path, ← Main.look path)
  let outcome ← Main.runSeeing env args (Entries.ofList sights)
  Main.print outcome
  return outcome.status.toUInt32
