import ComposeMerge.CommandLine.Arguments
import ComposeMerge.CommandLine.Report

/-!
# Running a command

A command line finds its manifests, merges them into a project, and prints what it is asked for.

* `manifestsOf` chooses the manifests: those given, else those named by the environment, else the
  ones with the usual names;
* `Failure` is a command that came to nothing, `Failure.chain` the messages for it from the
  outermost to the innermost cause;
* `run` is the whole command, as a function of the arguments and the host.
-/

namespace ComposeMerge
namespace CommandLine

/-- The variable that names the manifests, and the one that names the project. -/
def manifestsVariable : String := "COMPOSE_FILE"
def nameVariable : String := "COMPOSE_PROJECT_NAME"

/-- The manifest that is looked for in the working directory, and the one merged after it. -/
def usualManifest : String := "docker-compose.yml"
def usualOverride : String := "docker-compose.override.yml"

/-- The manifests in the working directory. -/
def usualManifests (files : FileSystem) : List Path :=
  let main := Path.join "." usualManifest
  let extra := Path.join "." usualOverride
  if files.isPresent main then main :: (if files.isPresent extra then [extra] else []) else []

/-- The manifests that the environment names, between colons. -/
def namedManifests (env : Environment) : Option (List Path) :=
  match env manifestsVariable with
  | some value =>
    if value.isEmpty then none else some ((Text.splitOn ':' value.toList).map String.ofList)
  | none => none

/-- The manifests of a command. -/
def manifestsOf (host : Host) (given : List Path) : List Path :=
  if given.isEmpty then (namedManifests host.environment).getD (usualManifests host.files)
  else given

/-- How a command merges. -/
def optionsOf (arguments : Arguments) : Options :=
  { Options.standard with
    interpolate := !arguments.noInterpolate
    undefined := if arguments.strictEnv then .fail else .blank }

/-- Why a command comes to nothing. -/
inductive Failure where
  | noManifest
  | setUp (error : Error)
  | load (error : Error)
  | order (error : Error)
  deriving DecidableEq

namespace Failure

/-- What was being done. -/
def context : Failure → List String
  | .noManifest =>
    [s!"no {usualManifest} found in the current directory; pass one with -f"]
  | .setUp _ => ["failed to create project"]
  | .load _ => ["failed to load compose files"]
  | .order _ => []

/-- The error behind a failure. -/
def cause? : Failure → Option Error
  | .noManifest => none
  | .setUp error | .load error | .order error => some error

/-- The messages of an error: its own, and that of the file system behind it. -/
def errorMessages (error : Error) : List String :=
  error.message :: match error with
    | .io _ failure => [failure.message]
    | _ => []

/-- All messages of a failure, from the outermost to the innermost. -/
def chain (f : Failure) : List String := f.context ++ f.cause?.elim [] errorMessages

end Failure

/-- What comes of a command line. -/
inductive Outcome where
  /-- The command printed this. -/
  | printed (text : String)
  | failed (failure : Failure)
  /-- No command was run. -/
  | usage (usage : Usage)
  deriving DecidableEq

/-- The status that tells other programs what came of a command line. -/
def Outcome.status : Outcome → Nat
  | .printed _ => 0
  | .failed _ => 1
  | .usage u => if u.isAnswer then 0 else 2

/-- The project of a command, with its manifests merged. -/
def loadProject (host : Host) (arguments : Arguments) : Except Failure Project :=
  match manifestsOf host arguments.files with
  | [] => .error .noManifest
  | manifests => do
    let project ← (Project.ofContext host
      ⟨arguments.projectName, manifests, [], none, none, optionsOf arguments⟩).mapError .setUp
    match project.load host.files with
    | (project, .ok ()) => .ok project
    | (_, .error error) => .error (.load error)

/-- What a command prints about a project. -/
def report (s : ProjectState) : Command → Except Failure String
  | .config servicesOnly volumesOnly format =>
    if servicesOnly then .ok (Report.lines s.services.names)
    else if volumesOnly then .ok (Report.lines s.volumes.names)
    else .ok (match format with
      | .yaml => Report.yaml s
      | .json => Report.json s)
  | .services long => (s.startOrder.mapError .order).map (Report.listing s long)

/-- Runs a command. -/
def execute (host : Host) (arguments : Arguments) : Except Failure String := do
  let project ← loadProject host arguments
  report project.state arguments.command

/-- Runs a command line. -/
def run (host : Host) (args : List String) : Outcome :=
  match Arguments.parse (host.environment nameVariable) args with
  | .error usage => .usage usage
  | .ok arguments =>
    match execute host arguments with
    | .ok text => .printed text
    | .error failure => .failed failure

end CommandLine
end ComposeMerge
