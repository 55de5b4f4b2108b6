import ComposeMerge.Dependency.Services
import ComposeMerge.Loading
import ComposeMerge.Merging

/-!
# Projects

A project gathers what several manifests define, one after the other.

* `Project.ofContext` sets a project up: its name, and where variables and files come from;
* `Project.add` merges one manifest into it; when that fails, nothing changes;
* `Project.load` adds all manifests of the project, up to the first that fails.
-/

namespace ComposeMerge

/-- What the manifests added so far define. -/
structure ProjectState where
  /-- The version declared by the last manifest. -/
  version : String
  services : Services
  volumes : Table VolumeConfig
  networks : Table NetworkConfig
  /-- The manifests, in order. -/
  files : List Path
  deriving DecidableEq

/-- The state without manifests. -/
def ProjectState.empty : ProjectState := ⟨"", .empty, .empty, .empty, []⟩

/-- The state after a manifest. -/
def ProjectState.commit (s : ProjectState) (file : Path) (m : Merged) : ProjectState where
  version := m.version
  services := s.services.insertAll m.services.entries
  volumes := s.volumes.insertAll m.volumes.entries
  networks := s.networks.insertAll m.networks.entries
  files := s.files ++ [file]

/-- The start order of the services. -/
def ProjectState.startOrder (s : ProjectState) : Except Error (List String) :=
  (Dependency.Graph.ofServices s.services).order

/-- What a project is set up from. -/
structure ProjectContext where
  /-- The name; without one, the directory of the first manifest gives it. -/
  name : Option String
  /-- The manifest files. -/
  manifests : List Path
  /-- Manifests in memory, added after the files. -/
  inlineManifests : List (Path × Bytes)
  /-- Where variables come from; otherwise the process and then a `.env` file. -/
  environment : Option Environment
  /-- Where files come from; otherwise the file system. -/
  resources : Option ResourceLookup
  options : Options

/-- The machine that a project is set up on. -/
structure Host where
  /-- The variables of the host. -/
  environment : Environment
  files : FileSystem

/-- A project. -/
structure Project where
  name : String
  manifests : List Path
  inlineManifests : List (Path × Bytes)
  around : Surroundings
  options : Options
  state : ProjectState

namespace Project

/-- The character that a character of a name becomes in lower case, if that is ASCII. Beyond ASCII
there are two: the Kelvin sign, and the capital I with a dot. -/
def lowerAscii (c : Char) : Char :=
  if c = '\u212A' then 'k' else if c = '\u0130' then 'i' else c.toLower

/-- A name in lower case, without everything but ASCII letters and digits. -/
def normalizeName (name : String) : String :=
  String.ofList ((name.toList.map lowerAscii).filter Char.isAlphanum)

/-- The directory of the first manifest. -/
def baseDirectory (manifests : List Path) : Path :=
  match manifests.head?.bind Path.parent? with
  | some dir => if dir.isEmpty then "." else dir
  | none => "."

/-- The name of the directory of the first manifest. -/
def directoryName (files : FileSystem) (manifests : List Path) : Except Error String :=
  let dir := baseDirectory manifests
  match files.canonicalName dir with
  | .error failure => .error (.io dir failure)
  | .ok none => .error (.project (.noName dir))
  | .ok (some name) => .ok name

/-- The name of a project. -/
def nameOf (files : FileSystem) (context : ProjectContext) : Except Error String := do
  let name ← match context.name with
    | some name => .ok name
    | none => directoryName files context.manifests
  let name := normalizeName name
  if name.isEmpty then .error (.project .emptyName) else .ok name

/-- The variables of a `.env` file; a file that is not there defines none. -/
def readDotEnv (files : FileSystem) (path : Path) : Except Error Environment :=
  match files.readText path with
  | .ok content => .ok (.ofText content)
  | .error .notFound => .ok .empty
  | .error failure => .error (.io path failure)

/-- Where the variables of a project come from. -/
def environmentOf (host : Host) (context : ProjectContext) : Except Error Environment :=
  match context.environment with
  | some env => .ok env
  | none => do
    let dotEnv ← readDotEnv host.files (Path.join (baseDirectory context.manifests) ".env")
    .ok (.firstOf [host.environment, dotEnv])

/-- Where the files of a host come from. -/
def fileLookup (host : Host) : ResourceLookup :=
  .fromFiles host.files host.environment

/-- An empty project with a name, which takes variables and files from the host. -/
def ofName (host : Host) (name : String) : Project where
  name := normalizeName name
  manifests := []
  inlineManifests := []
  around := ⟨host.environment, some (fileLookup host)⟩
  options := .standard
  state := .empty

/-- The project of a context. -/
def ofContext (host : Host) (context : ProjectContext) : Except Error Project := do
  let name ← nameOf host.files context
  let environment ← environmentOf host context
  .ok {
    name := name
    manifests := context.manifests
    inlineManifests := context.inlineManifests
    around := ⟨environment, some (context.resources.getD (fileLookup host))⟩
    options := context.options
    state := .empty }

/-- What one manifest defines on top of the project. -/
def merge (p : Project) (file : Path) (content : Bytes) : Except Error Merged := do
  let m ← Manifest.load content
  mergeManifest p.state.services p.around p.options file m

/-- The project with one more manifest. -/
def add (p : Project) (file : Path) (content : Bytes) : Except Error Project := do
  let merged ← p.merge file content
  .ok { p with state := p.state.commit file merged }

/-- The content of a manifest file. -/
def readManifest (files : FileSystem) (path : Path) : Except Error Bytes :=
  (files.read path).mapError (.io path)

/-- All manifests of a project, the files first. -/
def sources (files : FileSystem) (p : Project) : List (Path × Except Error Bytes) :=
  p.manifests.map (fun path => (path, readManifest files path)) ++
    p.inlineManifests.map fun (path, content) => (path, .ok content)

/-- The project with manifests added one after the other, up to the first error. -/
def addAll (p : Project) : List (Path × Except Error Bytes) → Project × Except Error Unit
  | [] => (p, .ok ())
  | (path, content) :: rest =>
    match content.bind (p.add path) with
    | .ok p => addAll p rest
    | .error e => (p, .error e)

/-- The project with all its manifests added. -/
def load (files : FileSystem) (p : Project) : Project × Except Error Unit :=
  match p.sources files with
  | [] => (p, .error (.project .noManifest))
  | sources => p.addAll sources

end Project
end ComposeMerge
