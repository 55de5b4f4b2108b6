import ComposeMerge.Entries
import ComposeMerge.Text.Blank

/-!
# Parts of a configuration

The typed settings that services, volumes and networks are made of.

* a service has settings of `Build`, `Logging`, `Extends`, `ServiceNetwork` and `Ulimit`;
* `VolumeConfig` and `NetworkConfig` are the top-level volumes and networks.
-/

namespace ComposeMerge

/-- How an image is built. -/
structure Build where
  /-- A directory or a URL. -/
  context : Option String
  /-- The path of the Dockerfile, seen from the context. -/
  dockerfile : Option String
  /-- Build-time arguments. -/
  args : Table String
  deriving DecidableEq

/-- Where the output of a container goes. -/
structure Logging where
  driver : Option String
  options : Table String
  deriving DecidableEq

/-- The service that a service inherits from, and the manifest it is found in. -/
structure Extends where
  service : String
  file : Option String
  deriving DecidableEq

/-- How a service takes part in a network. -/
structure ServiceNetwork where
  aliases : List String
  ipv4 : Option String
  ipv6 : Option String
  deriving DecidableEq

/-- A resource limit. -/
structure Ulimit where
  soft : Int64
  hard : Int64
  deriving DecidableEq

/-- Whether a volume or a network is created outside the project. -/
inductive External where
  | flag (isExternal : Bool)
  /-- It is, under this name. -/
  | named (name : String)
  deriving DecidableEq

/-- A top-level volume. -/
structure VolumeConfig where
  driver : Option String
  driverOpts : Table String
  external : Option External
  deriving DecidableEq

/-- A pool of addresses. -/
structure IpamPool where
  subnet : Option String
  ipRange : Option String
  gateway : Option String
  auxAddresses : Table String
  deriving DecidableEq

/-- How addresses are given out. -/
structure Ipam where
  driver : Option String
  pools : List IpamPool
  deriving DecidableEq

/-- A top-level network. -/
structure NetworkConfig where
  driver : Option String
  driverOpts : Table String
  external : Option External
  ipam : Option Ipam
  deriving DecidableEq

def Build.empty : Build := ⟨none, none, .empty⟩
def Logging.empty : Logging := ⟨none, .empty⟩
def ServiceNetwork.empty : ServiceNetwork := ⟨[], none, none⟩
def VolumeConfig.empty : VolumeConfig := ⟨none, .empty, none⟩
def IpamPool.empty : IpamPool := ⟨none, none, none, .empty⟩
def Ipam.empty : Ipam := ⟨none, []⟩
def NetworkConfig.empty : NetworkConfig := ⟨none, .empty, none, none⟩

/-! ### Remote build contexts -/

/-- The starts of a URL. -/
def urlStarts : List String := ["http://", "https://"]

/-- The starts of a git remote. -/
def gitStarts : List String := ["git://", "github.com/", "git@"]

/-- Whether a text begins with one of some starts. -/
def startsWithAny (starts : List String) (s : List Char) : Bool :=
  starts.any fun start => Text.startsWith start.toList s

/-- Whether a URL names a git repository: its path ends in `.git`, and a fragment is not empty. -/
def isGitUrl (s : List Char) : Bool :=
  startsWithAny urlStarts s &&
    match Text.splitFirst '#' s with
    | some (path, fragment) => !fragment.isEmpty && (Text.dropEnd? ".git".toList path).isSome
    | none => (Text.dropEnd? ".git".toList s).isSome

/-- Whether a build context is fetched from elsewhere: an HTTP(S) URL or a git remote. -/
def isRemoteContext (context : String) : Bool :=
  let s := context.toList
  startsWithAny urlStarts s || startsWithAny gitStarts s || isGitUrl s

/-- Whether the context of a build is fetched from elsewhere. -/
def Build.isRemote (b : Build) : Bool := b.context.any isRemoteContext

end ComposeMerge
