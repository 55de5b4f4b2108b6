import ComposeMerge.Config.Service
import ComposeMerge.Dependency.Order

/-!
# Dependencies between services

A service needs the services that its `depends_on`, `links` and `volumes_from` fields refer to.
References to services that are not there, and those of a service to itself, do not count.
-/

namespace ComposeMerge
namespace Dependency

/-- The text before the first colon. -/
def beforeColon (s : List Char) : List Char :=
  match Text.splitFirst ':' s with
  | some (before, _) => before
  | none => s

/-- The service that a `links` entry refers to. -/
def linkTarget (link : String) : String := String.ofList (beforeColon link.toList)

/-- The service that a `volumes_from` entry refers to, unless it refers to a container. -/
def volumeSource? (source : String) : Option String :=
  let s := source.toList
  if Text.startsWith "container:".toList s then none
  else
    let s := (Text.dropStart? "service:".toList s).getD s
    some (String.ofList (beforeColon s))

/-- The services that a service refers to. -/
def references (c : ServiceConfig) : List String :=
  c.dependsOn ++ c.links.map linkTarget ++ c.volumesFrom.filterMap volumeSource?

/-- The graph with the dependencies of one service. -/
def addReferences (services : Services) (g : Graph) (name : String) (c : ServiceConfig) : Graph :=
  ((references c).filter fun d => services.contains d && d ≠ name).foldl
    (fun g d => g.addDependency name d) g

/-- The dependency graph of some services. All of them are mentioned first, by their names. -/
def Graph.ofServices (services : Services) : Graph :=
  services.entries.foldl (fun g e => addReferences services g e.1 e.2)
    (services.names.foldl Graph.addService .empty)

end Dependency
end ComposeMerge
