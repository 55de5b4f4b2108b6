/-!
# Dependency graphs

Which service must be started before which.

* `services` lists the services in the order in which they were first mentioned;
* `edges` lists the pairs of a dependency and its dependent, the newest first, each pair once;
* `addDependency` mentions the dependency before the dependent.
-/

namespace ComposeMerge
namespace Dependency

/-- A dependency and the service that needs it. -/
structure Edge where
  dependency : String
  dependent : String
  deriving DecidableEq

/-- A dependency graph. -/
structure Graph where
  services : List String
  edges : List Edge
  deriving DecidableEq

namespace Graph

/-- The graph without services. -/
def empty : Graph := ⟨[], []⟩

/-- The graph with a service in it. -/
def addService (g : Graph) (name : String) : Graph :=
  if name ∈ g.services then g else { g with services := g.services ++ [name] }

/-- The graph with an edge in it. -/
def addEdge (g : Graph) (e : Edge) : Graph :=
  if e ∈ g.edges then g else { g with edges := e :: g.edges }

/-- The graph in which `dependent` needs `dependency`. -/
def addDependency (g : Graph) (dependent dependency : String) : Graph :=
  ((g.addService dependency).addService dependent).addEdge ⟨dependency, dependent⟩

/-- The number of a service: how many were mentioned before it. -/
def index (g : Graph) (name : String) : Nat := g.services.idxOf name

/-- The services that need `name`, by the newest edge first. -/
def dependents (g : Graph) (name : String) : List String :=
  (g.edges.filter fun e => e.dependency = name).map Edge.dependent

/-- The services that `name` needs, by the newest edge first. -/
def dependencies (g : Graph) (name : String) : List String :=
  (g.edges.filter fun e => e.dependent = name).map Edge.dependency

@[simp]
theorem mem_dependents {g : Graph} {a b : String} : b ∈ g.dependents a ↔ ⟨a, b⟩ ∈ g.edges := by
  simp only [dependents, List.mem_map, List.mem_filter, decide_eq_true_eq]
  constructor
  · rintro ⟨⟨x, y⟩, ⟨h, rfl⟩, rfl⟩
    exact h
  · exact fun h => ⟨⟨a, b⟩, ⟨h, rfl⟩, rfl⟩

@[simp]
theorem mem_dependencies {g : Graph} {a b : String} :
    a ∈ g.dependencies b ↔ ⟨a, b⟩ ∈ g.edges := by
  simp only [dependencies, List.mem_map, List.mem_filter, decide_eq_true_eq]
  constructor
  · rintro ⟨⟨x, y⟩, ⟨h, rfl⟩, rfl⟩
    exact h
  · exact fun h => ⟨⟨a, b⟩, ⟨h, rfl⟩, rfl⟩

end Graph
end Dependency
end ComposeMerge
