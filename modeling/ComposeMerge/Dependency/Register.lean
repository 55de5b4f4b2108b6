import ComposeMerge.Dependency.Order
import ComposeMerge.Entries

/-!
# Registers of services

A dependency graph in the form in which it is kept: services have numbers, and an edge joins two
numbers.

* `NodeGraph` is what a register uses of a graph with numbered nodes, and `LawfulNodeGraph` what it
  relies on;
* `EdgeList` is such a graph, made of two lists;
* a `Register` holds the numbers of the services under their names, beside the graph;
* `Register.named` is the dependency graph that a register stands for.
-/

namespace ComposeMerge
namespace Dependency

/-- Graphs whose nodes carry texts and are told apart by numbers. -/
class NodeGraph (G : Type) where
  /-- The graph without nodes. -/
  empty : G
  /-- How many nodes there are. -/
  nodeCount : G → Nat
  /-- The text of the node with a number. -/
  text? : G → Nat → Option String
  /-- The edges, each as the node it leaves and the node it enters. -/
  edges : G → List (Nat × Nat)
  /-- The graph with one more node, and the number of that node. -/
  addNode : G → String → G × Nat
  /-- The graph with an edge, which may have been there before. Both nodes have to be there. -/
  updateEdge : G → Nat → Nat → Option G

open NodeGraph in
/-- What is relied on: nodes are numbered from zero without gaps and keep their texts, and an edge
that is there is not added again. -/
class LawfulNodeGraph (G : Type) [NodeGraph G] : Prop where
  nodeCount_empty : nodeCount (empty : G) = 0
  edges_empty : edges (empty : G) = []
  isSome_text?_iff (g : G) (i : Nat) : (text? g i).isSome = true ↔ i < nodeCount g
  nodeCount_addNode (g : G) (text : String) : nodeCount (addNode g text).1 = nodeCount g + 1
  text?_number_addNode (g : G) (text : String) : text? g (addNode g text).2 = none
  text?_addNode (g : G) (text : String) (i : Nat) :
    text? (addNode g text).1 i = if i = (addNode g text).2 then some text else text? g i
  edges_addNode (g : G) (text : String) : edges (addNode g text).1 = edges g
  exists_updateEdge {g : G} {i j : Nat} :
    i < nodeCount g → j < nodeCount g → ∃ g', updateEdge g i j = some g'
  text?_updateEdge {g g' : G} {i j : Nat} :
    updateEdge g i j = some g' → ∀ k, text? g' k = text? g k
  edges_updateEdge {g g' : G} {i j : Nat} :
    updateEdge g i j = some g' →
      (edges g').Perm (if (i, j) ∈ edges g then edges g else (i, j) :: edges g)

/-! ### Lists of nodes and edges -/

/-- A graph as the list of the texts of its nodes and the list of its edges, the newest first. -/
structure EdgeList where
  texts : List String
  pairs : List (Nat × Nat)
  deriving DecidableEq

namespace EdgeList

/-- The graph with one more node, and its number. -/
def addNode (g : EdgeList) (text : String) : EdgeList × Nat :=
  ({ g with texts := g.texts ++ [text] }, g.texts.length)

/-- The graph with an edge between two of its nodes. -/
def updateEdge (g : EdgeList) (i j : Nat) : Option EdgeList :=
  if i < g.texts.length ∧ j < g.texts.length then
    some (if (i, j) ∈ g.pairs then g else { g with pairs := (i, j) :: g.pairs })
  else none

instance : NodeGraph EdgeList where
  empty := ⟨[], []⟩
  nodeCount g := g.texts.length
  text? g i := g.texts[i]?
  edges g := g.pairs
  addNode := addNode
  updateEdge := updateEdge

/-- An edge, told by the texts of its nodes. -/
def edge? (g : EdgeList) (pair : Nat × Nat) : Option Edge := do
  let dependency ← g.texts[pair.1]?
  let dependent ← g.texts[pair.2]?
  some ⟨dependency, dependent⟩

end EdgeList

/-! ### Registers -/

/-- The numbers of services beside a graph with a node for each of them. -/
structure Register (G : Type) where
  numbers : Table Nat
  graph : G

namespace Register

section

variable {G : Type} [NodeGraph G]

/-- The register without services. -/
def empty : Register G := ⟨.empty, NodeGraph.empty⟩

/-- The register with a service in it, and the number of the service. -/
def addService (r : Register G) (name : String) : Register G × Nat :=
  match r.numbers.get? name with
  | some number => (r, number)
  | none =>
    let (graph, number) := NodeGraph.addNode r.graph name
    (⟨r.numbers.insert name number, graph⟩, number)

/-- The register in which `dependent` needs `dependency`. -/
def addDependency (r : Register G) (dependent dependency : String) : Option (Register G) :=
  let (r, source) := r.addService dependency
  let (r, target) := r.addService dependent
  (NodeGraph.updateEdge r.graph source target).map fun graph => { r with graph }

end

/-- The dependency graph that a register stands for. -/
def named (r : Register EdgeList) : Graph :=
  ⟨r.graph.texts, r.graph.pairs.filterMap r.graph.edge?⟩

/-- The start order of the services in a register, or the error that names one on a cycle. -/
def order (r : Register EdgeList) : Except Error (List String) := r.named.order

end Register
end Dependency
end ComposeMerge
