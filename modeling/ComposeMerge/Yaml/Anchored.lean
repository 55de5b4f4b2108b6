import ComposeMerge.Yaml.Presentation

/-!
# Anchors and aliases

A document with its anchors numbered, so that an alias gives the number of what it stands for.

An anchor gets as its number how many different anchor names came before it; a name that is used
again gives up its earlier number. An alias takes the number that its name has at that place, and
stands for the node that takes this number last.

* `Anchored.number` numbers a document; an alias of a name that is not there yet is an error;
* `Anchored.target` is the node of a number.
-/

namespace ComposeMerge
namespace Yaml

/-- A node whose aliases are numbers. -/
inductive Anchored where
  | alias (id : Nat)
  | scalar (tag : Option String) (isPlain : Bool) (text : String)
  | sequence (tag : Option String) (items : List Anchored)
  | mapping (tag : Option String) (entries : List (Anchored × Anchored))

namespace Anchored

/-- A node with a number, and its place in the order in which nodes start. -/
structure Target where
  id : Nat
  place : Nat
  node : Anchored

/-- Anchors met so far. -/
structure Anchors where
  /-- The numbers of the names. -/
  names : List (String × Nat)
  /-- How many anchored nodes have started. -/
  started : Nat
  targets : List Target

/-- No anchors. -/
def Anchors.empty : Anchors := ⟨[], 0, []⟩

/-- The anchors after the start of a node; the number and the place of the node are those before. -/
def Anchors.enter (a : Anchors) (anchor : Option String) : Anchors :=
  match anchor with
  | some name =>
    { a with
      names := (name, a.names.length) :: a.names.filter fun e => e.1 ≠ name
      started := a.started + 1 }
  | none => a

/-- The anchors after a node that started with the anchors `before`. -/
def Anchors.leave (a before : Anchors) (anchor : Option String) (node : Anchored) : Anchors :=
  match anchor with
  | some _ => { a with targets := ⟨before.names.length, before.started, node⟩ :: a.targets }
  | none => a

mutual

/-- Numbers a node. -/
def numberNode (a : Anchors) : Presentation → Option (Anchored × Anchors)
  | .alias name => (a.names.lookup name).map fun id => (.alias id, a)
  | .scalar p isPlain text =>
    let node := .scalar p.tag isPlain text
    some (node, (a.enter p.anchor).leave a p.anchor node)
  | .sequence p items => do
    let (items, b) ← numberItems (a.enter p.anchor) items
    let node := .sequence p.tag items
    some (node, b.leave a p.anchor node)
  | .mapping p entries => do
    let (entries, b) ← numberEntries (a.enter p.anchor) entries
    let node := .mapping p.tag entries
    some (node, b.leave a p.anchor node)

/-- Numbers the items of a sequence. -/
def numberItems (a : Anchors) : List Presentation → Option (List Anchored × Anchors)
  | [] => some ([], a)
  | p :: ps => do
    let (n, a) ← numberNode a p
    let (ns, a) ← numberItems a ps
    some (n :: ns, a)

/-- Numbers the entries of a mapping. -/
def numberEntries (a : Anchors) :
    List (Presentation × Presentation) → Option (List (Anchored × Anchored) × Anchors)
  | [] => some ([], a)
  | (k, v) :: es => do
    let (k, a) ← numberNode a k
    let (v, a) ← numberNode a v
    let (rest, a) ← numberEntries a es
    some ((k, v) :: rest, a)

end

/-- Numbers a document. -/
def number (p : Presentation) : Option (Anchored × Anchors) := numberNode .empty p

/-- The later of two targets. -/
def laterTarget (best : Option Target) (t : Target) : Option Target :=
  match best with
  | some b => if b.place < t.place then some t else best
  | none => some t

/-- The node that takes a number last. -/
def target (a : Anchors) (id : Nat) : Option Anchored :=
  ((a.targets.filter fun t => t.id = id).foldl laterTarget none).map Target.node

mutual

/-- The number of parts that a node is written with: one for a leaf, two more for a collection than
for what it contains. -/
def parts : Anchored → Nat
  | .alias _ => 1
  | .scalar .. => 1
  | .sequence _ items => partsOfItems items + 2
  | .mapping _ entries => partsOfEntries entries + 2

/-- The number of parts of the items of a sequence. -/
def partsOfItems : List Anchored → Nat
  | [] => 0
  | n :: ns => parts n + partsOfItems ns

/-- The number of parts of the entries of a mapping. -/
def partsOfEntries : List (Anchored × Anchored) → Nat
  | [] => 0
  | (k, v) :: es => parts k + parts v + partsOfEntries es

end

end Anchored
end Yaml
end ComposeMerge
