import ComposeMerge.Text.Utf8
import ComposeMerge.Yaml.Anchored
import ComposeMerge.Yaml.Resolution

/-!
# Reading a document

From bytes to a document tree.

* `Node.same` is equality of nodes as keys: the order of mapping entries does not count;
* `expand` puts nodes in place of aliases and gives scalars their types. Collections are nested at
  most `nestingLimit` deep, aliases are followed at most `jumpsPerPart` times for each part of the
  document, and no mapping has a key twice;
* `read` reads the one document in some bytes;
* `readEntryText` gives the text of a top-level entry as it is written.
-/

namespace ComposeMerge
namespace Yaml

/-- How deep collections may be nested. -/
def nestingLimit : Nat := 128

/-- How often aliases may be followed, for each part of a document. -/
def jumpsPerPart : Nat := 100

namespace Node

/-- Equality of floating point numbers as keys: NaN is equal to itself. -/
def sameFloat (x y : Double) : Bool := x.equal y || (x.isNaN && y.isNaN)

/-- A tag without the mark before it. -/
def bareTag (tag : String) : String :=
  match tag.toList with
  | '!' :: name => String.ofList name
  | _ => tag

mutual

/-- Equality of nodes as keys. -/
def same : Node → Node → Bool
  | .null, .null => true
  | .bool a, .bool b => a = b
  | .integer a, .integer b => a = b
  | .float a, .float b => sameFloat a b
  | .text a, .text b => a = b
  | .sequence as, .sequence bs => sameItems as bs
  | .mapping as, .mapping bs => as.length = bs.length && includes as bs
  | .tagged s a, .tagged t b => bareTag s = bareTag t && same a b
  | _, _ => false

/-- Equality of the items of two sequences. -/
def sameItems : List Node → List Node → Bool
  | [], [] => true
  | a :: as, b :: bs => same a b && sameItems as bs
  | _, _ => false

/-- Whether every entry of the first mapping is found in the second one. -/
def includes : List (Node × Node) → List (Node × Node) → Bool
  | [], _ => true
  | (k, v) :: es, fs => (fs.any fun f => same k f.1 && same v f.2) && includes es fs

end

/-- Whether a mapping has a key already. -/
def hasKey (entries : List (Node × Node)) (key : Node) : Bool :=
  entries.any fun e => e.1.same key

end Node

namespace Expansion

/-- The node that is written, or that an alias stands for. The numbers here and below count how
many more aliases may be followed. -/
def follow (target : Nat → Option Anchored) (jumps : Nat) : Anchored → Option (Anchored × Nat)
  | .alias id => if jumps = 0 then none else (target id).map (·, jumps - 1)
  | n => some (n, jumps)

/-- Whether a node is an alias. -/
def isAlias : Anchored → Bool
  | .alias _ => true
  | _ => false

/-- A node under the local tag that it has, if there is one. -/
def underTag (tag : Option String) (node : Node) : Node :=
  match tag with
  | some t => .tagged t node
  | none => node

/-- Expands the items of a sequence. -/
def expandItems (expand : Nat → Anchored → Option (Node × Nat)) (jumps : Nat) :
    List Anchored → Option (List Node × Nat)
  | [] => some ([], jumps)
  | a :: as => do
    let (n, jumps) ← expand jumps a
    let (ns, jumps) ← expandItems expand jumps as
    some (n :: ns, jumps)

/-- Expands the entries of a mapping after those in `done`, which are in reverse. -/
def expandEntries (expandKey expandValue : Nat → Anchored → Option (Node × Nat)) (jumps : Nat)
    (done : List (Node × Node)) : List (Anchored × Anchored) → Option (List (Node × Node) × Nat)
  | [] => some (done.reverse, jumps)
  | (k, v) :: es => do
    let (key, jumps) ← expandKey jumps k
    if Node.hasKey done key then none
    else
      let (value, jumps) ← expandValue jumps v
      expandEntries expandKey expandValue jumps ((key, value) :: done) es

/-- The local tag of a node that counts: inside the keys of a tagged mapping none does. -/
def ownTag (ignoresTag : Bool) (tag : Option String) : Option String :=
  if ignoresTag then none else Resolution.localTag? tag

/-- The node of a scalar. Under a local tag it is read as if it had no tag. -/
def expandScalar (ignoresTag : Bool) (tag : Option String) (isPlain : Bool) (text : String) :
    Option Node :=
  let own := ownTag ignoresTag tag
  let rest := if ignoresTag || own.isSome then none else tag
  (Resolution.scalarNode rest isPlain text).map (underTag own)

/-- Expands a node with `levels` levels of collections at most. -/
def expand (target : Nat → Option Anchored) : Nat → Bool → Nat → Anchored → Option (Node × Nat)
  | 0, ignoresTag, jumps, a => do
    let (n, jumps) ← follow target jumps a
    match n with
    | .scalar tag isPlain text =>
      (expandScalar (ignoresTag && !isAlias a) tag isPlain text).map (·, jumps)
    | _ => none
  | levels + 1, ignoresTag, jumps, a => do
    let (n, jumps) ← follow target jumps a
    let ignoresTag := ignoresTag && !isAlias a
    match n with
    | .alias _ => none
    | .scalar tag isPlain text => (expandScalar ignoresTag tag isPlain text).map (·, jumps)
    | .sequence tag items => do
      let (ns, jumps) ← expandItems (expand target levels false) jumps items
      some (underTag (ownTag ignoresTag tag) (.sequence ns), jumps)
    | .mapping tag entries => do
      let own := ownTag ignoresTag tag
      let (es, jumps) ← expandEntries (expand target levels (ignoresTag || own.isSome))
        (expand target levels false) jumps [] entries
      some (underTag own (.mapping es), jumps)

/-- The document that some bytes hold, with its anchors numbered. -/
def anchored (bytes : Bytes) : Option (Anchored × Anchored.Anchors) :=
  match Text.Utf8.decode bytes with
  | .error _ => none
  | .ok text => ((scan text).bind Presentation.ofTokens).bind Anchored.number

/-- The text of a node that is a scalar, or an alias of one. -/
def scalarText (anchors : Anchored.Anchors) (a : Anchored) : Option String :=
  match a with
  | .scalar _ _ text => some text
  | .alias id =>
    match Anchored.target anchors id with
    | some (.scalar _ _ text) => some text
    | _ => none
  | _ => none

end Expansion

open Expansion in
/-- The document that some bytes hold. -/
def read (bytes : Bytes) : Option Node := do
  let (root, anchors) ← anchored bytes
  let jumps := jumpsPerPart * root.parts
  (expand (Anchored.target anchors) nestingLimit false jumps root).map (·.1)

open Expansion in
/-- The text, as it is written, of the one top-level entry of a name. -/
def readEntryText (name : String) (bytes : Bytes) : Option String := do
  let (root, anchors) ← anchored bytes
  match root with
  | .mapping _ entries =>
    match entries.filter fun e => scalarText anchors e.1 = some name with
    | [(_, value)] => scalarText anchors value
    | _ => none
  | _ => none

end Yaml
end ComposeMerge
