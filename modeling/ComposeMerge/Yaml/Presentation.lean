import ComposeMerge.Yaml.Token.Scan

/-!
# The written form of a document

The tree of a document as it is written: with anchors, aliases and tags, and with scalars that have
no type yet.

`Presentation.ofTokens` reads the one document that the tokens form. A stream without a document
holds an empty one.
-/

namespace ComposeMerge
namespace Yaml

/-- The anchor and the tag of a node. -/
structure Properties where
  anchor : Option String
  tag : Option String

/-- A node as it is written. -/
inductive Presentation where
  | alias (name : String)
  | scalar (properties : Properties) (isPlain : Bool) (text : String)
  | sequence (properties : Properties) (items : List Presentation)
  | mapping (properties : Properties) (entries : List (Presentation × Presentation))

namespace Presentation

/-- A node that is not written. -/
def absent (p : Properties) : Presentation := .scalar p true ""

/-- No anchor and no tag. -/
def bare : Properties := ⟨none, none⟩

/-- What tag handles stand for. -/
abbrev Handles := List (String × String)

/-- The handles that every document has. -/
def standardHandles : Handles := [("!", "!"), ("!!", "tag:yaml.org,2002:")]

/-- The tag of a handle and a suffix. -/
def resolveTag (handles : Handles) (handle suffix : String) : Option String :=
  if handle.isEmpty then some suffix else (handles.lookup handle).map (· ++ suffix)

/-- The anchor and the tag before a node, in any order. -/
def properties (handles : Handles) : List Token → Option (Properties × List Token)
  | .anchor a :: .tag h s :: ts => (resolveTag handles h s).map fun t => (⟨some a, some t⟩, ts)
  | .tag h s :: .anchor a :: ts => (resolveTag handles h s).map fun t => (⟨some a, some t⟩, ts)
  | .anchor a :: ts => some (⟨some a, none⟩, ts)
  | .tag h s :: ts => (resolveTag handles h s).map fun t => (⟨none, some t⟩, ts)
  | ts => some (bare, ts)

/-- A scalar; the tag `!` says no more than that it is no node of another kind. -/
def scalarNode (p : Properties) (isPlain : Bool) (text : String) : Presentation :=
  .scalar (if p.tag = some "!" then { p with tag := none } else p) isPlain text

/-- Where a node stands. -/
inductive Place where
  | flow
  | block
  /-- Under a key of a block mapping, where a sequence need not be indented. -/
  | entry
  deriving DecidableEq

/-- Whether nothing is written for a node in a block mapping before this token. -/
def endsBlockEntry : List Token → Bool
  | .key :: _ | .value :: _ | .blockEnd :: _ => true
  | _ => false

/-- Whether nothing is written for an item of a block sequence before this token. -/
def endsBlockItem : List Token → Bool
  | .blockEntry :: _ | .blockEnd :: _ => true
  | _ => false

/-- Whether nothing is written for an item of a sequence that is not indented. -/
def endsPlainItem : List Token → Bool
  | .blockEntry :: _ | .key :: _ | .value :: _ | .blockEnd :: _ => true
  | _ => false

/-- Whether nothing is written for a key of a flow mapping before this token. -/
def endsFlowKey : List Token → Bool
  | .value :: _ | .flowEntry :: _ | .flowMappingEnd :: _ => true
  | _ => false

/-- Whether nothing is written for a value of a flow mapping before this token. -/
def endsFlowValue : List Token → Bool
  | .flowEntry :: _ | .flowMappingEnd :: _ => true
  | _ => false

/-- Whether nothing is written for the key of a pair in a flow sequence before this token. -/
def endsPairKey : List Token → Bool
  | .value :: _ | .flowEntry :: _ | .flowSequenceEnd :: _ => true
  | _ => false

/-- Whether nothing is written for the value of a pair in a flow sequence before this token. -/
def endsPairValue : List Token → Bool
  | .flowEntry :: _ | .flowSequenceEnd :: _ => true
  | _ => false

mutual

/-- A node, and the tokens after it. -/
def node (handles : Handles) : Nat → Place → List Token → Option (Presentation × List Token)
  | 0, _, _ => none
  | _ + 1, _, .alias name :: ts => some (.alias name, ts)
  | fuel + 1, place, ts => do
    let (p, ts) ← properties handles ts
    match ts with
    | .scalar text isPlain :: ts => some (scalarNode p isPlain text, ts)
    | .flowSequenceStart :: ts => do
      let (items, ts) ← flowItems handles fuel true ts
      some (.sequence p items, ts)
    | .flowMappingStart :: ts => do
      let (entries, ts) ← flowEntries handles fuel true ts
      some (.mapping p entries, ts)
    | t :: rest =>
      if t = .blockEntry && place = .entry then do
        let (items, ts) ← plainItems handles fuel (t :: rest)
        some (.sequence p items, ts)
      else if t = .blockSequenceStart && place ≠ .flow then do
        let (items, ts) ← blockItems handles fuel rest
        some (.sequence p items, ts)
      else if t = .blockMappingStart && place ≠ .flow then do
        let (entries, ts) ← blockEntries handles fuel rest
        some (.mapping p entries, ts)
      else if p.anchor.isSome || p.tag.isSome then some (absent p, t :: rest)
      else none
    | [] => if p.anchor.isSome || p.tag.isSome then some (absent p, []) else none

/-- A node, unless nothing is written for it. -/
def nodeUnless (handles : Handles) :
    Nat → Bool → Place → List Token → Option (Presentation × List Token)
  | 0, _, _, _ => none
  | fuel + 1, isAbsent, place, ts =>
    if isAbsent then some (absent bare, ts) else node handles fuel place ts

/-- The items of a block sequence. -/
def blockItems (handles : Handles) :
    Nat → List Token → Option (List Presentation × List Token)
  | 0, _ => none
  | fuel + 1, .blockEntry :: ts => do
    let (item, ts) ← nodeUnless handles fuel (endsBlockItem ts) .block ts
    let (items, ts) ← blockItems handles fuel ts
    some (item :: items, ts)
  | _ + 1, .blockEnd :: ts => some ([], ts)
  | _ + 1, _ => none

/-- The items of a sequence that is not indented below its key. -/
def plainItems (handles : Handles) :
    Nat → List Token → Option (List Presentation × List Token)
  | 0, _ => none
  | fuel + 1, .blockEntry :: ts => do
    let (item, ts) ← nodeUnless handles fuel (endsPlainItem ts) .block ts
    let (items, ts) ← plainItems handles fuel ts
    some (item :: items, ts)
  | _ + 1, ts => some ([], ts)

/-- The entries of a block mapping. -/
def blockEntries (handles : Handles) :
    Nat → List Token → Option (List (Presentation × Presentation) × List Token)
  | 0, _ => none
  | fuel + 1, .key :: ts => do
    let (k, ts) ← nodeUnless handles fuel (endsBlockEntry ts) .entry ts
    let (v, ts) ← blockValue handles fuel ts
    let (entries, ts) ← blockEntries handles fuel ts
    some ((k, v) :: entries, ts)
  | _ + 1, .blockEnd :: ts => some ([], ts)
  | _ + 1, _ => none

/-- The value of an entry of a block mapping. -/
def blockValue (handles : Handles) :
    Nat → List Token → Option (Presentation × List Token)
  | 0, _ => none
  | fuel + 1, .value :: ts => nodeUnless handles fuel (endsBlockEntry ts) .entry ts
  | _ + 1, ts => some (absent bare, ts)

/-- The items of a flow sequence. -/
def flowItems (handles : Handles) :
    Nat → Bool → List Token → Option (List Presentation × List Token)
  | 0, _, _ => none
  | _ + 1, _, .flowSequenceEnd :: ts => some ([], ts)
  | fuel + 1, isFirst, ts => do
    let ts ← if isFirst then some ts else match ts with
      | .flowEntry :: ts => some ts
      | _ => none
    match ts with
    | .flowSequenceEnd :: ts => some ([], ts)
    | .key :: ts => do
      -- a key that is not written takes the token after its question mark with it
      let (k, ts) ← if endsPairKey ts then some (absent bare, ts.drop 1)
        else node handles fuel .flow ts
      let (v, ts) ← match ts with
        | .value :: ts => nodeUnless handles fuel (endsPairValue ts) .flow ts
        | ts => some (absent bare, ts)
      let (items, ts) ← flowItems handles fuel false ts
      some (.mapping bare [(k, v)] :: items, ts)
    | ts => do
      let (item, ts) ← node handles fuel .flow ts
      let (items, ts) ← flowItems handles fuel false ts
      some (item :: items, ts)

/-- The entries of a flow mapping. -/
def flowEntries (handles : Handles) :
    Nat → Bool → List Token → Option (List (Presentation × Presentation) × List Token)
  | 0, _, _ => none
  | _ + 1, _, .flowMappingEnd :: ts => some ([], ts)
  | fuel + 1, isFirst, ts => do
    let ts ← if isFirst then some ts else match ts with
      | .flowEntry :: ts => some ts
      | _ => none
    match ts with
    | .flowMappingEnd :: ts => some ([], ts)
    | .key :: ts => do
      let (k, ts) ← nodeUnless handles fuel (endsFlowKey ts) .flow ts
      let (v, ts) ← match ts with
        | .value :: ts => nodeUnless handles fuel (endsFlowValue ts) .flow ts
        | ts => some (absent bare, ts)
      let (entries, ts) ← flowEntries handles fuel false ts
      some ((k, v) :: entries, ts)
    | ts => do
      let (k, ts) ← node handles fuel .flow ts
      let (entries, ts) ← flowEntries handles fuel false ts
      some ((k, absent bare) :: entries, ts)

end

/-! ### Documents -/

/-- What the directives before a document say. -/
structure Directives where
  hasVersion : Bool
  handles : Handles

/-- The directives with one more: each may be given once, and the version must be 1.1 or 1.2. -/
def Directives.add (d : Directives) : Token → Option Directives
  | .versionDirective major minor =>
    if !d.hasVersion && major = 1 && (minor = 1 || minor = 2) then
      some { d with hasVersion := true }
    else none
  | .tagDirective handle start =>
    if (d.handles.lookup handle).isSome then none
    else some { d with handles := d.handles ++ [(handle, start)] }
  | _ => none

/-- The directives at the start of the tokens, up to the mark of the document. -/
def directives (d : Directives) : List Token → Option (Directives × List Token)
  | [] => none
  | .documentStart :: ts => some (d, ts)
  | t :: ts => (d.add t).bind fun d => directives d ts

/-- Whether the document has no content before this token. -/
def endsDocument : List Token → Bool
  | [] => true
  | .versionDirective .. :: _ | .tagDirective .. :: _ => true
  | .documentStart :: _ | .documentEnd :: _ => true
  | _ => false

/-- Whether the tokens start a document with a mark. -/
def startsMarked : List Token → Bool
  | .versionDirective .. :: _ | .tagDirective .. :: _ | .documentStart :: _ => true
  | _ => false

/-- The content of the first document, and the tokens after it. -/
def document (fuel : Nat) (ts : List Token) : Option (Presentation × List Token) :=
  if startsMarked ts then do
    let (d, ts) ← directives ⟨false, []⟩ ts
    nodeUnless (d.handles ++ standardHandles) fuel (endsDocument ts) .block ts
  else node standardHandles fuel .block ts

/-- The one document that tokens form. -/
def ofTokens (ts : List Token) : Option Presentation :=
  if ts.isEmpty then some (absent bare)
  else
    match document (6 * ts.length + 20) ts with
    | some (p, rest) => if rest.all (· = .documentEnd) then some p else none
    | none => none

end Presentation
end Yaml
end ComposeMerge
