import ComposeMerge.Yaml.Token.Block
import ComposeMerge.Yaml.Token.Name
import ComposeMerge.Yaml.Token.Plain
import ComposeMerge.Yaml.Token.Quoted

/-!
# Scanning a document

The tokens of a text.

* The indentation of block collections is a stack: a deeper column opens a collection, and a
  shallower one closes collections.
* A scalar, an anchor, a tag, an alias or a flow collection may turn out to be a simple key when a
  colon follows it on the same line, at most 1024 bytes on. Until then its place is kept,
  for each level of flow collections; a `key` token goes there when the colon is found.
* `scan` gives the tokens of a text, or nothing when the text breaks the rules.
-/

namespace ComposeMerge
namespace Yaml

/-- The place of something that may turn out to be a key. -/
structure KeyPlace where
  /-- It can be nothing else. -/
  isRequired : Bool
  /-- The number of tokens before it. -/
  token : Nat
  index : Nat
  line : Nat
  column : Nat

/-- A scan in progress. -/
structure Scan where
  cursor : Cursor
  /-- The tokens so far, the last one first, and their number. -/
  tokens : List Token
  count : Nat
  /-- The column of the innermost block collection, and those of the collections around it. -/
  indent : Int
  indents : List Int
  /-- Whether a key may start here. -/
  keyAllowed : Bool
  /-- The possible key of this level, and of each level of flow collections around it. -/
  key : Option KeyPlace
  outerKeys : List (Option KeyPlace)

namespace Scan

/-- The start of a scan. -/
def start (text : List Char) : Scan :=
  ⟨.start text, [], 0, -1, [], true, none, []⟩

/-- Whether the scan is inside a flow collection. -/
def inFlow (s : Scan) : Bool := !s.outerKeys.isEmpty

/-- The scan with one more token. -/
def push (s : Scan) (t : Token) : Scan := { s with tokens := t :: s.tokens, count := s.count + 1 }

/-- The scan with a token put in before the tokens from number `place` on. -/
def pushAt (s : Scan) (place : Nat) (t : Token) : Scan :=
  let after := s.count - place
  { s with
    tokens := s.tokens.take after ++ t :: s.tokens.drop after
    count := s.count + 1 }

/-- The scan at another place. -/
def move (s : Scan) (c : Cursor) : Scan := { s with cursor := c }

/-- The scan after one character and a token for it. -/
def pushChar (s : Scan) (t : Token) : Scan := (s.push t).move s.cursor.skip

/-- The scan in which a key may or may not start. -/
def allowKey (s : Scan) (allowed : Bool) : Scan := { s with keyAllowed := allowed }

/-! ### Simple keys -/

/-- Whether the place of a key is too far back. -/
def isStale (c : Cursor) (k : KeyPlace) : Bool := k.line < c.line || k.index + 1024 < c.index

/-- The place of a key, unless it is too far back; a required key may not be. -/
def refresh (c : Cursor) (key : Option KeyPlace) : Option (Option KeyPlace) :=
  match key with
  | some k => if isStale c k then (if k.isRequired then none else some none) else some key
  | none => some none

/-- The scan without keys that are too far back. -/
def dropStaleKeys (s : Scan) : Option Scan := do
  let key ← refresh s.cursor s.key
  let outer ← s.outerKeys.mapM (refresh s.cursor)
  some { s with key := key, outerKeys := outer }

/-- The scan without a possible key at this level; a required key may not be given up. -/
def dropKey (s : Scan) : Option Scan :=
  if s.key.any KeyPlace.isRequired then none else some { s with key := none }

/-- The scan with this place as a possible key, if a key may start here. -/
def saveKey (s : Scan) : Option Scan :=
  if s.keyAllowed then
    s.dropKey.map fun t =>
      let c := s.cursor
      let required := !s.inFlow && s.indent = c.column
      { t with key := some ⟨required, s.count, c.index, c.line, c.column⟩ }
  else some s

/-! ### Indentation -/

/-- The scan in a block collection at a column; a token for its start goes to a place if that is
given. -/
def openBlock (s : Scan) (column : Nat) (place : Option Nat) (t : Token) : Scan :=
  if s.inFlow || (column : Int) ≤ s.indent then s
  else
    let s := { s with indent := column, indents := s.indent :: s.indents }
    match place with
    | some n => s.pushAt n t
    | none => s.push t

/-- Closes block collections from the innermost one on while they are deeper than a column. -/
def closeBlocksFrom (column : Int) : List Int → Scan → Scan
  | [], s => s
  | outer :: more, s =>
    if column < s.indent then
      closeBlocksFrom column more { s.push .blockEnd with indent := outer, indents := more }
    else s

/-- The scan without the block collections that are deeper than a column. -/
def closeBlocks (s : Scan) (column : Int) : Scan :=
  if s.inFlow then s else closeBlocksFrom column s.indents s

/-! ### White space -/

/-- Whether a character is white space between tokens at this place. -/
def isSpacing (s : Scan) (c : Char) : Bool := c = ' ' || ((s.inFlow || !s.keyAllowed) && c = '\t')

/-- Passes over white space, comments and line ends. A new line may start a key. -/
def toToken : Nat → Scan → Scan
  | 0, s => s
  | fuel + 1, s =>
    let c := s.cursor
    let c := if c.column = 0 && c.peek? = some '\uFEFF' then c.skip else c
    let c := c.skipWhile s.isSpacing
    let c := if c.peek? = some '#' then c.skipLine else c
    if endsLine c.rest && !c.rest.isEmpty then
      toToken fuel ((s.move c.skipBreak).allowKey (!s.inFlow || s.keyAllowed))
    else s.move c

/-! ### Tokens -/

/-- The scan outside all block collections. -/
def leaveBlocks (s : Scan) : Option Scan :=
  (s.closeBlocks (-1)).dropKey.map fun s => s.allowKey false

/-- A directive. -/
def fetchDirective (fuel : Nat) (s : Scan) : Option Scan := do
  let s ← s.leaveBlocks
  let (t, c) ← directive fuel s.cursor
  some ((s.push t).move c)

/-- A mark of the start or the end of a document. -/
def fetchMark (t : Token) (s : Scan) : Option Scan := do
  let s ← s.leaveBlocks
  some ((s.push t).move (s.cursor.skipMany 3))

/-- The start of a flow collection. -/
def fetchFlowStart (t : Token) (s : Scan) : Option Scan := do
  let s ← s.saveKey
  some (({ s with key := none, outerKeys := s.key :: s.outerKeys }.allowKey true).pushChar t)

/-- The end of a flow collection. -/
def fetchFlowEnd (t : Token) (s : Scan) : Option Scan := do
  let s ← s.dropKey
  let s := match s.outerKeys with
    | key :: more => { s with key := key, outerKeys := more }
    | [] => s
  some ((s.allowKey false).pushChar t)

/-- A comma in a flow collection. -/
def fetchFlowEntry (s : Scan) : Option Scan :=
  s.dropKey.map fun s => (s.allowKey true).pushChar .flowEntry

/-- The dash before an item of a block sequence. -/
def fetchBlockEntry (s : Scan) : Option Scan := do
  let s ← if s.inFlow then some s
    else if s.keyAllowed then some (s.openBlock s.cursor.column none .blockSequenceStart)
    else none
  let s ← s.dropKey
  some ((s.allowKey true).pushChar .blockEntry)

/-- The question mark before a key. -/
def fetchKey (s : Scan) : Option Scan := do
  let s ← if s.inFlow then some s
    else if s.keyAllowed then some (s.openBlock s.cursor.column none .blockMappingStart)
    else none
  let s ← s.dropKey
  some ((s.allowKey (!s.inFlow)).pushChar .key)

/-- The colon before a value. -/
def fetchValue (s : Scan) : Option Scan :=
  match s.key with
  | some k =>
    let s := (s.pushAt k.token .key).openBlock k.column (some k.token) .blockMappingStart
    some (({ s with key := none }.allowKey false).pushChar .value)
  | none => do
    let s ← if s.inFlow then some s
      else if s.keyAllowed then some (s.openBlock s.cursor.column none .blockMappingStart)
      else none
    some ((s.allowKey (!s.inFlow)).pushChar .value)

/-- A token that may be a key, read by `read`. -/
def fetchKeyable (read : Cursor → Option (Token × Cursor)) (s : Scan) : Option Scan := do
  let s ← s.saveKey
  let (t, c) ← read s.cursor
  some (((s.allowKey false).push t).move c)

/-- A plain scalar. -/
def fetchPlain (fuel : Nat) (s : Scan) : Option Scan := do
  let s ← s.saveKey
  let (t, isBroken, c) ← plain s.inFlow (s.indent + 1) fuel s.cursor
  some (((s.allowKey isBroken).push t).move c)

/-- A block scalar. -/
def fetchBlockScalar (isFolded : Bool) (fuel : Nat) (s : Scan) : Option Scan := do
  let s ← s.dropKey
  let (t, c) ← blockScalar isFolded s.indent fuel s.cursor
  some (((s.allowKey true).push t).move c)

/-- The characters that a plain scalar does not start with. -/
def indicators : List Char :=
  "-?:,[]\x7b\x7d#&*!|>'\"%@".toList ++ [Char.ofNat 0x60]

/-- Whether a plain scalar starts here. -/
def startsPlain (s : Scan) : Bool :=
  match s.cursor.rest with
  | [] => false
  | c :: r =>
    if indicators.contains c then
      (c = '-' && !startsBlank r) || (!s.inFlow && (c = '?' || c = ':') && !endsWord r)
    else !(isBlank c || isBreak c)

/-- The token that starts with a character, followed by some text. -/
def fetchFrom (fuel : Nat) (s : Scan) (ch : Char) (after : List Char) : Option Scan :=
  let c := s.cursor
  if c.column = 0 && ch = '%' then s.fetchDirective fuel
  else if c.atDocumentMark then s.fetchMark (if ch = '-' then .documentStart else .documentEnd)
  else if ch = '[' then s.fetchFlowStart .flowSequenceStart
  else if ch = '{' then s.fetchFlowStart .flowMappingStart
  else if ch = ']' then s.fetchFlowEnd .flowSequenceEnd
  else if ch = '}' then s.fetchFlowEnd .flowMappingEnd
  else if ch = ',' then s.fetchFlowEntry
  else if ch = '-' && endsWord after then s.fetchBlockEntry
  else if ch = '?' && (s.inFlow || endsWord after) then s.fetchKey
  else if ch = ':' && (s.inFlow || endsWord after) then s.fetchValue
  else if ch = '*' then
    s.fetchKeyable fun c => (anchorName c).map fun (name, c) => (.alias name, c)
  else if ch = '&' then
    s.fetchKeyable fun c => (anchorName c).map fun (name, c) => (.anchor name, c)
  else if ch = '!' then s.fetchKeyable (tagToken s.inFlow fuel)
  else if ch = '|' && !s.inFlow then s.fetchBlockScalar false fuel
  else if ch = '>' && !s.inFlow then s.fetchBlockScalar true fuel
  else if ch = '\'' then s.fetchKeyable (singleQuoted fuel)
  else if ch = '"' then s.fetchKeyable (doubleQuoted fuel)
  else if s.startsPlain then s.fetchPlain fuel
  else none

/-- Reads tokens to the end of the text. -/
def run : Nat → Scan → Option Scan
  | 0, _ => none
  | fuel + 1, s => do
    let s ← (s.toToken fuel).dropStaleKeys
    let s := s.closeBlocks s.cursor.column
    match s.cursor.rest with
    | [] => s.leaveBlocks
    | ch :: after => do
      let s ← fetchFrom fuel s ch after
      run fuel s

end Scan

/-- The tokens of a text. -/
def scan (text : List Char) : Option (List Token) :=
  if text.all isAllowed then
    ((Scan.start text).run (2 * text.length + 10)).map fun s => s.tokens.reverse
  else none

end Yaml
end ComposeMerge
