import ComposeMerge.Yaml.Token.Fold

/-!
# Plain scalars

Scalars without quotes. One ends before a colon that ends a word, before a comment, before a
document mark, and in a flow collection before an indicator of flow collections. In a block
collection it goes on in the next line only when that is indented.
-/

namespace ComposeMerge
namespace Yaml

/-- The indicators of flow collections. -/
def isFlowIndicator (c : Char) : Bool :=
  c = ',' || c = '[' || c = ']' || c = '{' || c = '}'

/-- Whether a plain scalar ends before this text. -/
def endsPlain (inFlow : Bool) : List Char → Bool
  | [] => true
  | ':' :: s => endsWord s
  | c :: _ => isBlank c || isBreak c || (inFlow && isFlowIndicator c)

/-- Whether a colon stands directly before an indicator, which it may not in a flow collection. -/
def isBadColon (inFlow : Bool) : List Char → Bool
  | ':' :: c :: _ => inFlow && (isFlowIndicator c || c = '?')
  | _ => false

/-- Reads a word of a plain scalar. -/
def plainWord (inFlow : Bool) : Nat → Gathered → Cursor → Option (Gathered × Cursor)
  | 0, _, _ => none
  | fuel + 1, text, c =>
    if isBadColon inFlow c.rest then none
    else if endsPlain inFlow c.rest then some (text, c)
    else match c.peek? with
      | some ch => plainWord inFlow fuel (ch :: text) c.skip
      | none => none

/-- Whether a plain scalar stops where a word could start. -/
def stopsPlain (c : Cursor) : Bool := c.atDocumentMark || c.peek? = some '#'

/-- What a plain scalar read so far counts for, and the gap after it. -/
structure PlainText where
  text : Gathered
  gap : Gap

/-- Reads a plain scalar word by word. `indent` is the least column of a line that it goes on in,
if there is one. Gives the text and the gap after the last word. -/
def plainWords (inFlow : Bool) (indent : Int) :
    Nat → PlainText → Cursor → Option (PlainText × Cursor)
  | 0, _, _ => none
  | fuel + 1, p, c =>
    if stopsPlain c then some (p, c)
    else do
      let (word, c') ← plainWord inFlow fuel [] c
      let p := if word.isEmpty then p else ⟨word ++ p.gap.fold ++ p.text, .empty⟩
      if !(startsBlank c'.rest) && (c'.rest.isEmpty || !endsLine c'.rest) then some (p, c')
      else
        let (g, c'') ← gap (some indent) fuel p.gap c'
        let p : PlainText := ⟨p.text, g⟩
        if !inFlow && (c''.column : Int) < indent then some (p, c'')
        else plainWords inFlow indent fuel p c''

/-- Reads a plain scalar. The truth value tells whether line ends follow it, after which a simple
key may start. -/
def plain (inFlow : Bool) (indent : Int) (fuel : Nat) (c : Cursor) :
    Option (Token × Bool × Cursor) :=
  (plainWords inFlow indent fuel ⟨[], .empty⟩ c).map fun (p, c) =>
    (.scalar p.text.text true, p.gap.isBroken, c)

end Yaml
end ComposeMerge
