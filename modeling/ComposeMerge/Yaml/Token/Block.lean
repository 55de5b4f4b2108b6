import ComposeMerge.Yaml.Token.Basic

/-!
# Block scalars

Scalars whose lines are indented below a header. A literal one keeps its lines; a folded one joins
lines that do not start with a blank. The header may give the indentation, and may say that the
line ends after the last line are dropped or kept.
-/

namespace ComposeMerge
namespace Yaml

/-- What happens to the line ends after the last line. -/
inductive Chomping where
  | strip
  | clip
  | keep
  deriving DecidableEq

/-- The header of a block scalar. -/
structure BlockHeader where
  chomping : Chomping
  /-- The indentation beyond that of the parent, when it is given. -/
  increment : Option Nat

/-- The chomping that a sign stands for. -/
def chomping? : Option Char → Option Chomping
  | some '+' => some .keep
  | some '-' => some .strip
  | _ => none

/-- Reads the sign of a header, if there is one. -/
def readChomping (c : Cursor) : Option Chomping × Cursor :=
  match chomping? c.peek? with
  | some ch => (some ch, c.skip)
  | none => (none, c)

/-- Reads the digit of a header, if there is one; it may not be zero. -/
def readIncrement (c : Cursor) : Option (Option Nat × Cursor) :=
  match c.peek? with
  | some d =>
    if d = '0' then none
    else if d.isDigit then some (some (d.toNat - 48), c.skip)
    else some (none, c)
  | none => some (none, c)

/-- Reads the indicators of a header: a sign and a digit, in any order. -/
def readIndicators (c : Cursor) : Option (BlockHeader × Cursor) := do
  let (sign, c) := readChomping c
  let (increment, c) ← readIncrement c
  let (sign, c) := if sign.isSome || increment.isNone then (sign, c) else readChomping c
  some (⟨sign.getD .clip, increment⟩, c)

/-- Passes over blanks, a comment and the line end after a header. -/
def finishHeader (c : Cursor) : Option Cursor :=
  let c := c.skipWhile isBlank
  let c := if c.peek? = some '#' then c.skipLine else c
  if endsLine c.rest then some c.skipBreak else none

/-- Passes over spaces before column `indent`; without an indentation over all of them. -/
def skipIndent (indent : Option Nat) (c : Cursor) : Cursor :=
  let spaces := (c.rest.takeWhile (· = ' ')).length
  c.skipMany (indent.elim spaces fun n => min spaces (n - c.column))

/-- Whether a tab stands where indentation is expected. -/
def isTabInIndent (indent : Option Nat) (c : Cursor) : Bool :=
  c.peek? = some '\t' && indent.all (c.column < ·)

/-- Reads empty lines. Gives their line ends, in reverse, and the greatest column reached. -/
def blankLines (indent : Option Nat) :
    Nat → Nat → Gathered → Cursor → Option (Nat × Gathered × Cursor)
  | 0, _, _, _ => none
  | fuel + 1, deepest, breaks, c =>
    let c := skipIndent indent c
    let deepest := max deepest c.column
    if isTabInIndent indent c then none
    else match c.peek? with
      | some ch =>
        if isBreak ch then blankLines indent fuel deepest (foldedBreak ch :: breaks) c.skipBreak
        else some (deepest, breaks, c)
      | none => some (deepest, breaks, c)

/-- A block scalar that is being read. -/
structure BlockText where
  text : Gathered
  /-- The line end of the last line. -/
  lineEnd : Option Char
  /-- The line ends of the empty lines after it, in reverse. -/
  breaks : Gathered
  /-- Whether the last line starts with a blank. -/
  isIndented : Bool

/-- What stands between the last line and the next one, in reverse. -/
def BlockText.joint (b : BlockText) (isFolded nextIsIndented : Bool) : Gathered :=
  if isFolded && b.lineEnd = some '\n' && !b.isIndented && !nextIsIndented then
    if b.breaks.isEmpty then [' '] else b.breaks
  else b.breaks ++ b.lineEnd.toList

/-- Reads the lines of a block scalar that start at column `indent`. -/
def blockLines (isFolded : Bool) (indent : Nat) :
    Nat → BlockText → Cursor → Option (BlockText × Cursor)
  | 0, _, _ => none
  | fuel + 1, b, c =>
    if c.column ≠ indent || c.rest.isEmpty then some (b, c)
    else
      let isIndented := startsBlank c.rest
      let line := c.rest.takeWhile fun ch => !isBreak ch
      let c := c.skipLine
      let text := line.reverse ++ b.joint isFolded isIndented ++ b.text
      let lineEnd := c.peek?.map foldedBreak
      match blankLines (some indent) fuel 0 [] c.skipBreak with
      | none => none
      | some (_, breaks, c) => blockLines isFolded indent fuel ⟨text, lineEnd, breaks, isIndented⟩ c

/-- The text of a block scalar with its end as the chomping wants it. -/
def BlockText.finish (b : BlockText) (chomping : Chomping) : String :=
  let text := if chomping = .strip then b.text else b.lineEnd.toList ++ b.text
  Gathered.text (if chomping = .keep then b.breaks ++ text else text)

/-- Reads a block scalar inside a collection of some indentation. -/
def blockScalar (isFolded : Bool) (parent : Int) (fuel : Nat) (c : Cursor) :
    Option (Token × Cursor) := do
  let (header, c) ← readIndicators c.skip
  let c ← finishHeader c
  let given := header.increment.map fun n => (max parent 0).toNat + n
  let (deepest, breaks, c) ← blankLines given fuel 0 [] c
  let indent := given.getD (max (max deepest (parent + 1).toNat) 1)
  let (b, c) ← blockLines isFolded indent fuel ⟨[], none, breaks, false⟩ c
  some (.scalar (b.finish header.chomping) false, c)

end Yaml
end ComposeMerge
