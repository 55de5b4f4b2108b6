import ComposeMerge.Yaml.Token.Basic

/-!
# Line folding

Inside plain and quoted scalars the white space between two words is kept on a line, and folded
where it contains line ends: one line end becomes a space, and of more the first is dropped.

* `Gap` is the white space between two words;
* `gap` reads it, and `Gap.fold` is what it counts for.
-/

namespace ComposeMerge
namespace Yaml

/-- White space between two words of a scalar. -/
structure Gap where
  /-- The blanks before the first line end, in reverse. -/
  blanks : Gathered
  /-- Whether there is a line end. -/
  isBroken : Bool
  /-- The first line end, unless it was escaped. -/
  firstBreak : Option Char
  /-- The other line ends, in reverse. -/
  moreBreaks : Gathered

namespace Gap

/-- No white space. -/
def empty : Gap := ⟨[], false, none, []⟩

/-- An escaped line end. -/
def escapedBreak : Gap := ⟨[], true, none, []⟩

/-- The gap with one more blank. -/
def addBlank (g : Gap) (c : Char) : Gap :=
  if g.isBroken then g else { g with blanks := c :: g.blanks }

/-- The gap with one more line end. -/
def addBreak (g : Gap) (c : Char) : Gap :=
  if g.isBroken then { g with moreBreaks := foldedBreak c :: g.moreBreaks }
  else { g with isBroken := true, firstBreak := some (foldedBreak c) }

/-- What a gap counts for, in reverse. -/
def fold (g : Gap) : Gathered :=
  if !g.isBroken then g.blanks
  else if g.firstBreak = some '\n' then if g.moreBreaks.isEmpty then [' '] else g.moreBreaks
  else g.moreBreaks ++ g.firstBreak.toList

end Gap

/-- Reads white space. In a plain scalar a tab may not stand before column `indent` of a line that
the scalar goes on in. -/
def gap (indent : Option Int) : Nat → Gap → Cursor → Option (Gap × Cursor)
  | 0, _, _ => none
  | fuel + 1, g, c =>
    match c.peek? with
    | none => some (g, c)
    | some ch =>
      if isBlank ch then
        if g.isBroken && ch = '\t' && indent.any ((c.column : Int) < ·) then none
        else gap indent fuel (g.addBlank ch) c.skip
      else if isBreak ch then gap indent fuel (g.addBreak ch) c.skipBreak
      else some (g, c)

end Yaml
end ComposeMerge
