import ComposeMerge.Yaml.Token.Fold

/-!
# Quoted scalars

Scalars between quotes. Between single quotes, a quote is written twice. Between double quotes a
backslash starts an escape.
-/

namespace ComposeMerge
namespace Yaml

/-- The value of a hexadecimal digit. -/
def hexValue? (c : Char) : Option Nat :=
  if c.isDigit then some (c.toNat - 48)
  else if 'a' ≤ c && c ≤ 'f' then some (c.toNat - 87)
  else if 'A' ≤ c && c ≤ 'F' then some (c.toNat - 55)
  else none

/-- The value of a run of hexadecimal digits. -/
def hexNumber? (s : List Char) : Option Nat :=
  s.foldlM (fun n c => (hexValue? c).map fun d => n * 16 + d) 0

/-- The character of a code point, if there is one. -/
def charOf? (n : Nat) : Option Char := if n.isValidChar then some (Char.ofNat n) else none

/-- The characters that escapes of one letter stand for. -/
def shortEscapes : List (Char × Char) :=
  [('0', '\x00'), ('a', '\x07'), ('b', '\x08'), ('t', '\t'), ('\t', '\t'), ('n', '\n'),
   ('v', '\x0B'), ('f', '\x0C'), ('r', '\r'), ('e', '\x1B'), (' ', ' '), ('"', '"'), ('/', '/'),
   ('\\', '\\'), ('N', '\u0085'), ('_', '\u00A0'), ('L', '\u2028'), ('P', '\u2029')]

/-- The number of digits of the escapes that give a code point. -/
def longEscapes : List (Char × Nat) := [('x', 2), ('u', 4), ('U', 8)]

/-- The character of the escape after a backslash, and the number of characters it takes. -/
def escape? : List Char → Option (Char × Nat)
  | [] => none
  | c :: s =>
    match shortEscapes.lookup c, longEscapes.lookup c with
    | some ch, _ => some (ch, 1)
    | none, some n =>
      if s.length < n then none
      else ((hexNumber? (s.take n)).bind charOf?).map (·, n + 1)
    | none, none => none

/-- What comes next inside quotes. -/
inductive QuotedStep where
  | char (c : Char) (length : Nat)
  | escapedBreak
  | gap
  | close
  | fail

/-- What comes next inside single quotes. -/
def singleStep : List Char → QuotedStep
  | '\'' :: '\'' :: _ => .char '\'' 2
  | '\'' :: _ => .close
  | c :: _ => if isBlank c || isBreak c then .gap else .char c 1
  | [] => .fail

/-- What comes next inside double quotes. -/
def doubleStep : List Char → QuotedStep
  | '"' :: _ => .close
  | '\\' :: s =>
    match s.head? with
    | none => .fail
    | some c =>
      if isBreak c then .escapedBreak
      else match escape? s with
        | some (ch, n) => .char ch (n + 1)
        | none => .fail
  | c :: _ => if isBlank c || isBreak c then .gap else .char c 1
  | [] => .fail

/-- Reads the rest of a quoted scalar, after its first quote. A line inside it must not look like a
document mark. -/
def quotedRest (step : List Char → QuotedStep) :
    Nat → Gathered → Cursor → Option (Gathered × Cursor)
  | 0, _, _ => none
  | fuel + 1, text, c =>
    if c.atDocumentMark then none
    else match step c.rest with
      | .fail => none
      | .close => some (text, c.skip)
      | .char ch n => quotedRest step fuel (ch :: text) (c.skipMany n)
      | .escapedBreak =>
        (gap none fuel .escapedBreak c.skip.skipBreak).bind fun (g, c) =>
          quotedRest step fuel (g.fold ++ text) c
      | .gap =>
        (gap none fuel .empty c).bind fun (g, c) => quotedRest step fuel (g.fold ++ text) c

/-- Reads a scalar in single quotes. -/
def singleQuoted (fuel : Nat) (c : Cursor) : Option (Token × Cursor) :=
  (quotedRest singleStep fuel [] c.skip).map fun (text, c) => (.scalar text.text false, c)

/-- Reads a scalar in double quotes. -/
def doubleQuoted (fuel : Nat) (c : Cursor) : Option (Token × Cursor) :=
  (quotedRest doubleStep fuel [] c.skip).map fun (text, c) => (.scalar text.text false, c)

end Yaml
end ComposeMerge
