import ComposeMerge.Yaml.Token.Quoted

/-!
# Anchors, tags and directives

The tokens that are made of names: anchors and aliases, tags, and the directives before a document.
-/

namespace ComposeMerge
namespace Yaml

/-- Reads the characters that satisfy `p`. -/
def takeChars (p : Char → Bool) (c : Cursor) : List Char × Cursor :=
  (c.rest.takeWhile p, c.skipWhile p)

/-- Passes over one expected character. -/
def expectChar (ch : Char) (c : Cursor) : Option Cursor :=
  if c.peek? = some ch then some c.skip else none

/-- The characters that may stand directly after the name of an anchor. -/
def endsAnchor (s : List Char) : Bool :=
  endsWord s || ("?:,]\x7d%@".toList ++ [Char.ofNat 0x60]).any fun ch => s.head? = some ch

/-- Reads the name of an anchor or an alias, after its indicator. -/
def anchorName (c : Cursor) : Option (String × Cursor) :=
  let (name, c) := takeChars isWordChar c.skip
  if name.isEmpty || !endsAnchor c.rest then none else some (String.ofList name, c)

/-! ### Tags -/

/-- The characters of a tag, besides those of words. -/
def isTagChar (isVerbatim : Bool) (c : Char) : Bool :=
  isWordChar c || ";/?:@&=+$.!~*'()%".toList.contains c || (isVerbatim && ",[]".toList.contains c)

/-- The number of bytes in the sequence that a byte starts. -/
def sequenceLength? (byte : Nat) : Option Nat :=
  if byte < 0x80 then some 1
  else if 0xC0 ≤ byte && byte < 0xE0 then some 2
  else if 0xE0 ≤ byte && byte < 0xF0 then some 3
  else if 0xF0 ≤ byte && byte < 0xF8 then some 4
  else none

/-- The byte of an escape in a tag. -/
def tagByte? : List Char → Option Nat
  | '%' :: a :: b :: _ => hexNumber? [a, b]
  | _ => none

/-- The continuation bytes of an escaped character, added to the bits of its first byte. -/
def tagContinuation (bits : Nat) : Nat → Cursor → Option (Nat × Cursor)
  | 0, c => some (bits, c)
  | n + 1, c => do
    let byte ← tagByte? c.rest
    if byte / 64 = 2 then tagContinuation (bits * 64 + byte % 64) n (c.skipMany 3) else none

/-- The character that the escapes at this place stand for. -/
def tagEscape (c : Cursor) : Option (Char × Cursor) := do
  let byte ← tagByte? c.rest
  let length ← sequenceLength? byte
  let lead := if length = 1 then byte else byte % Nat.pow 2 (7 - length)
  let (bits, c) ← tagContinuation lead (length - 1) (c.skipMany 3)
  some (Char.ofNat bits, c)

/-- Reads the characters of a tag. -/
def tagChars (isVerbatim : Bool) : Nat → Gathered → Cursor → Option (Gathered × Cursor)
  | 0, _, _ => none
  | fuel + 1, text, c =>
    match c.peek? with
    | some '%' =>
      match tagEscape c with
      | some (ch, c) => tagChars isVerbatim fuel (ch :: text) c
      | none => none
    | some ch =>
      if isTagChar isVerbatim ch then tagChars isVerbatim fuel (ch :: text) c.skip
      else some (text, c)
    | none => some (text, c)

/-- Reads the handle of a tag: `!`, `!!` or `!name!`, or `!` with the start of a suffix. -/
def tagHandle (c : Cursor) : Option (List Char × Cursor) := do
  let c ← expectChar '!' c
  let (name, c) := takeChars isWordChar c
  if c.peek? = some '!' then some ('!' :: name ++ ['!'], c.skip) else some ('!' :: name, c)

/-- Whether a handle ends in an exclamation mark of its own. -/
def isWholeHandle (handle : List Char) : Bool :=
  2 ≤ handle.length && handle.getLast? = some '!'

/-- Reads a tag without its end. -/
def tagBody (fuel : Nat) (c : Cursor) : Option (Token × Cursor) :=
  if c.rest[1]? = some '<' then do
    let (text, c) ← tagChars true fuel [] (c.skipMany 2)
    let c ← expectChar '>' c
    if text.isEmpty then none else some (.tag "" text.text, c)
  else do
    let (handle, c) ← tagHandle c
    if isWholeHandle handle then do
      let (suffix, c) ← tagChars false fuel [] c
      if suffix.isEmpty then none else some (.tag (String.ofList handle) suffix.text, c)
    else do
      let (suffix, c) ← tagChars false fuel (handle.drop 1).reverse c
      some (if suffix.isEmpty then .tag "" "!" else .tag "!" suffix.text, c)

/-- Reads a tag. -/
def tagToken (inFlow : Bool) (fuel : Nat) (c : Cursor) : Option (Token × Cursor) := do
  let (token, c) ← tagBody fuel c
  if endsWord c.rest || (inFlow && c.peek? = some ',') then some (token, c) else none

/-! ### Directives -/

/-- Reads a number of at most nine digits. -/
def directiveNumber (c : Cursor) : Option (Nat × Cursor) :=
  let (digits, c) := takeChars Char.isDigit c
  if digits.isEmpty || 9 < digits.length then none
  else some (digits.foldl (fun n d => n * 10 + (d.toNat - 48)) 0, c)

/-- Reads the version of a version directive. -/
def versionDirective (c : Cursor) : Option (Token × Cursor) := do
  let (major, c) ← directiveNumber (c.skipWhile isBlank)
  let c ← expectChar '.' c
  let (minor, c) ← directiveNumber c
  some (.versionDirective major minor, c)

/-- Reads the handle and the start that a tag directive gives it. -/
def tagDirective (fuel : Nat) (c : Cursor) : Option (Token × Cursor) := do
  let (handle, c) ← tagHandle (c.skipWhile isBlank)
  if handle.getLast? ≠ some '!' || !startsBlank c.rest then none
  else do
    let (start, c) ← tagChars true fuel [] (c.skipWhile isBlank)
    if start.isEmpty || !endsWord c.rest then none
    else some (.tagDirective (String.ofList handle) start.text, c)

/-- Passes over the rest of the line of a directive: blanks, a comment and the line end. -/
def finishDirective (c : Cursor) : Option Cursor :=
  let c := c.skipWhile isBlank
  let c := if c.peek? = some '#' then c.skipLine else c
  if endsLine c.rest then some c.skipBreak else none

/-- Reads a directive. -/
def directive (fuel : Nat) (c : Cursor) : Option (Token × Cursor) := do
  let (name, c) := takeChars isWordChar c.skip
  let (token, c) ←
    if !endsWord c.rest then none
    else if name = "YAML".toList then versionDirective c
    else if name = "TAG".toList then tagDirective fuel c
    else none
  let c ← finishDirective c
  some (token, c)

end Yaml
end ComposeMerge
