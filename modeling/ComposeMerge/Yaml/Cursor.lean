/-!
# Places in a document

A `Cursor` is a place in the text of a YAML document: what is still to be read, and how much has
been read, as a number of bytes, of lines and of columns.

* `isBreak` holds of the characters that end a line, `isBlank` of space and tab;
* `skip` passes over one character of a line, `skipBreak` over the end of a line;
* `atDocumentMark` recognises the lines `---` and `...`.
-/

namespace ComposeMerge
namespace Yaml

/-- The characters that end a line. -/
def isBreak (c : Char) : Bool :=
  c = '\n' || c = '\r' || c = '\u0085' || c = '\u2028' || c = '\u2029'

/-- Space and tab. -/
def isBlank (c : Char) : Bool := c = ' ' || c = '\t'

/-- The characters of anchors, tag handles and directive names. -/
def isWordChar (c : Char) : Bool := c.isAlphanum || c = '_' || c = '-'

/-- The characters that a document may contain. -/
def isAllowed (c : Char) : Bool :=
  let n := c.toNat
  n = 0x09 || n = 0x0A || n = 0x0D || (0x20 ≤ n && n ≤ 0x7E) || n = 0x85 ||
    (0xA0 ≤ n && n ≤ 0xD7FF) || (0xE000 ≤ n && n ≤ 0xFFFD) || 0x10000 ≤ n

/-- A line end as it counts in a scalar: most of them are line feeds there. -/
def foldedBreak (c : Char) : Char := if c = '\u2028' || c = '\u2029' then c else '\n'

/-- Whether a text is at its end or at the end of a line. -/
def endsLine : List Char → Bool
  | [] => true
  | c :: _ => isBreak c

/-- Whether a text is at its end, at the end of a line, or at a blank. -/
def endsWord : List Char → Bool
  | [] => true
  | c :: _ => isBlank c || isBreak c

/-- Whether a text starts with a blank. -/
def startsBlank : List Char → Bool
  | [] => false
  | c :: _ => isBlank c

/-- A place in a document. -/
structure Cursor where
  rest : List Char
  /-- The number of bytes before this place. -/
  index : Nat
  line : Nat
  column : Nat

namespace Cursor

/-- The start of a document. -/
def start (text : List Char) : Cursor := ⟨text, 0, 0, 0⟩

/-- The next character. -/
def peek? (c : Cursor) : Option Char := c.rest.head?

/-- The number of bytes of some characters. -/
def byteCount (s : List Char) : Nat := s.foldr (fun c n => c.utf8Size + n) 0

/-- The place after some characters of a line. -/
def skipMany (c : Cursor) (n : Nat) : Cursor :=
  ⟨c.rest.drop n, c.index + byteCount (c.rest.take n), c.line, c.column + n⟩

/-- The place after one character of a line. -/
def skip (c : Cursor) : Cursor := c.skipMany 1

/-- The place after a line end, which a carriage return and a line feed may form together. -/
def skipBreak (c : Cursor) : Cursor :=
  match c.rest with
  | '\r' :: '\n' :: r => ⟨r, c.index + 2, c.line + 1, 0⟩
  | b :: r => ⟨r, c.index + b.utf8Size, c.line + 1, 0⟩
  | [] => c

/-- The place after the characters that satisfy `p`; no line end does. -/
def skipWhile (p : Char → Bool) (c : Cursor) : Cursor := c.skipMany (c.rest.takeWhile p).length

/-- The place of the next line end. -/
def skipLine (c : Cursor) : Cursor := c.skipWhile fun ch => !isBreak ch

/-- Whether a line starts here that marks the start or the end of a document. -/
def atDocumentMark (c : Cursor) : Bool :=
  c.column = 0 &&
    match c.rest with
    | '-' :: '-' :: '-' :: r => endsWord r
    | '.' :: '.' :: '.' :: r => endsWord r
    | _ => false

end Cursor
end Yaml
end ComposeMerge
