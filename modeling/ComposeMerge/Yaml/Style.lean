import ComposeMerge.Yaml.Cursor
import ComposeMerge.Yaml.Resolution

/-!
# How scalars are printed

The style that a text is printed in.

* A text with line feeds is printed as a literal block, one that would be read back as something
  else than a text between single quotes, and any other one plain.
* Where that style cannot hold the text, the next one is taken: plain, single quotes, double
  quotes. Double quotes can hold every text.
-/

namespace ComposeMerge
namespace Yaml

/-- The styles of scalars. -/
inductive Style where
  | plain
  | singleQuoted
  | doubleQuoted
  | literal
  deriving DecidableEq

namespace Style

/-- The characters that are printed as themselves. -/
def isPrintable (c : Char) : Bool :=
  let n := c.toNat
  n = 0x0A || (0x20 ≤ n && n ≤ 0x7E) || (0xA0 ≤ n && n ≤ 0xD7FF) ||
    (0xE000 ≤ n && n ≤ 0xFFFD && n ≠ 0xFEFF) || 0x10000 ≤ n

/-- Whether two characters that satisfy `p` and `q` stand side by side. -/
def hasPair (p q : Char → Bool) : List Char → Bool
  | a :: b :: s => (p a && q b) || hasPair p q (b :: s)
  | _ => false

def isSpace (c : Char) : Bool := c = ' '

/-- Whether a text contains a line end. -/
def isMultiline (s : List Char) : Bool := s.any isBreak

/-- Whether a text contains a character that must be escaped, or a space before a line end. -/
def needsEscapes (s : List Char) : Bool :=
  s.any (fun c => !isPrintable c) || hasPair isSpace isBreak s

/-- The characters that mean something at the start of a text. -/
def startIndicators : List Char := "#,[]\x7b\x7d&*!|>'\"%@".toList ++ [Char.ofNat 0x60]

/-- Whether the start of a text means something: an indicator, one of `?`, `:` and `-` before a
blank, or a document mark. -/
def startsIndicator : List Char → Bool
  | [] => false
  | c :: s =>
    startIndicators.contains c || ((c = '?' || c = ':' || c = '-') && endsWord s) ||
      (c = '-' && s.take 2 = ['-', '-']) || (c = '.' && s.take 2 = ['.', '.'])

/-- Whether a colon ends a word, or a `#` starts one. -/
def hasIndicator : List Char → Bool
  | [] => false
  | c :: s =>
    (c = ':' && endsWord s) || ((isBlank c || isBreak c) && s.head? = some '#') || hasIndicator s

/-- Whether a text starts or ends with a space or a line end. -/
def hasOpenEnd (s : List Char) : Bool :=
  let isOpen (c : Option Char) : Bool := c.any fun c => isSpace c || isBreak c
  isOpen s.head? || isOpen s.getLast?

/-- Whether a text can be printed plain. -/
def allowsPlain (s : List Char) : Bool :=
  !(needsEscapes s || isMultiline s || hasOpenEnd s || startsIndicator s || hasIndicator s)

/-- Whether a text can be printed between single quotes. -/
def allowsSingle (s : List Char) : Bool := !(needsEscapes s || hasPair isBreak isSpace s)

/-- Whether a text can be printed as a literal block. -/
def allowsLiteral (s : List Char) : Bool :=
  !(s.isEmpty || needsEscapes s || s.getLast? = some ' ')

/-- Whether a plain scalar is read back as the text that it is. -/
def readsBack (s : String) : Bool :=
  match Resolution.plainNode s with
  | some (.text _) => !Resolution.hasLeadingZero s.toList
  | _ => false

/-- The style that a text should have. -/
def wanted (s : String) : Style :=
  if s.toList.contains '\n' then .literal
  else if readsBack s then .plain
  else .singleQuoted

/-- The style that a text is printed in. A key on one line with its value is no block. -/
def choose (isKey : Bool) (s : String) : Style :=
  let cs := s.toList
  match wanted s with
  | .literal => if allowsLiteral cs && !isKey then .literal else .doubleQuoted
  | .plain =>
    if allowsPlain cs then .plain
    else if allowsSingle cs && !(isKey && isMultiline cs) then .singleQuoted
    else .doubleQuoted
  | _ => if allowsSingle cs && !(isKey && isMultiline cs) then .singleQuoted else .doubleQuoted

/-- The greatest number of bytes of a key on one line with its value. -/
def keyLimit : Nat := 128

/-- Whether a key can stand on one line with its value. -/
def isSimpleKey (s : String) : Bool := !isMultiline s.toList && s.utf8ByteSize ≤ keyLimit

end Style
end Yaml
end ComposeMerge
