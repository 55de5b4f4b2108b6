import ComposeMerge.Value
import ComposeMerge.Yaml.Style

/-!
# Printing YAML

A value as a YAML document in block style: entries below each other, indented by two columns, with
the items of a sequence at the column of its key. Nothing is folded.

* a `Pen` has written some text and knows where it is on its line;
* `print` writes a whole document.
-/

namespace ComposeMerge
namespace Yaml

/-- A pen on its line. -/
structure Pen where
  /-- What has been written, in reverse. -/
  written : List Char
  column : Nat
  /-- Whether what comes next is set off from what has been written. -/
  isSetOff : Bool
  /-- Whether nothing but indicators has been written on this line. -/
  isIndented : Bool

namespace Pen

/-- A pen on an empty page. -/
def start : Pen := ⟨[], 0, true, true⟩

/-- Writes a character. -/
def put (p : Pen) (c : Char) : Pen := { p with written := c :: p.written, column := p.column + 1 }

/-- Writes characters of one line. -/
def puts (p : Pen) (s : List Char) : Pen := s.foldl put p

/-- Ends the line. -/
def endLine (p : Pen) (c : Char) : Pen := { p with written := c :: p.written, column := 0 }

/-- Goes to a column, on a new line if need be. -/
def indentTo (p : Pen) (column : Nat) : Pen :=
  let p := if !p.isIndented || column < p.column || (p.column = column && !p.isSetOff) then
    p.endLine '\n' else p
  { p.puts (List.replicate (column - p.column) ' ') with isSetOff := true, isIndented := true }

/-- Writes a space, unless what comes next is set off already. -/
def setOff (p : Pen) : Pen := if p.isSetOff then p else p.put ' '

/-- Writes an indicator at the start of something; it counts as indentation. -/
def mark (p : Pen) (c : Char) : Pen := { p.setOff.put c with isSetOff := false }

/-- Writes an indicator inside a line. -/
def indicator (p : Pen) (c : Char) : Pen := { p.put c with isSetOff := false, isIndented := false }

/-- Writes a character of a scalar; after a line end it is indented. The truth value tells whether a
line end comes before it. -/
def putText (column : Nat) (write : Pen → Char → Pen) (state : Pen × Bool) (c : Char) :
    Pen × Bool :=
  let (p, isBroken) := state
  if isBreak c then ({ p.endLine c with isIndented := true }, true)
  else
    let p := if isBroken then p.indentTo column else p
    ({ write p c with isIndented := false }, false)

/-! ### Scalars -/

/-- Writes a plain scalar. -/
def plain (p : Pen) (s : List Char) : Pen :=
  let p := if s.isEmpty then p else p.setOff
  { p.puts s with isSetOff := false, isIndented := false }

/-- Writes a character between single quotes. -/
def putSingle (p : Pen) (c : Char) : Pen := if c = '\'' then (p.put c).put c else p.put c

/-- Writes a scalar between single quotes. -/
def singleQuoted (p : Pen) (column : Nat) (s : List Char) : Pen :=
  let (p, isBroken) := s.foldl (putText column putSingle) (p.setOff.indicator '\'', false)
  (if isBroken then p.indentTo column else p).indicator '\''

/-- The characters that have escapes of one letter. -/
def escapeLetters : List (Char × Char) :=
  [('\x00', '0'), ('\x07', 'a'), ('\x08', 'b'), ('\t', 't'), ('\n', 'n'), ('\x0B', 'v'),
   ('\x0C', 'f'), ('\r', 'r'), ('\x1B', 'e'), ('"', '"'), ('\\', '\\'), ('\u0085', 'N'),
   ('\u2028', 'L'), ('\u2029', 'P')]

/-- The hexadecimal digits of a code point, `width` of them. -/
def paddedHex (width n : Nat) : List Char :=
  let digits := (Nat.toDigits 16 n).map Char.toUpper
  List.replicate (width - digits.length) '0' ++ digits

/-- The escape of a character. -/
def escape (c : Char) : List Char :=
  let n := c.toNat
  match escapeLetters.lookup c with
  | some letter => ['\\', letter]
  | none =>
    if n ≤ 0xFF then '\\' :: 'x' :: paddedHex 2 n
    else if n ≤ 0xFFFF then '\\' :: 'u' :: paddedHex 4 n
    else '\\' :: 'U' :: paddedHex 8 n

/-- Writes a character between double quotes. -/
def putDouble (p : Pen) (c : Char) : Pen :=
  if !Style.isPrintable c || isBreak c || c = '"' || c = '\\' then p.puts (escape c) else p.put c

/-- Writes a scalar between double quotes. -/
def doubleQuoted (p : Pen) (s : List Char) : Pen :=
  (s.foldl putDouble (p.setOff.indicator '"')).indicator '"'

/-- The signs in the header of a literal block: the indentation, when the text starts with a space
or a line end, and what happens to the line ends after the text. -/
def literalHints (s : List Char) : List Char :=
  let indentation := if s.head?.any fun c => Style.isSpace c || isBreak c then ['2'] else []
  let chomping := match s.reverse with
    | [] => ['-']
    | c :: before =>
      if !isBreak c then ['-']
      else match before with
        | [] => ['+']
        | b :: _ => if isBreak b then ['+'] else []
  indentation ++ chomping

/-- Writes a literal block. -/
def literal (p : Pen) (column : Nat) (s : List Char) : Pen :=
  let p := (p.setOff.indicator '|').puts (literalHints s)
  let p := { p.endLine '\n' with isIndented := true, isSetOff := true }
  (s.foldl (putText column put) (p, true)).1

/-- Writes a text in a collection at a column. -/
def text (p : Pen) (column : Nat) (isKey : Bool) (s : String) : Pen :=
  match Style.choose isKey s with
  | .plain => p.plain s.toList
  | .singleQuoted => p.singleQuoted column s.toList
  | .doubleQuoted => p.doubleQuoted s.toList
  | .literal => p.literal column s.toList

/-- Writes a scalar in a collection at a column. -/
def scalar (p : Pen) (column : Nat) : Scalar → Pen
  | .null => p.plain "null".toList
  | .float x => p.plain (DecimalStyle.key.render x).toList
  | .text s => p.text column false s
  | s => p.plain s.asText.toList

/-! ### Collections -/

/-- The columns between a collection and what it contains. -/
def step : Nat := 2

/-- The column of what a collection contains. -/
def inner (column : Option Nat) : Nat := column.elim 0 (· + step)

/-- The column of the scalars that a collection contains. -/
def scalarColumn (column : Option Nat) : Nat := column.elim step (· + step)

/-- Writes two brackets with nothing between them. -/
def brackets (p : Pen) (first last : Char) : Pen := ((p.setOff).indicator first).indicator last

/-- Writes a key and the colon after it. -/
def key (p : Pen) (column : Nat) (k : String) : Pen :=
  let p := p.indentTo column
  if Style.isSimpleKey k then (p.text (column + step) true k).indicator ':'
  else (((p.mark '?').text (column + step) false k).indentTo column).mark ':'

mutual

/-- Writes a value in a collection at a column. -/
def value (p : Pen) (column : Option Nat) (inMapping : Bool) : Value → Pen
  | .scalar s => p.scalar (scalarColumn column) s
  | .sequence [] => p.brackets '[' ']'
  | .sequence (v :: vs) =>
    -- under its key a sequence is not indented, unless the key takes lines of its own
    let here := if inMapping && !p.isIndented then column.getD 0 else inner column
    items p here (v :: vs)
  | .mapping [] => p.brackets '{' '}'
  | .mapping (e :: es) => entries p (inner column) (e :: es)

/-- Writes the items of a sequence at a column. -/
def items (p : Pen) (column : Nat) : List Value → Pen
  | [] => p
  | v :: vs => items (value ((p.indentTo column).mark '-') (some column) false v) column vs

/-- Writes the entries of a mapping at a column. -/
def entries (p : Pen) (column : Nat) : List (String × Value) → Pen
  | [] => p
  | (k, v) :: es => entries (value (p.key column k) (some column) true v) column es

end

end Pen

/-- A value as a YAML document. -/
def print (v : Value) : String :=
  String.ofList (((Pen.start.value none false v).indentTo 0).written.reverse)

end Yaml
end ComposeMerge
