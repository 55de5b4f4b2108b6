import ComposeMerge.Value

/-!
# Printing JSON

A value as a JSON text, with every entry and every item on a line of its own, indented by two
columns. The entries of a mapping keep their order.
-/

namespace ComposeMerge
namespace Json

/-- The characters that have escapes of one letter. -/
def escapeLetters : List (Char × Char) :=
  [('"', '"'), ('\\', '\\'), ('\x08', 'b'), ('\x0C', 'f'), ('\n', 'n'), ('\r', 'r'), ('\t', 't')]

/-- A character between quotes. -/
def escape (c : Char) : List Char :=
  match escapeLetters.lookup c with
  | some letter => ['\\', letter]
  | none =>
    if c.toNat < 0x20 then
      let digits := Nat.toDigits 16 c.toNat
      ['\\', 'u'] ++ List.replicate (4 - digits.length) '0' ++ digits
    else [c]

/-- A text between quotes. -/
def quoted (s : String) : String :=
  String.ofList ('"' :: s.toList.flatMap escape ++ ['"'])

/-- A number; one that is not finite has no JSON text. -/
def float (x : Double) : String := if x.isFinite then DecimalStyle.key.render x else "null"

/-- A scalar. -/
def scalar : Scalar → String
  | .null => "null"
  | .float x => float x
  | .text s => quoted s
  | s => s.asText

/-- The start of a line at some depth. -/
def newLine (depth : Nat) : String := String.ofList ('\n' :: List.replicate (2 * depth) ' ')

/-- Lines between two brackets, at some depth. -/
def bracketed (first last : String) (depth : Nat) (lines : List String) : String :=
  if lines.isEmpty then first ++ last
  else
    first ++ newLine (depth + 1) ++ String.intercalate ("," ++ newLine (depth + 1)) lines ++
      newLine depth ++ last

mutual

/-- A value at some depth. -/
def value (depth : Nat) : Value → String
  | .scalar s => scalar s
  | .sequence vs => bracketed "[" "]" depth (items (depth + 1) vs)
  | .mapping es => bracketed "\x7b" "\x7d" depth (entries (depth + 1) es)

/-- The items of a sequence. -/
def items (depth : Nat) : List Value → List String
  | [] => []
  | v :: vs => value depth v :: items depth vs

/-- The entries of a mapping. -/
def entries (depth : Nat) : List (String × Value) → List String
  | [] => []
  | (k, v) :: es => (quoted k ++ ": " ++ value depth v) :: entries depth es

end

/-- A value as a JSON text. -/
def print (v : Value) : String := value 0 v

end Json
end ComposeMerge
