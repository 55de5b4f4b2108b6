import ComposeMerge.Text.Visible

/-!
# Quoted text

A text between quotes, as error messages and summaries show it. A backslash and the quote that
delimits the text are escaped; so is every character that would not be seen, by its code point.

* `escape` writes one character;
* `quoted` writes a text between double quotes.
-/

namespace ComposeMerge
namespace Text

/-- The lower-case hexadecimal digits of a number, without leading zeros. -/
def hexDigits (n : Nat) : List Char := Nat.toDigits 16 n

/-- The escape that names a character by its code point. -/
def codePointEscape (c : Char) : List Char :=
  ['\\', 'u', '{'] ++ hexDigits c.toNat ++ ['}']

/-- A character inside quotes, when `quotes` lists the quote characters to escape. -/
def escape (quotes : List Char) (c : Char) : List Char :=
  if c = '\x00' then ['\\', '0']
  else if c = '\t' then ['\\', 't']
  else if c = '\r' then ['\\', 'r']
  else if c = '\n' then ['\\', 'n']
  else if c = '\\' || quotes.contains c then ['\\', c]
  else if c.toNat < 0x7F && 0x20 ≤ c.toNat then [c]
  else if extendsGrapheme c || !isVisible c then codePointEscape c
  else [c]

/-- A text between double quotes, with `quotes` escaped inside it. -/
def quotedWith (quotes : List Char) (s : String) : String :=
  String.ofList ('"' :: s.toList.flatMap (escape quotes) ++ ['"'])

/-- A text between double quotes. -/
def quoted (s : String) : String := quotedWith ['"'] s

/-- A path between double quotes; a path also escapes the single quote. -/
def quotedPath (s : String) : String := quotedWith ['"', '\''] s

end Text
end ComposeMerge
