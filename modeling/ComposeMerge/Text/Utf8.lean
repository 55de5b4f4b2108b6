/-!
# UTF-8

Reading bytes as text.

* `decode` reads well-formed UTF-8 and otherwise says where the first ill-formed sequence is;
* `decodeLossy` puts U+FFFD in place of each ill-formed sequence.

An ill-formed sequence is the longest start of a well-formed one that the bytes at that place
allow, and at least one byte.
-/

namespace ComposeMerge

/-- The content of a file. -/
abbrev Bytes := List UInt8

namespace Text

/-- Where bytes stop being well-formed UTF-8. `length` is the length of the ill-formed sequence,
or `none` when the bytes end inside a sequence that could have gone on. -/
structure Utf8Fault where
  index : Nat
  length : Option Nat
  deriving DecidableEq

/-- The words of a fault. -/
def Utf8Fault.message (e : Utf8Fault) : String :=
  match e.length with
  | some n => s!"invalid utf-8 sequence of {n} bytes from index {e.index}"
  | none => s!"incomplete utf-8 byte sequence from index {e.index}"

namespace Utf8

/-- The bits of a byte that continues a sequence. -/
def continuation? (b : UInt8) : Option Nat :=
  if 0x80 ≤ b && b ≤ 0xBF then some (b.toNat - 0x80) else none

/-- The least and the greatest second byte after a first one: overlong forms, surrogates and
code points above U+10FFFF are left out. -/
def secondByteRange (first : UInt8) : UInt8 × UInt8 :=
  if first = 0xE0 then (0xA0, 0xBF)
  else if first = 0xED then (0x80, 0x9F)
  else if first = 0xF0 then (0x90, 0xBF)
  else if first = 0xF4 then (0x80, 0x8F)
  else (0x80, 0xBF)

/-- The number of bytes that follow a first byte. -/
def followers? (first : UInt8) : Option Nat :=
  if first < 0x80 then some 0
  else if 0xC2 ≤ first && first ≤ 0xDF then some 1
  else if 0xE0 ≤ first && first ≤ 0xEF then some 2
  else if 0xF0 ≤ first && first ≤ 0xF4 then some 3
  else none

/-- Adds `n` continuation bytes to the bits read so far; `done` bytes have been accepted. -/
def readFollowers (bits done : Nat) : Nat → Bytes → Except (Option Nat) Nat
  | 0, _ => .ok bits
  | _ + 1, [] => .error none
  | n + 1, b :: s =>
    match continuation? b with
    | some more => readFollowers (bits * 64 + more) (done + 1) n s
    | none => .error (some done)

/-- The character that starts with byte `first`, and the number of bytes that follow it. -/
def readChar (first : UInt8) (s : Bytes) : Except (Option Nat) (Char × Nat) :=
  match followers? first with
  | none => .error (some 1)
  | some 0 => .ok (Char.ofNat first.toNat, 0)
  | some (n + 1) =>
    match s with
    | [] => .error none
    | b :: s =>
      let range := secondByteRange first
      if range.1 ≤ b && b ≤ range.2 then
        let lead := first.toNat % Nat.pow 2 (5 - n)
        (readFollowers (lead * 64 + b.toNat % 64) 2 n s).map fun bits => (Char.ofNat bits, n + 1)
      else .error (some 1)

/-- Reads bytes of which the first stands at `index`. -/
def decodeFrom (index : Nat) : Bytes → Except Utf8Fault (List Char)
  | [] => .ok []
  | b :: s =>
    match readChar b s with
    | .error length => .error ⟨index, length⟩
    | .ok (c, n) => (decodeFrom (index + 1 + n) (s.drop n)).map (c :: ·)
  termination_by s => s.length
  decreasing_by
    simp only [List.length_drop, List.length_cons]
    omega

/-- Reads well-formed bytes. -/
def decode (s : Bytes) : Except Utf8Fault (List Char) := decodeFrom 0 s

/-- Reads bytes with U+FFFD in place of each ill-formed sequence. -/
def decodeLossy : Bytes → List Char
  | [] => []
  | b :: s =>
    match readChar b s with
    | .error none => ['\uFFFD']
    | .error (some n) => '\uFFFD' :: decodeLossy (s.drop (n - 1))
    | .ok (c, n) => c :: decodeLossy (s.drop n)
  termination_by s => s.length
  decreasing_by
    all_goals
      simp only [List.length_drop, List.length_cons]
      omega

end Utf8
end Text
end ComposeMerge
