/-!
# White space

The white space of Unicode, and the two operations that use it.

* `isBlank` holds of the characters with the property `White_Space`;
* `trim` drops white space at both ends of a text;
* `lines` cuts a text at its line feeds.
-/

namespace ComposeMerge
namespace Text

/-- The characters with the Unicode property `White_Space`. -/
def isBlank (c : Char) : Bool :=
  let n := c.toNat
  (9 ≤ n && n ≤ 13) || n == 0x20 || n == 0x85 || n == 0xA0 || n == 0x1680 ||
    (0x2000 ≤ n && n ≤ 0x200A) || n == 0x2028 || n == 0x2029 || n == 0x202F || n == 0x205F ||
    n == 0x3000

/-- A text without the white space it starts with. -/
def trimStart (s : List Char) : List Char := s.dropWhile isBlank

/-- A text without the white space it ends with. -/
def trimEnd (s : List Char) : List Char := (s.reverse.dropWhile isBlank).reverse

/-- A text without the white space at both of its ends. -/
def trim (s : List Char) : List Char := trimEnd (trimStart s)

/-- The pieces of a text between occurrences of `sep`; there is always at least one. -/
def splitOn (sep : Char) : List Char → List (List Char)
  | [] => [[]]
  | c :: s =>
    if c = sep then [] :: splitOn sep s
    else match splitOn sep s with
      | [] => [[c]]
      | piece :: more => (c :: piece) :: more

/-- The lines of a text: the pieces between its line feeds. -/
def lines (s : List Char) : List (List Char) := splitOn '\n' s

/-- The text before the first `sep` and the text after it. -/
def splitFirst (sep : Char) : List Char → Option (List Char × List Char)
  | [] => none
  | c :: s =>
    if c = sep then some ([], s)
    else (splitFirst sep s).map fun (before, after) => (c :: before, after)

/-- What follows `start` in a text that begins with it. -/
def dropStart? : List Char → List Char → Option (List Char)
  | [], s => some s
  | _ :: _, [] => none
  | p :: start, c :: s => if p = c then dropStart? start s else none

/-- What precedes `ending` in a text that finishes with it. -/
def dropEnd? (ending s : List Char) : Option (List Char) :=
  (dropStart? ending.reverse s.reverse).map List.reverse

/-- Whether a text begins with `start`. -/
def startsWith (start s : List Char) : Bool := (dropStart? start s).isSome

/-! ### Laws -/

theorem splitOn_ne_nil (sep : Char) (s : List Char) : splitOn sep s ≠ [] := by
  cases s with
  | nil => simp [splitOn]
  | cons c s =>
    rw [splitOn]
    split
    · simp
    · split <;> simp

theorem splitFirst_append {sep : Char} {before : List Char} (h : sep ∉ before)
    (after : List Char) : splitFirst sep (before ++ sep :: after) = some (before, after) := by
  induction before with
  | nil => simp [splitFirst]
  | cons c before ih =>
    obtain ⟨hc, hbefore⟩ : sep ≠ c ∧ sep ∉ before := by simpa using h
    rw [List.cons_append, splitFirst, if_neg hc.symm, ih hbefore]
    rfl

theorem splitFirst_eq_some_iff {sep : Char} {s before after : List Char} :
    splitFirst sep s = some (before, after) ↔ sep ∉ before ∧ s = before ++ sep :: after := by
  constructor
  · intro h
    induction s generalizing before with
    | nil => simp [splitFirst] at h
    | cons c s ih =>
      rw [splitFirst] at h
      split at h
      · simp_all
      · next hc =>
        obtain ⟨⟨b, a⟩, hs, he⟩ := Option.map_eq_some_iff.1 h
        simp only [Prod.mk.injEq] at he
        obtain ⟨rfl, rfl⟩ := he
        obtain ⟨hb, rfl⟩ := ih hs
        simp [hb, Ne.symm hc]
  · rintro ⟨h, rfl⟩
    exact splitFirst_append h after

theorem splitFirst_eq_none_iff {sep : Char} {s : List Char} :
    splitFirst sep s = none ↔ sep ∉ s := by
  induction s with
  | nil => simp [splitFirst]
  | cons c s ih =>
    rw [splitFirst]
    split
    · simp_all
    · next h => simp [ih, Ne.symm h]

theorem dropStart?_eq_some_iff {start s rest : List Char} :
    dropStart? start s = some rest ↔ s = start ++ rest := by
  induction start generalizing s with
  | nil => simp [dropStart?, eq_comm]
  | cons p start ih =>
    cases s with
    | nil => simp [dropStart?]
    | cons c s =>
      rw [dropStart?]
      split
      · simp_all
      · simp_all [eq_comm]

theorem startsWith_iff {start s : List Char} : startsWith start s = true ↔ start <+: s := by
  rw [startsWith, Option.isSome_iff_exists]
  simp only [dropStart?_eq_some_iff]
  exact ⟨fun ⟨rest, h⟩ => ⟨rest, h.symm⟩, fun ⟨rest, h⟩ => ⟨rest, h.symm⟩⟩

end Text
end ComposeMerge
