import ComposeMerge.Text.Blank

/-!
# Variable references

The pieces of a text that may refer to variables.

* `tokenize` splits a text into literal runs, `$$`, `$NAME` and `${NAME…}`; when a `$` starts none
  of these it gives the rest of the text from there on;
* `Segment.render` writes a piece, with braces around every name.

A name is a letter or `_` followed by letters, digits and `_`, all of them ASCII.
-/

namespace ComposeMerge
namespace Reference

/-- What to do when a variable is unset or, with `whenEmpty`, empty. -/
inductive Modifier where
  /-- `-word` or `:-word`: use the word. -/
  | default (word : String) (whenEmpty : Bool)
  /-- `?message` or `:?message`: fail. -/
  | required (message : String) (whenEmpty : Bool)
  deriving DecidableEq

/-- A piece of a text. -/
inductive Segment where
  | literal (text : String)
  | dollar
  | variable (name : String) (modifier : Option Modifier)
  deriving DecidableEq

/-- The characters that a name starts with. -/
def isNameStart (c : Char) : Bool := c.isAlpha || c = '_'

/-- The characters that a name goes on with. -/
def isNameChar (c : Char) : Bool := c.isAlphanum || c = '_'

/-- The name at the start of a text, and the rest. -/
def name? : List Char → Option (List Char × List Char)
  | [] => none
  | c :: s =>
    if isNameStart c then some (c :: s.takeWhile isNameChar, s.dropWhile isNameChar) else none

/-- The text before the first closing brace, and the rest from that brace on. -/
def word (s : List Char) : String × List Char :=
  (String.ofList (s.takeWhile (· ≠ '}')), s.dropWhile (· ≠ '}'))

/-- The modifier at the start of a text, if there is one, and the rest. -/
def modifier : List Char → Option Modifier × List Char
  | ':' :: '-' :: s => (some (.default (word s).1 true), (word s).2)
  | ':' :: '?' :: s => (some (.required (word s).1 true), (word s).2)
  | '-' :: s => (some (.default (word s).1 false), (word s).2)
  | '?' :: s => (some (.required (word s).1 false), (word s).2)
  | s => (none, s)

/-- The rest of a text after its first character, if that is a closing brace. -/
def close? : List Char → Option (List Char)
  | '}' :: s => some s
  | _ => none

/-- A reference after `${`: a name, a modifier and a closing brace. -/
def braced? (s : List Char) : Option (Segment × List Char) :=
  (name? s).bind fun (name, s) =>
    (close? (modifier s).2).map fun rest => (.variable (String.ofList name) (modifier s).1, rest)

/-- A reference after `$`: a name. -/
def bare? (s : List Char) : Option (Segment × List Char) :=
  (name? s).map fun (name, rest) => (.variable (String.ofList name) none, rest)

/-- The piece at the start of a text, and the rest. -/
def piece? : List Char → Option (Segment × List Char)
  | [] => none
  | '$' :: '$' :: s => some (.dollar, s)
  | '$' :: '{' :: s => braced? s
  | '$' :: s => bare? s
  | c :: s => some (.literal (String.ofList (c :: s.takeWhile (· ≠ '$'))), s.dropWhile (· ≠ '$'))

/-! ### A piece takes at least one character -/

theorem length_dropWhile_le {α : Type} (p : α → Bool) (l : List α) :
    (l.dropWhile p).length ≤ l.length :=
  (List.dropWhile_sublist p).length_le

theorem length_name? {s name rest : List Char} (h : name? s = some (name, rest)) :
    rest.length < s.length := by
  cases s with
  | nil => simp [name?] at h
  | cons c s =>
    rw [name?] at h
    split at h
    · simp only [Option.some.injEq, Prod.mk.injEq] at h
      have := length_dropWhile_le isNameChar s
      simp only [← h.2, List.length_cons]
      omega
    · simp at h

theorem length_modifier (s : List Char) : (modifier s).2.length ≤ s.length := by
  unfold modifier
  split <;> simp only [word, List.length_cons]
  all_goals
    try
      rename_i r
      have := length_dropWhile_le (fun c : Char => decide (c ≠ '}')) r
      omega
  all_goals omega

theorem length_close? {s rest : List Char} (h : close? s = some rest) :
    rest.length < s.length := by
  unfold close? at h
  split at h
  · simp_all
  · simp at h

theorem length_braced? {s rest : List Char} {seg : Segment} (h : braced? s = some (seg, rest)) :
    rest.length < s.length := by
  obtain ⟨⟨name, r⟩, hn, h⟩ := Option.bind_eq_some_iff.1 h
  obtain ⟨r', hc, h⟩ := Option.map_eq_some_iff.1 h
  simp only [Prod.mk.injEq] at h
  have h1 := length_name? hn
  have h2 := length_modifier r
  have h3 := length_close? hc
  rw [← h.2]
  omega

theorem length_bare? {s rest : List Char} {seg : Segment} (h : bare? s = some (seg, rest)) :
    rest.length < s.length := by
  obtain ⟨⟨name, r⟩, hn, h⟩ := Option.map_eq_some_iff.1 h
  simp only [Prod.mk.injEq] at h
  exact h.2 ▸ length_name? hn

theorem length_piece? {s rest : List Char} {seg : Segment} (h : piece? s = some (seg, rest)) :
    rest.length < s.length := by
  unfold piece? at h
  split at h
  · simp at h
  · simp only [Option.some.injEq, Prod.mk.injEq] at h
    simp only [← h.2, List.length_cons]
    omega
  · have := length_braced? h
    simp only [List.length_cons]
    omega
  · have := length_bare? h
    simp only [List.length_cons]
    omega
  · next c r _ _ _ =>
    simp only [Option.some.injEq, Prod.mk.injEq] at h
    have := length_dropWhile_le (fun c : Char => decide (c ≠ '$')) r
    simp only [← h.2, List.length_cons]
    omega

/-! ### All pieces -/

/-- The pieces of a text, or the rest of it from the first `$` that starts no piece. -/
def segments (s : List Char) : Except (List Char) (List Segment) :=
  if s.isEmpty then .ok []
  else match _piece : piece? s with
    | none => .error s
    | some (segment, rest) => (segments rest).map (segment :: ·)
  termination_by s.length
  decreasing_by exact length_piece? _piece

theorem segments_nil : segments [] = .ok [] := by
  rw [segments]
  rfl

theorem segments_of_piece {s rest : List Char} {segment : Segment}
    (h : piece? s = some (segment, rest)) : segments s = (segments rest).map (segment :: ·) := by
  have hne : ¬s.isEmpty = true := by
    intro hempty
    rw [List.isEmpty_iff.1 hempty] at h
    cases h
  rw [segments, if_neg hne]
  split
  · next hnone => cases h.symm.trans hnone
  · next hsome =>
    cases h.symm.trans hsome
    rfl

theorem segments_of_no_piece {s : List Char} (hne : s ≠ []) (h : piece? s = none) :
    segments s = .error s := by
  rw [segments, if_neg (by simpa using hne)]
  split
  · rfl
  · next hsome => cases h.symm.trans hsome

/-- Splits a text into its pieces. -/
def tokenize (input : String) : Except String (List Segment) :=
  (segments input.toList).mapError String.ofList

/-! ### Writing pieces -/

/-- A modifier as it is written after a name. -/
def Modifier.render : Modifier → List Char
  | .default w true => ':' :: '-' :: w.toList
  | .default w false => '-' :: w.toList
  | .required m true => ':' :: '?' :: m.toList
  | .required m false => '?' :: m.toList

/-- A piece as it is written, with braces around a name. -/
def Segment.render : Segment → List Char
  | .literal text => text.toList
  | .dollar => ['$', '$']
  | .variable name m =>
    ['$', '{'] ++ name.toList ++ (m.elim [] Modifier.render) ++ ['}']

end Reference
end ComposeMerge
