import ComposeMerge.Manifest
import ComposeMerge.Proofs.ByteSizes

/-!
# Version texts

A version is announced as a number or as two numbers joined by a point. What is read is less strict:
the first number may have a plus sign, and whatever follows the point is passed over unless it has
another point in it.

* `Version.Announced` is the grammar that is announced, `Version.Accepted` the one that is read;
* `Text.natural?_eq_some_iff` says which numbers are read, and `majorVersion_eq_ok_iff` which
  versions;
* `Version.announced_iff` says which of the accepted texts are announced ones;
* `majorVersion_of_text` puts the two together.
-/

namespace ComposeMerge

open Text (isDigits splitFirst)

/-! ### Pieces and numbers -/

namespace Text

theorem splitOn_of_not_mem {sep : Char} {s : List Char} (h : sep ∉ s) : splitOn sep s = [s] := by
  rw [splitOn_eq_splitOn, List.splitOn_eq_singleton h]

theorem splitOn_append {sep : Char} {before : List Char} (h : sep ∉ before) (after : List Char) :
    splitOn sep (before ++ sep :: after) = before :: splitOn sep after := by
  rw [splitOn_eq_splitOn, List.splitOn_append_cons_self_of_not_mem h, splitOn_eq_splitOn]

/-- Whether a text is a number in decimal digits, which may have a plus sign. -/
inductive IsNatural : List Char → Nat → Prop where
  | plain {digits : List Char} (h : isDigits digits = true) :
      IsNatural digits (Nat.ofDigitChars 10 digits 0)
  | signed {digits : List Char} (h : isDigits digits = true) :
      IsNatural ('+' :: digits) (Nat.ofDigitChars 10 digits 0)

theorem not_mem_of_isDigits {c : Char} {s : List Char} (hc : c.isDigit = false)
    (h : isDigits s = true) : c ∉ s := by
  intro hmem
  have hdigit := (isDigits_iff.1 h).2 c hmem
  rw [hc] at hdigit
  cases hdigit

theorem IsNatural.not_mem {s : List Char} {n : Nat} (h : IsNatural s n) : '.' ∉ s := by
  cases h with
  | plain h => exact not_mem_of_isDigits (by decide) h
  | signed h => simpa using not_mem_of_isDigits (c := '.') (by decide) h

theorem IsNatural.ne_nil {s : List Char} {n : Nat} (h : IsNatural s n) : s ≠ [] := by
  cases h with
  | plain h => exact (isDigits_iff.1 h).1
  | signed h => simp

theorem natural?_eq_some_iff {limit n : Nat} {s : List Char} :
    natural? limit s = some n ↔ IsNatural s n ∧ n < limit := by
  have hnatural : natural? limit s = some n ↔ isDigits (dropPlus s) = true ∧
      Nat.ofDigitChars 10 (dropPlus s) 0 = n ∧ n < limit := by
    rw [natural?, ← digitsValue_eq_ofDigitChars]
    simp only [Bool.and_eq_true, decide_eq_true_eq, Option.ite_none_right_eq_some,
      Option.some.injEq]
    constructor
    · rintro ⟨⟨hdigits, hlimit⟩, rfl⟩
      exact ⟨hdigits, rfl, hlimit⟩
    · rintro ⟨hdigits, rfl, hlimit⟩
      exact ⟨⟨hdigits, hlimit⟩, rfl⟩
  rw [hnatural, ← and_assoc]
  refine and_congr_left fun _ => ⟨?_, ?_⟩
  · rintro ⟨hdigits, rfl⟩
    cases hsign : dropStart? ['+'] s with
    | none =>
      rw [dropPlus, hsign, Option.getD_none] at hdigits ⊢
      exact .plain hdigits
    | some digits =>
      rw [dropPlus, hsign, Option.getD_some] at hdigits ⊢
      rw [dropStart?_eq_some_iff.1 hsign]
      exact .signed hdigits
  · intro h
    cases h with
    | plain h =>
      have hsign : dropStart? ['+'] s = none := by
        by_contra hne
        obtain ⟨rest, hrest⟩ := Option.ne_none_iff_exists'.1 hne
        rw [dropStart?_eq_some_iff] at hrest
        exact not_mem_of_isDigits (c := '+') (by decide) h (by simp [hrest])
      rw [dropPlus, hsign]
      exact ⟨h, rfl⟩
    | signed h => exact ⟨h, rfl⟩

end Text

/-! ### Grammars of versions -/

namespace Version

open Text (IsNatural)

/-- The versions that are announced: none at all, a number, or two numbers joined by a point. The
number beside a text is its major version. -/
inductive Announced : List Char → Nat → Prop where
  | empty : Announced [] 1
  | number {major : List Char} (h : isDigits major = true) :
      Announced major (Nat.ofDigitChars 10 major 0)
  | pair {major minor : List Char} (hmajor : isDigits major = true)
      (hminor : isDigits minor = true) :
      Announced (major ++ '.' :: minor) (Nat.ofDigitChars 10 major 0)

/-- The versions that are read: the number before the point counts, and what follows it has no
other point. -/
inductive Accepted : List Char → Nat → Prop where
  | empty : Accepted [] 1
  | number {major : List Char} {n : Nat} (h : IsNatural major n) : Accepted major n
  | pair {major rest : List Char} {n : Nat} (hmajor : IsNatural major n) (hrest : '.' ∉ rest) :
      Accepted (major ++ '.' :: rest) n

variable {t : List Char} {n : Nat}

theorem accepted_nil_iff : Accepted [] n ↔ n = 1 := by
  constructor
  · intro h
    generalize ht : ([] : List Char) = t at h
    cases h with
    | empty => rfl
    | number h => exact absurd ht.symm h.ne_nil
    | pair => simp at ht
  · rintro rfl
    exact .empty

theorem accepted_of_not_mem (hpoint : '.' ∉ t) (hne : t ≠ []) : Accepted t n ↔ IsNatural t n := by
  constructor
  · intro h
    cases h with
    | empty => exact absurd rfl hne
    | number h => exact h
    | pair => simp at hpoint
  · exact .number

theorem accepted_append {major rest : List Char} (hpoint : '.' ∉ major) :
    Accepted (major ++ '.' :: rest) n ↔ IsNatural major n ∧ '.' ∉ rest := by
  constructor
  · intro h
    generalize ht : major ++ '.' :: rest = t at h
    -- The first point of a text is in one place.
    have hfirst := Text.splitFirst_append hpoint rest
    rw [ht] at hfirst
    cases h with
    | empty => cases hfirst
    | number h => exact absurd (ht ▸ by simp) h.not_mem
    | pair hmajor hrest =>
      rw [Text.splitFirst_append hmajor.not_mem] at hfirst
      cases hfirst
      exact ⟨hmajor, hrest⟩
  · rintro ⟨hmajor, hrest⟩
    exact .pair hmajor hrest

theorem Announced.accepted (h : Announced t n) : Accepted t n := by
  cases h with
  | empty => exact .empty
  | number h => exact .number (.plain h)
  | pair hmajor hminor => exact .pair (.plain hmajor) (Text.not_mem_of_isDigits (by decide) hminor)

/-- The accepted versions that are announced: those without a sign, with a number behind the point
if there is one. -/
theorem announced_iff : Announced t n ↔ Accepted t n ∧ t.head? ≠ some '+' ∧
    ∀ major minor, splitFirst '.' t = some (major, minor) → isDigits minor = true := by
  have hhead : ∀ {digits : List Char}, isDigits digits = true → digits.head? ≠ some '+' :=
    fun hdigits hplus => Text.not_mem_of_isDigits (by decide) hdigits (List.mem_of_mem_head? hplus)
  constructor
  · intro h
    refine ⟨h.accepted, ?_, ?_⟩
    · cases h with
      | empty => simp
      | number h => exact hhead h
      | pair hmajor hminor =>
        rw [List.head?_append_of_ne_nil _ (Text.isDigits_iff.1 hmajor).1]
        exact hhead hmajor
    · intro major minor hsplit
      cases h with
      | empty => cases hsplit
      | number h =>
        rw [Text.splitFirst_eq_none_iff.2 (Text.not_mem_of_isDigits (by decide) h)] at hsplit
        cases hsplit
      | pair hmajor hminor =>
        rw [Text.splitFirst_append (Text.not_mem_of_isDigits (by decide) hmajor)] at hsplit
        cases hsplit
        exact hminor
  · rintro ⟨h, hplus, hminor⟩
    cases h with
    | empty => exact .empty
    | number h =>
      cases h with
      | plain h => exact .number h
      | signed h => exact absurd rfl hplus
    | pair hmajor hrest =>
      have hdigits := hminor _ _ (Text.splitFirst_append hmajor.not_mem _)
      cases hmajor with
      | plain h => exact .pair h hdigits
      | signed h => exact absurd rfl hplus

end Version

/-! ### Reading versions -/

open Version

/-- A version is read by the pieces between its points. -/
theorem majorVersion_of_ne_empty {version : String} (h : version.toList ≠ []) :
    majorVersion version = match Text.splitOn '.' version.toList with
      | [major] | [major, _] =>
        (Text.natural? (2 ^ 32) major).elim (.error (.format (.version version))) .ok
      | _ => .error (.format (.version version)) := by
  have hempty : version.isEmpty = false := by
    rw [Bool.eq_false_iff]
    simpa using h
  rw [majorVersion, if_neg (by simp [hempty])]
  rfl

theorem elim_natural?_eq_ok_iff {limit n : Nat} {s : List Char} {e : Error} :
    (Text.natural? limit s).elim (.error e) .ok = (.ok n : Except Error Nat) ↔
      Text.IsNatural s n ∧ n < limit := by
  rw [← Text.natural?_eq_some_iff]
  cases Text.natural? limit s <;> simp

/-- A version is read when it is accepted and its major number fits in 32 bits. -/
theorem majorVersion_eq_ok_iff {version : String} {n : Nat} :
    majorVersion version = .ok n ↔ Accepted version.toList n ∧ n < 2 ^ 32 := by
  by_cases hne : version.toList = []
  · rw [String.toList_eq_nil_iff.1 hne, String.toList_empty, accepted_nil_iff]
    constructor
    · intro h
      cases h
      exact ⟨rfl, by norm_num⟩
    · rintro ⟨rfl, -⟩
      rfl
  · rw [majorVersion_of_ne_empty hne]
    cases hfirst : splitFirst '.' version.toList with
    | none =>
      have hpoint := Text.splitFirst_eq_none_iff.1 hfirst
      rw [Text.splitOn_of_not_mem hpoint, accepted_of_not_mem hpoint hne]
      exact elim_natural?_eq_ok_iff
    | some parts =>
      obtain ⟨major, rest⟩ := parts
      obtain ⟨hpoint, htext⟩ := Text.splitFirst_eq_some_iff.1 hfirst
      rw [htext, Text.splitOn_append hpoint, accepted_append hpoint]
      cases hsecond : splitFirst '.' rest with
      | none =>
        have hrest := Text.splitFirst_eq_none_iff.1 hsecond
        rw [Text.splitOn_of_not_mem hrest]
        simp only [hrest, not_false_iff, and_true]
        exact elim_natural?_eq_ok_iff
      | some parts =>
        -- With a second point there are at least three pieces.
        obtain ⟨minor, more⟩ := parts
        obtain ⟨hminor, rfl⟩ := Text.splitFirst_eq_some_iff.1 hsecond
        rw [Text.splitOn_append hminor]
        obtain ⟨piece, pieces, hpieces⟩ :=
          List.exists_cons_of_ne_nil (Text.splitOn_ne_nil '.' more)
        rw [hpieces]
        simp

theorem eq_of_majorVersion_eq_error {version : String} {e : Error}
    (h : majorVersion version = .error e) : e = .format (.version version) := by
  have helim : ∀ major, (Text.natural? (2 ^ 32) major).elim
      (.error (.format (.version version))) (.ok : Nat → Except Error Nat) = .error e →
        e = .format (.version version) := by
    intro major hmajor
    cases hnatural : Text.natural? (2 ^ 32) major with
    | none =>
      rw [hnatural] at hmajor
      cases hmajor
      rfl
    | some n =>
      rw [hnatural] at hmajor
      cases hmajor
  unfold majorVersion at h
  split at h
  · cases h
  · split at h
    · exact helim _ h
    · exact helim _ h
    · cases h
      rfl

/-- **Versions are read more freely than announced.** A version is read, with its major number, just
when it is accepted and the number is below `2 ^ 32`; every other text is an error that shows it.
Of the versions that are read those are announced which have no sign, and a number behind their
point if they have one. -/
theorem majorVersion_of_text (version : String) :
    (∀ n, majorVersion version = .ok n ↔ Accepted version.toList n ∧ n < 2 ^ 32) ∧
    ((¬∃ n, Accepted version.toList n ∧ n < 2 ^ 32) ↔
      majorVersion version = .error (.format (.version version))) ∧
    ∀ n, (Announced version.toList n ∧ n < 2 ^ 32) ↔
      majorVersion version = .ok n ∧ version.toList.head? ≠ some '+' ∧
        ∀ major minor, splitFirst '.' version.toList = some (major, minor) →
          isDigits minor = true := by
  refine ⟨fun n => majorVersion_eq_ok_iff, ?_, fun n => ?_⟩
  · constructor
    · intro hnone
      cases h : majorVersion version with
      | error e => rw [eq_of_majorVersion_eq_error h]
      | ok n => exact absurd ⟨n, majorVersion_eq_ok_iff.1 h⟩ hnone
    · rintro h ⟨n, hn⟩
      rw [majorVersion_eq_ok_iff.2 hn] at h
      cases h
  · rw [majorVersion_eq_ok_iff, announced_iff]
    tauto

/-- A letter behind the point is passed over, and so is a sign before the number, though neither
text is announced as a version. -/
theorem letter_behind_point_passed_over :
    majorVersion "2.x" = .ok 2 ∧ majorVersion "+2" = .ok 2 ∧
      (¬∃ n, Announced "2.x".toList n) ∧ ¬∃ n, Announced "+2".toList n := by
  refine ⟨by decide +kernel, by decide +kernel, ?_, ?_⟩
  · rintro ⟨n, h⟩
    have hminor := (announced_iff.1 h).2.2 ['2'] ['x'] (by decide +kernel)
    exact absurd hminor (by decide)
  · rintro ⟨n, h⟩
    exact (announced_iff.1 h).2.1 (by decide +kernel)

end ComposeMerge
