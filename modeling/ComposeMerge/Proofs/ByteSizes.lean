import ComposeMerge.Proofs.WhiteSpace
import ComposeMerge.Size

/-!
# Byte sizes

A size is read exactly: as the product of a number and a unit, or not at all.

* `Denotes` says what a size looks like: digits, white space, and one of the `units`;
* `denotes_iff` finds the two parts of a size where the reader cuts it;
* `parse_exact` says when a text is read as a size, and as which.
-/

namespace ComposeMerge

namespace Text

theorem digitsValue_eq_ofDigitChars (s : List Char) :
    digitsValue s = Nat.ofDigitChars 10 s 0 := by
  simp only [digitsValue, Nat.ofDigitChars, Nat.mul_comm]

theorem isDigits_iff {s : List Char} :
    isDigits s = true ↔ s ≠ [] ∧ ∀ c ∈ s, c.isDigit = true := by
  simp [isDigits]

/-- No digit is white space. -/
theorem isDigit_of_isBlank {c : Char} (h : isBlank c = true) : c.isDigit = false := by
  rw [Bool.eq_false_iff, ne_eq, Char.isDigit_iff_toNat]
  simp only [isBlank, Bool.or_eq_true, Bool.and_eq_true, decide_eq_true_eq, beq_iff_eq] at h
  rw [show '0'.toNat = 48 from rfl, show '9'.toNat = 57 from rfl]
  omega

theorem isUpper_iff_toNat {c : Char} : c.isUpper = true ↔ 65 ≤ c.toNat ∧ c.toNat ≤ 90 := by
  simp [Char.isUpper, UInt32.le_iff_toNat_le, ← Char.toNat_val]

theorem toLower_of_isDigit {c : Char} (h : c.isDigit = true) : c.toLower = c := by
  refine Char.toLower_eq_of_not_isUpper fun hupper => ?_
  have hdigit := (Char.isDigit_iff_toNat.1 h).2
  rw [isUpper_iff_toNat] at hupper
  rw [show '9'.toNat = 57 from rfl] at hdigit
  omega

/-- Lower case changes no white space, and makes none. -/
theorem isBlank_toLower (c : Char) : isBlank c.toLower = isBlank c := by
  by_cases hc : c.isUpper = true
  · have hupper := isUpper_iff_toNat.1 hc
    have hlower : c.toLower.toNat = c.toNat + 32 := by
      rw [Char.toLower_eq_of_isUpper hc, Char.toNat_ofNat, if_pos]
      left
      omega
    have hblank : isBlank c = false := by
      simp only [isBlank, Bool.or_eq_false_iff, Bool.and_eq_false_iff, decide_eq_false_iff_not,
        beq_eq_false_iff_ne]
      omega
    have hblank' : isBlank c.toLower = false := by
      simp only [isBlank, hlower, Bool.or_eq_false_iff, Bool.and_eq_false_iff,
        decide_eq_false_iff_not, beq_eq_false_iff_ne]
      omega
    rw [hblank, hblank']
  · rw [Char.toLower_eq_of_not_isUpper hc]

end Text

namespace Size

open Text (isBlank IsGap Tight isDigits)

/-- The units of a size, and the number of bytes in each. -/
def units : List (String × Nat) :=
  [("", 1), ("b", 1), ("k", Nat.pow 2 10), ("kb", Nat.pow 2 10), ("m", Nat.pow 2 20),
    ("mb", Nat.pow 2 20), ("g", Nat.pow 2 30), ("gb", Nat.pow 2 30)]

/-- Whether a text is a count of units that have some number of bytes. -/
inductive Denotes : List Char → Nat → Nat → Prop where
  | intro {digits gap : List Char} {unit : String} {bytes : Nat} (hdigits : isDigits digits = true)
    (hgap : IsGap gap) (hunit : (unit, bytes) ∈ units) :
    Denotes (digits ++ gap ++ unit.toList) (Nat.ofDigitChars 10 digits 0) bytes

/-- A text without white space around it, in lower case. -/
def plainText (input : String) : List Char := (Text.trim input.toList).map Char.toLower

theorem tight_plainText (input : String) : Tight (plainText input) := by
  obtain ⟨hhead, hlast⟩ := Text.tight_trim input.toList
  constructor
  · intro c hc
    rw [plainText, List.head?_map, Option.mem_map] at hc
    obtain ⟨d, hd, rfl⟩ := hc
    rw [Text.isBlank_toLower, hhead d hd]
  · intro c hc
    rw [plainText, List.getLast?_map, Option.mem_map] at hc
    obtain ⟨d, hd, rfl⟩ := hc
    rw [Text.isBlank_toLower, hlast d hd]

/-! ### Units -/

theorem unit?_eq_some_iff {s : List Char} {bytes : Nat} :
    unit? s = some bytes ↔ ∃ unit : String, s = unit.toList ∧ (unit, bytes) ∈ units := by
  constructor
  · intro h
    unfold unit? at h
    split_ifs at h with h1 hk hm hg <;> cases h
    · rcases h1 with rfl | rfl
      exacts [⟨"", rfl, by decide⟩, ⟨"b", rfl, by decide⟩]
    · rcases hk with rfl | rfl
      exacts [⟨"k", rfl, by decide⟩, ⟨"kb", rfl, by decide⟩]
    · rcases hm with rfl | rfl
      exacts [⟨"m", rfl, by decide⟩, ⟨"mb", rfl, by decide⟩]
    · rcases hg with rfl | rfl
      exacts [⟨"g", rfl, by decide⟩, ⟨"gb", rfl, by decide⟩]
  · rintro ⟨unit, rfl, h⟩
    simp only [units, List.mem_cons, Prod.mk.injEq, List.not_mem_nil, or_false] at h
    rcases h with ⟨rfl, rfl⟩ | ⟨rfl, rfl⟩ | ⟨rfl, rfl⟩ | ⟨rfl, rfl⟩ | ⟨rfl, rfl⟩ | ⟨rfl, rfl⟩ |
      ⟨rfl, rfl⟩ | ⟨rfl, rfl⟩ <;> rfl

/-- A unit holds at least one byte. -/
theorem pos_of_mem_units {unit : String} {bytes : Nat} (h : (unit, bytes) ∈ units) :
    0 < bytes := by
  simp only [units, List.mem_cons, Prod.mk.injEq, List.not_mem_nil, or_false] at h
  rcases h with ⟨-, rfl⟩ | ⟨-, rfl⟩ | ⟨-, rfl⟩ | ⟨-, rfl⟩ | ⟨-, rfl⟩ | ⟨-, rfl⟩ | ⟨-, rfl⟩ |
    ⟨-, rfl⟩
  · exact Nat.one_pos
  · exact Nat.one_pos
  all_goals exact Nat.two_pow_pos _

/-- The name of a unit is a tight text without digits. -/
theorem tight_of_mem_units {unit : String} {bytes : Nat} (h : (unit, bytes) ∈ units) :
    Tight unit.toList ∧ unit.toList.any Char.isDigit = false := by
  have hall : ∀ name ∈ units.map Prod.fst,
      Tight name.toList ∧ name.toList.any Char.isDigit = false := by
    decide +kernel
  exact hall unit (List.mem_map_of_mem h)

/-! ### The parts of a size -/

variable {text : List Char} {count bytes : Nat}

/-- A size is cut behind its digits; what follows them is white space and the unit. -/
theorem denotes_iff (htext : Tight text) : Denotes text count bytes ↔
    isDigits (text.takeWhile Char.isDigit) = true ∧
      Nat.ofDigitChars 10 (text.takeWhile Char.isDigit) 0 = count ∧
      unit? (Text.trim (text.dropWhile Char.isDigit)) = some bytes := by
  constructor
  · rintro ⟨hdigits, hgap, hunit⟩
    rename_i digits gap unit
    obtain ⟨htight, hnodigit⟩ := tight_of_mem_units hunit
    have hrest : ∀ c ∈ (gap ++ unit.toList).head?, c.isDigit = false := by
      intro c hc
      rcases List.mem_append.1 (List.mem_of_mem_head? hc) with hgapc | hunitc
      · exact Text.isDigit_of_isBlank (hgap c hgapc)
      · exact Bool.eq_false_iff.2 (List.any_eq_false.1 hnodigit c hunitc)
    have hspan := Text.span_append (Text.isDigits_iff.1 hdigits).2 hrest
    have htrim : Text.trim (gap ++ unit.toList) = unit.toList := by
      simpa using Text.trim_padded hgap Text.isGap_nil htight
    rw [List.append_assoc, hspan.1, hspan.2, htrim]
    exact ⟨hdigits, rfl, unit?_eq_some_iff.2 ⟨unit, rfl, hunit⟩⟩
  · rintro ⟨hdigits, rfl, hunit⟩
    obtain ⟨unit, htrim, hunit⟩ := unit?_eq_some_iff.1 hunit
    obtain ⟨l, r, hl, hr, -, hrest⟩ := Text.exists_padded (text.dropWhile Char.isDigit)
    have hsplit : text = text.takeWhile Char.isDigit ++ (l ++ unit.toList ++ r) := by
      rw [← htrim, ← hrest, List.takeWhile_append_dropWhile]
    -- White space behind the unit would be white space at the end of the text.
    have hr : r = [] := by
      by_contra hne
      have hlast := htext.last (r.getLast hne)
      rw [hsplit, ← List.append_assoc, List.getLast?_append_of_ne_nil _ hne,
        List.getLast?_eq_some_getLast hne] at hlast
      rw [hr _ (List.getLast_mem hne)] at hlast
      cases hlast rfl
    have hden := Denotes.intro hdigits hl hunit
    rw [hr, List.append_nil, ← List.append_assoc] at hsplit
    rwa [← hsplit] at hden

/-! ### Sizes -/

theorem isDigits_takeWhile (s : List Char) :
    isDigits (s.takeWhile Char.isDigit) = true ↔ s.takeWhile Char.isDigit ≠ [] := by
  rw [Text.isDigits_iff]
  exact ⟨And.left, fun h => ⟨h, fun c hc => List.mem_takeWhile_imp hc⟩⟩

/-- How a size is read, given its parts. -/
theorem parse_eq {input : String} {digits unit : List Char}
    (hdigits : (plainText input).takeWhile Char.isDigit = digits)
    (hunit : Text.trim ((plainText input).dropWhile Char.isDigit) = unit) :
    parse input =
      if digits.isEmpty || limit ≤ Text.digitsValue digits then .error (.number input)
      else match unit? unit with
        | none => .error (.unit (String.ofList unit) input)
        | some bytes =>
          if Text.digitsValue digits * bytes < limit then
            .ok (Int64.ofNat (Text.digitsValue digits * bytes))
          else .error (.tooLarge input) := by
  subst hdigits hunit
  rfl

/-- A text is read as the product of the two numbers that it denotes, if that fits. -/
theorem parse_eq_ok_iff {input : String} {v : Int64} :
    parse input = .ok v ↔ ∃ count bytes, Denotes (plainText input) count bytes ∧
      count * bytes < 2 ^ 63 ∧ v.toInt = (count * bytes : Nat) := by
  have hlimit : limit = 2 ^ 63 := rfl
  simp only [denotes_iff (tight_plainText input), isDigits_takeWhile,
    ← Text.digitsValue_eq_ofDigitChars]
  generalize hdigits : (plainText input).takeWhile Char.isDigit = digits
  generalize hunit : Text.trim ((plainText input).dropWhile Char.isDigit) = unit
  simp only [parse_eq hdigits hunit, hlimit, Bool.or_eq_true, List.isEmpty_iff,
    decide_eq_true_eq]
  constructor
  · intro h
    split_ifs at h with hfault
    split at h
    · cases h
    · next bytes hbytes =>
      split_ifs at h with hsize
      cases h
      exact ⟨_, bytes, ⟨fun hnil => hfault (.inl hnil), rfl, hbytes⟩, hsize,
        Int64.toInt_ofNat_of_lt hsize⟩
  · rintro ⟨_, bytes, ⟨hne, rfl, hbytes⟩, hsize, hv⟩
    -- The number alone is no greater than the product, so it fits as well.
    obtain ⟨name, -, hname⟩ := unit?_eq_some_iff.1 hbytes
    have hcount : Text.digitsValue digits < 2 ^ 63 :=
      lt_of_le_of_lt (Nat.le_mul_of_pos_right _ (pos_of_mem_units hname)) hsize
    have hvalue : v = Int64.ofNat (Text.digitsValue digits * bytes) :=
      Int64.toInt_inj.1 (hv.trans (Int64.toInt_ofNat_of_lt hsize).symm)
    rw [if_neg (by simp only [hne, false_or, not_le, hcount]), hbytes, hvalue]
    exact if_pos hsize

/-- **Sizes are read exactly.** A text is read as a number of bytes just when, without white space
around it and in lower case, it denotes a count of units whose product is less than `2 ^ 63`; the
number is that product. Every other text is refused. -/
theorem parse_exact (input : String) :
    (∀ v, parse input = .ok v ↔ ∃ count bytes, Denotes (plainText input) count bytes ∧
      count * bytes < 2 ^ 63 ∧ v.toInt = (count * bytes : Nat)) ∧
    ((∃ fault, parse input = .error fault) ↔ ¬ ∃ count bytes,
      Denotes (plainText input) count bytes ∧ count * bytes < 2 ^ 63) := by
  refine ⟨fun v => parse_eq_ok_iff, ⟨?_, fun h => ?_⟩⟩
  · rintro ⟨fault, hfault⟩ ⟨count, bytes, hden, hsize⟩
    have hok := parse_eq_ok_iff.2 ⟨count, bytes, hden, hsize, Int64.toInt_ofNat_of_lt hsize⟩
    rw [hfault] at hok
    cases hok
  · cases hparse : parse input with
    | error fault => exact ⟨fault, rfl⟩
    | ok v =>
      obtain ⟨count, bytes, hden, hsize, -⟩ := parse_eq_ok_iff.1 hparse
      exact absurd ⟨count, bytes, hden, hsize⟩ h

end Size
end ComposeMerge
