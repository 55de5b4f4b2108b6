import ComposeMerge.Text.Blank
import Mathlib

/-!
# Laws of white space

* `IsGap` says that a text is white space only, `Tight` that there is none at its ends;
* `trim_padded` and `exists_padded` say what trimming does: it takes the gaps around a tight text;
* `trim_append_cons` trims a text around a character that is no white space;
* `lines_join` cuts a text of lines into these lines.
-/

namespace ComposeMerge
namespace Text

/-! ### Gaps -/

/-- Whether a text is white space only. -/
def IsGap (s : List Char) : Prop := ∀ c ∈ s, isBlank c = true

instance (s : List Char) : Decidable (IsGap s) := List.decidableBAll _ s

@[simp] theorem isGap_nil : IsGap [] := by simp [IsGap]

@[simp] theorem isGap_cons {c : Char} {s : List Char} :
    IsGap (c :: s) ↔ isBlank c = true ∧ IsGap s := by
  simp [IsGap]

theorem IsGap.reverse {s : List Char} (h : IsGap s) : IsGap s.reverse :=
  fun c hc => h c (List.mem_reverse.1 hc)

theorem IsGap.not_mem {s : List Char} (h : IsGap s) {c : Char} (hc : isBlank c = false) : c ∉ s :=
  fun hmem => by
    rw [h c hmem] at hc
    cases hc

/-- Whether a text neither starts nor ends with white space. -/
structure Tight (s : List Char) : Prop where
  head : ∀ c ∈ s.head?, isBlank c = false
  last : ∀ c ∈ s.getLast?, isBlank c = false

theorem tight_iff {s : List Char} :
    Tight s ↔ s.head?.any isBlank = false ∧ s.getLast?.any isBlank = false := by
  simp only [Option.any_eq_false]
  exact ⟨fun h => ⟨h.head, h.last⟩, fun h => ⟨h.1, h.2⟩⟩

instance (s : List Char) : Decidable (Tight s) := decidable_of_iff _ tight_iff.symm

theorem tight_of_forall {s : List Char} (h : ∀ c ∈ s, isBlank c = false) : Tight s :=
  ⟨fun c hc => h c (List.mem_of_mem_head? hc), fun c hc => h c (List.mem_of_getLast? hc)⟩

/-- A text whose first and last characters are no white space. -/
theorem tight_of_ends {a b : Char} {s : List Char} (ha : isBlank a = false)
    (hb : isBlank b = false) : Tight (a :: s ++ [b]) where
  head := by simpa using ha
  last := by
    rw [List.getLast?_concat]
    simpa using hb

/-! ### Trimming -/

/-- A run of characters ends where another one follows. -/
theorem span_append {p : Char → Bool} {run rest : List Char} (hrun : ∀ c ∈ run, p c = true)
    (hrest : ∀ c ∈ rest.head?, p c = false) :
    (run ++ rest).takeWhile p = run ∧ (run ++ rest).dropWhile p = rest := by
  rw [List.takeWhile_append_of_pos hrun, List.dropWhile_append_of_pos hrun]
  cases rest with
  | nil => simp
  | cons c rest => simp [hrest c rfl]

theorem trimStart_gap_append {l s : List Char} (hl : IsGap l)
    (hs : ∀ c ∈ s.head?, isBlank c = false) : trimStart (l ++ s) = s :=
  (span_append hl hs).2

theorem trimEnd_append_gap {r s : List Char} (hr : IsGap r)
    (hs : ∀ c ∈ s.getLast?, isBlank c = false) : trimEnd (s ++ r) = s := by
  have hstart := trimStart_gap_append hr.reverse (s := s.reverse) (by simpa using hs)
  rw [trimStart] at hstart
  rw [trimEnd, List.reverse_append, hstart, List.reverse_reverse]

/-- Trimming takes the gaps around a tight text. -/
theorem trim_padded {l r s : List Char} (hl : IsGap l) (hr : IsGap r) (hs : Tight s) :
    trim (l ++ s ++ r) = s := by
  by_cases hne : s = []
  · subst hne
    have hgap : IsGap (l ++ r) := fun c hc => (List.mem_append.1 hc).elim (hl c) (hr c)
    have hnil : trimStart (l ++ r ++ []) = [] := trimStart_gap_append hgap (by simp)
    rw [List.append_nil] at hnil ⊢
    rw [trim, hnil]
    rfl
  · obtain ⟨c, s, rfl⟩ := List.exists_cons_of_ne_nil hne
    rw [trim, List.append_assoc, trimStart_gap_append hl (by simpa using hs.head),
      trimEnd_append_gap hr hs.last]

theorem trim_of_tight {s : List Char} (hs : Tight s) : trim s = s := by
  simpa using trim_padded isGap_nil isGap_nil hs

/-- The white space that a text starts with. -/
theorem exists_trimStart (s : List Char) :
    ∃ l, IsGap l ∧ s = l ++ trimStart s ∧ ∀ c ∈ (trimStart s).head?, isBlank c = false := by
  refine ⟨s.takeWhile isBlank, fun c hc => List.mem_takeWhile_imp hc,
    List.takeWhile_append_dropWhile.symm, fun c hc => ?_⟩
  have hhead := List.head?_dropWhile_not isBlank s
  rw [show (s.dropWhile isBlank).head? = some c from hc] at hhead
  exact hhead

/-- Every text is a tight one with gaps around it, and trimming gives it. -/
theorem exists_padded (s : List Char) :
    ∃ l r, IsGap l ∧ IsGap r ∧ Tight (trim s) ∧ s = l ++ trim s ++ r := by
  obtain ⟨l, hl, hs, hhead⟩ := exists_trimStart s
  obtain ⟨r, hr, hend, hlast⟩ := exists_trimStart (trimStart s).reverse
  have htrim : trim s = (trimStart (trimStart s).reverse).reverse := rfl
  have hstart : trimStart s = trim s ++ r.reverse := by
    rw [htrim, ← List.reverse_append, ← hend, List.reverse_reverse]
  refine ⟨l, r.reverse, hl, hr.reverse, ⟨fun c hc => ?_, fun c hc => ?_⟩, ?_⟩
  · refine hhead c ?_
    rw [hstart, List.head?_append, Option.mem_def.1 hc]
    rfl
  · rw [htrim, List.getLast?_reverse] at hc
    exact hlast c hc
  · rw [List.append_assoc, ← hstart, ← hs]

theorem tight_trim (s : List Char) : Tight (trim s) := by
  obtain ⟨l, r, -, -, h, -⟩ := exists_padded s
  exact h

/-! ### Texts with a character that is no white space -/

theorem trimStart_append_cons {c : Char} (hc : isBlank c = false) (s t : List Char) :
    trimStart (s ++ c :: t) = trimStart s ++ c :: t := by
  rw [trimStart, trimStart, List.dropWhile_append, List.dropWhile_cons_of_neg (by simp [hc])]
  split
  · next hnil => rw [List.isEmpty_iff.1 hnil, List.nil_append]
  · rfl

theorem trimEnd_append_cons {c : Char} (hc : isBlank c = false) (s t : List Char) :
    trimEnd (s ++ c :: t) = s ++ c :: trimEnd t := by
  have hstart := trimStart_append_cons hc t.reverse s.reverse
  rw [trimStart, trimStart] at hstart
  have hreverse : (s ++ c :: t).reverse = t.reverse ++ c :: s.reverse := by simp
  rw [trimEnd, hreverse, hstart, trimEnd]
  simp

/-- White space is trimmed apart from each other before and after the character. -/
theorem trim_append_cons {c : Char} (hc : isBlank c = false) (s t : List Char) :
    trim (s ++ c :: t) = trimStart s ++ c :: trimEnd t := by
  rw [trim, trimStart_append_cons hc, trimEnd_append_cons hc]

theorem trim_trimStart (s : List Char) : trim (trimStart s) = trim s := by
  have hstart : trimStart (trimStart s) = trimStart s := List.dropWhile_idempotent isBlank s
  rw [trim, hstart, trim]

theorem trim_trimEnd (s : List Char) : trim (trimEnd s) = trim s := by
  obtain ⟨r, hr, hend, -⟩ := exists_trimStart s.reverse
  obtain ⟨l, r', hl, hr', htight, hpadded⟩ := exists_padded (trimEnd s)
  have hs : s = l ++ trim (trimEnd s) ++ (r' ++ r.reverse) := by
    rw [← List.append_assoc, ← hpadded, trimEnd, ← trimStart, ← List.reverse_append, ← hend,
      List.reverse_reverse]
  have hgap : IsGap (r' ++ r.reverse) := fun c hc =>
    (List.mem_append.1 hc).elim (hr' c) (hr.reverse c)
  have htrim := trim_padded hl hgap htight
  rw [← hs] at htrim
  exact htrim.symm

theorem mem_of_mem_trim {c : Char} {s : List Char} (h : c ∈ trim s) : c ∈ s := by
  obtain ⟨l, r, -, -, -, hs⟩ := exists_padded s
  rw [hs]
  simp [h]

/-! ### Lines -/

theorem splitOn_eq_splitOn (sep : Char) (s : List Char) : splitOn sep s = s.splitOn sep := by
  induction s with
  | nil => rfl
  | cons c s ih =>
    rw [splitOn, ih, List.splitOn_cons_eq_if_modifyHead]
    simp only [beq_iff_eq]
    split
    · rfl
    · generalize List.splitOn sep s = pieces at ih ⊢
      cases pieces with
      | nil => exact absurd ih (splitOn_ne_nil sep s)
      | cons piece more => rfl

theorem lines_join {pieces : List (List Char)} (hne : pieces ≠ [])
    (h : ∀ piece ∈ pieces, '\n' ∉ piece) : lines (['\n'].intercalate pieces) = pieces := by
  rw [lines, splitOn_eq_splitOn, List.splitOn_intercalate _ h hne]

/-! ### Ends -/

theorem dropEnd?_eq_some_iff {ending s rest : List Char} :
    dropEnd? ending s = some rest ↔ s = rest ++ ending := by
  rw [dropEnd?, Option.map_eq_some_iff]
  simp only [dropStart?_eq_some_iff]
  constructor
  · rintro ⟨t, ht, rfl⟩
    rw [← List.reverse_reverse s, ht]
    simp
  · rintro rfl
    exact ⟨rest.reverse, by simp⟩

end Text
end ComposeMerge
