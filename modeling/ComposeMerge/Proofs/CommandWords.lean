import ComposeMerge.Proofs.Outcome
import ComposeMerge.Proofs.WhiteSpace
import ComposeMerge.Words

/-!
# Words of a command

Cutting a command into words undoes quoting, and goes on after white space as if nothing had been
there before.

* `Quoting.write` quotes a word in one of three ways, and `commandText` lays quoted words out with
  white space around them;
* `cut_write` reads one quoted word, by one lemma for each kind of quotes;
* `cut_append_blank` is the step from a text to the text that continues it;
* `split_reads_quoting` puts both together.
-/

namespace ComposeMerge

/-- The same fault in another text. -/
def WordsFault.about (input : String) : WordsFault → WordsFault
  | .openSingleQuote _ => .openSingleQuote input
  | .openDoubleQuote _ => .openDoubleQuote input
  | .trailingBackslash _ => .trailingBackslash input

namespace Words

open Text (isBlank IsGap)

/-! ### Quoting -/

/-- The ways to quote a word. -/
inductive Quoting where
  | single
  | double
  /-- A backslash before every character. -/
  | backslashes
  deriving DecidableEq

/-- A character between single quotes. The quote itself cannot stand there: it is escaped between
two pairs of quotes. -/
def singleQuoted (c : Char) : List Char := if c = '\'' then ['\'', '\\', '\'', '\''] else [c]

/-- The characters that have a meaning between double quotes. -/
def activeInDouble : List Char := ['"', '\\', '$', '\x60']

/-- A character between double quotes. -/
def doubleQuoted (c : Char) : List Char := if c ∈ activeInDouble then ['\\', c] else [c]

/-- A word in quotes. -/
def Quoting.write : Quoting → List Char → List Char
  | .single, w => '\'' :: (w.flatMap singleQuoted ++ ['\''])
  | .double, w => '"' :: (w.flatMap doubleQuoted ++ ['"'])
  | .backslashes, w => w.flatMap fun c => ['\\', c]

/-- A quoted word, and the white space after it. -/
structure QuotedWord where
  quoting : Quoting
  word : String
  gap : List Char

/-- A quoted word as it stands in a command. -/
def QuotedWord.write (q : QuotedWord) : List Char := q.quoting.write q.word.toList ++ q.gap

/-- A command made of quoted words, with white space before the first of them. -/
def commandText (lead : List Char) (words : List QuotedWord) : String :=
  String.ofList (lead ++ words.flatMap QuotedWord.write)

/-- Whether the words of a command can be told apart: there is white space between them, and only
quotes hold an empty word. -/
structure Legible (lead : List Char) (words : List QuotedWord) : Prop where
  lead : IsGap lead
  gaps : ∀ q ∈ words, IsGap q.gap
  apart : ∀ q ∈ words.dropLast, q.gap ≠ []
  visible : ∀ q ∈ words, q.quoting = .backslashes → q.word ≠ ""

/-! ### Steps -/

theorem isEscapable_iff {c : Char} : isEscapable c = true ↔ c ∈ activeInDouble := by
  have hgrave : c.toNat = 0x60 ↔ c = '\x60' :=
    ⟨fun h => Char.toNat_inj.1 h, fun h => h ▸ rfl⟩
  simp [isEscapable, activeInDouble, hgrave, or_assoc]

/-- White space ends the pending word. -/
theorem cut_blank {c : Char} (hc : isBlank c = true) (word : Pending) (s : List Char) :
    cut .plain word (c :: s) = (cut .plain none s).map (word.close ++ ·) := by
  simp [cut, hc]

/-- Any other character, and white space inside quotes, belongs to a word. -/
theorem cut_cons {mode : Mode} {c : Char} (h : mode = .plain → isBlank c = false)
    (word : Pending) (s : List Char) :
    cut mode word (c :: s) = cut (step mode word c).1 (step mode word c).2 s := by
  rw [cut, if_neg]
  intro hblank
  rw [Bool.and_eq_true, decide_eq_true_iff] at hblank
  rw [h hblank.1] at hblank
  exact Bool.false_ne_true hblank.2

/-- White space between words is passed over. -/
theorem cut_gap {gap : List Char} (h : IsGap gap) (s : List Char) :
    cut .plain none (gap ++ s) = cut .plain none s := by
  induction gap with
  | nil => rfl
  | cons c gap ih =>
    obtain ⟨hc, hgap⟩ := Text.isGap_cons.1 h
    rw [List.cons_append, cut_blank hc, ih hgap]
    cases cut .plain none s <;> rfl

/-! ### Quoted words -/

section Quotes

variable (w acc s : List Char)

/-- Between single quotes every character is read as it was. -/
theorem cut_single : cut .single (some acc) (w.flatMap singleQuoted ++ '\'' :: s) =
    cut .plain (some (w.reverse ++ acc)) s := by
  induction w generalizing acc with
  | nil => simp [cut_cons, step]
  | cons c w ih =>
    have hpush : cut .single (some acc) (singleQuoted c ++
        (w.flatMap singleQuoted ++ '\'' :: s)) =
          cut .single (some (c :: acc)) (w.flatMap singleQuoted ++ '\'' :: s) := by
      by_cases hc : c = '\''
      · -- The quotes are left and entered again around the escaped quote.
        have hquote : isBlank '\'' = false := by decide
        have hslash : isBlank '\\' = false := by decide
        subst hc
        simp [singleQuoted, cut_cons, step, hquote, hslash, Pending.started, Pending.push]
      · simp [singleQuoted, hc, cut_cons, step, Pending.push]
    rw [List.flatMap_cons, List.append_assoc, hpush, ih]
    simp

/-- Between double quotes every character is read as it was. -/
theorem cut_double : cut .double (some acc) (w.flatMap doubleQuoted ++ '"' :: s) =
    cut .plain (some (w.reverse ++ acc)) s := by
  induction w generalizing acc with
  | nil => simp [cut_cons, step]
  | cons c w ih =>
    have hpush : cut .double (some acc) (doubleQuoted c ++
        (w.flatMap doubleQuoted ++ '"' :: s)) =
          cut .double (some (c :: acc)) (w.flatMap doubleQuoted ++ '"' :: s) := by
      by_cases hc : c ∈ activeInDouble
      · have hescapable := isEscapable_iff.2 hc
        simp [doubleQuoted, hc, cut_cons, step, hescapable, Pending.push]
      · -- What has no meaning there is neither the quote nor the backslash.
        obtain ⟨hquote, hslash⟩ : c ≠ '"' ∧ c ≠ '\\' := by
          constructor <;> rintro rfl <;> exact hc (by decide)
        simp [doubleQuoted, hc, cut_cons, step, hquote, hslash, Pending.push]
    rw [List.flatMap_cons, List.append_assoc, hpush, ih]
    simp

/-- After a backslash every character is read as it was. -/
theorem cut_backslashes (word : Pending) (hw : w ≠ []) :
    cut .plain word (w.flatMap (fun c => ['\\', c]) ++ s) =
      cut .plain (some (w.reverse ++ word.getD [])) s := by
  have hslash : isBlank '\\' = false := by decide
  induction w generalizing word with
  | nil => exact absurd rfl hw
  | cons c w ih =>
    have hpush : cut .plain word ('\\' :: c :: (w.flatMap (fun c => ['\\', c]) ++ s)) =
        cut .plain (word.push c) (w.flatMap (fun c => ['\\', c]) ++ s) := by
      simp [cut_cons, step, hslash, Pending.started, Pending.push]
    cases w with
    | nil => simpa [Pending.push] using hpush
    | cons d w =>
      have hrest := ih (word.push c) (by simp)
      rw [List.flatMap_cons, List.append_assoc]
      refine hpush.trans (hrest.trans ?_)
      simp [Pending.push]

end Quotes

/-- A quoted word is read as the word that was quoted. -/
theorem cut_write (q : Quoting) {w : List Char} (hw : q = .backslashes → w ≠ []) :
    cut .plain none (q.write w) = .ok [String.ofList w] := by
  have hclose : cut .plain (some (w.reverse ++ [])) [] = .ok [String.ofList w] := by
    simp [cut, Mode.unfinished, Pending.close]
  cases q with
  | single =>
    have hquote : isBlank '\'' = false := by decide
    rw [Quoting.write, cut_cons fun _ => hquote]
    exact (cut_single w [] []).trans hclose
  | double =>
    have hquote : isBlank '"' = false := by decide
    rw [Quoting.write, cut_cons fun _ => hquote]
    exact (cut_double w [] []).trans hclose
  | backslashes =>
    have hread := cut_backslashes w [] none (hw rfl)
    rw [List.append_nil] at hread
    exact hread.trans hclose

/-! ### Texts that continue -/

/-- After white space a text is cut as if nothing had been there before. -/
theorem cut_append_blank {mode : Mode} {word : Pending} {a b : List Char} {xs : List String}
    {c : Char} (ha : cut mode word a = .ok xs) (hc : isBlank c = true) :
    cut mode word (a ++ c :: b) = (cut .plain none b).map (xs ++ ·) := by
  induction a generalizing mode word xs with
  | nil =>
    -- Only outside quotes is a text complete.
    cases mode with
    | plain =>
      cases ha
      rw [List.nil_append, cut_blank hc]
    | _ => cases ha
  | cons d a ih =>
    by_cases hd : mode = .plain ∧ isBlank d = true
    · obtain ⟨rfl, hd⟩ := hd
      rw [cut_blank hd] at ha
      obtain ⟨ys, hys, rfl⟩ := Outcome.map_eq_ok_iff.1 ha
      rw [List.cons_append, cut_blank hd, ih hys, Outcome.map_map]
      simp only [List.append_assoc]
    · have hstep : mode = .plain → isBlank d = false := fun hmode =>
        Bool.eq_false_iff.2 fun hblank => hd ⟨hmode, hblank⟩
      rw [cut_cons hstep] at ha
      rw [List.cons_append, cut_cons hstep, ih ha]

/-- A text that cannot be cut ends in some mode. -/
theorem exists_unfinished {mode : Mode} {word : Pending} {s : List Char}
    {fault : String → WordsFault} (h : cut mode word s = .error fault) :
    ∃ last : Mode, last.unfinished = some fault := by
  induction s generalizing mode word with
  | nil =>
    refine ⟨mode, ?_⟩
    cases mode <;> cases h <;> rfl
  | cons c s ih =>
    rw [cut] at h
    split at h
    · exact ih (Outcome.map_eq_error_iff.1 h)
    · exact ih h

theorem about_of_unfinished {mode : Mode} {fault : String → WordsFault}
    (h : mode.unfinished = some fault) (a b : String) : (fault a).about b = fault b := by
  cases mode <;> cases h <;> rfl

theorem split_eq_ok_iff {s : String} {xs : List String} :
    split s = .ok xs ↔ cut .plain none s.toList = .ok xs := by
  rw [split, Outcome.mapError_eq_ok_iff]

/-- The words of a quoted command are those that were quoted. -/
theorem split_commandText {lead : List Char} {words : List QuotedWord}
    (h : Legible lead words) :
    split (commandText lead words) = .ok (words.map QuotedWord.word) := by
  rw [split_eq_ok_iff, commandText, String.toList_ofList, cut_gap h.lead]
  obtain ⟨-, hgaps, hapart, hvisible⟩ := h
  induction words with
  | nil => rfl
  | cons q words ih =>
    obtain ⟨hgap, hgaps⟩ := List.forall_mem_cons.1 hgaps
    obtain ⟨hq, hvisible⟩ := List.forall_mem_cons.1 hvisible
    have hword : cut .plain none (q.quoting.write q.word.toList) = .ok [q.word] := by
      rw [cut_write q.quoting fun hquoting => mt String.toList_eq_nil_iff.1 (hq hquoting),
        String.ofList_toList]
    rw [List.flatMap_cons, QuotedWord.write, List.append_assoc]
    cases hrest : q.gap with
    | nil =>
      -- Without white space after it, a word is the last one.
      have hlast : words = [] := by
        by_contra hne
        refine hapart q ?_ hrest
        rw [List.dropLast_cons_of_ne_nil hne]
        exact List.mem_cons_self
      subst hlast
      simpa using hword
    | cons c gap =>
      rw [hrest] at hgap
      obtain ⟨hc, hgap⟩ := Text.isGap_cons.1 hgap
      have hapart : ∀ p ∈ words.dropLast, p.gap ≠ [] := by
        intro p hp
        refine hapart p ?_
        rw [List.dropLast_cons_of_ne_nil (List.ne_nil_of_mem (List.mem_of_mem_dropLast hp))]
        exact List.mem_cons_of_mem q hp
      have hwords := ih hgaps hapart hvisible
      rw [List.cons_append, cut_append_blank hword hc, cut_gap hgap, hwords]
      rfl

/-- What follows white space is cut on its own: its words come after the others, and its fault is
the fault of the whole text. -/
theorem split_append_blank {a b : String} {c : Char} {xs : List String} (hc : isBlank c = true)
    (ha : split a = .ok xs) :
    split (a ++ String.singleton c ++ b) =
      ((split b).map (xs ++ ·)).mapError (·.about (a ++ String.singleton c ++ b)) := by
  have htext : (a ++ String.singleton c ++ b).toList = a.toList ++ c :: b.toList := by simp
  rw [split, htext, cut_append_blank (split_eq_ok_iff.1 ha) hc, split]
  cases hb : cut .plain none b.toList with
  | ok ys => rfl
  | error fault =>
    obtain ⟨mode, hmode⟩ := exists_unfinished hb
    exact congrArg Except.error (about_of_unfinished hmode _ _).symm

/-- **Cutting a command into words undoes quoting, and is compositional.**

* However words are quoted, and whatever white space stands around and between them, they are
  read back.
* After a complete text and white space, the words of any other text are added to those of the
  first one; where the other text is faulty, the whole has the same fault. -/
theorem split_reads_quoting :
    (∀ lead words, Legible lead words →
      split (commandText lead words) = .ok (words.map QuotedWord.word)) ∧
    ∀ a b c xs, isBlank c = true → split a = .ok xs →
      (∀ ys, split b = .ok ys → split (a ++ String.singleton c ++ b) = .ok (xs ++ ys)) ∧
      ∀ fault, split b = .error fault → split (a ++ String.singleton c ++ b) =
        .error (fault.about (a ++ String.singleton c ++ b)) := by
  refine ⟨fun lead words h => split_commandText h, fun a b c xs hc ha => ⟨fun ys hb => ?_,
    fun fault hb => ?_⟩⟩
  · rw [split_append_blank hc ha, hb]
    rfl
  · rw [split_append_blank hc ha, hb]
    rfl

/-- Four words: each of them needs its quotes. -/
def quotedWords : List QuotedWord :=
  [⟨.single, "it's", ['\t']⟩, ⟨.double, "$x \"\\", [' ', '\n']⟩, ⟨.single, "", [' ']⟩,
    ⟨.backslashes, "a b", []⟩]

/-- The words are read back, and a fault in what follows them is a fault of the whole. -/
theorem split_quotedWords :
    Legible [' '] quotedWords ∧
      commandText [' '] quotedWords = " 'it'\\''s'\t\"\\$x \\\"\\\\\" \n'' \\a\\ \\b" ∧
      split (commandText [' '] quotedWords) = .ok ["it's", "$x \"\\", "", "a b"] ∧
      split "\"c" = .error (.openDoubleQuote "\"c") ∧
      split (commandText [' '] quotedWords ++ String.singleton ' ' ++ "\"c") =
        .error (.openDoubleQuote
          (commandText [' '] quotedWords ++ String.singleton ' ' ++ "\"c")) := by
  have hlegible : Legible [' '] quotedWords :=
    ⟨by decide, by decide, by decide, by decide⟩
  have hwords := split_reads_quoting.1 _ _ hlegible
  have hfault : split "\"c" = .error (.openDoubleQuote "\"c") := by decide +kernel
  exact ⟨hlegible, by decide +kernel, hwords, hfault,
    (split_reads_quoting.2 _ _ ' ' _ (by decide) hwords).2 _ hfault⟩

end Words
end ComposeMerge
