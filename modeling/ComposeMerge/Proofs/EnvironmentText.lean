import ComposeMerge.Environment
import ComposeMerge.Proofs.Entries
import ComposeMerge.Proofs.WhiteSpace

/-!
# Environment files as they are written

A text of lines, each of which defines a variable or is skipped.

* `Quoting.write` is a value as it stands in a line, and `unquote_write` reads it back;
* `Line.text` is a line of either kind, and `definition?_text` says what it defines;
* `ofText_lines` is the result for texts of any number of lines.
-/

namespace ComposeMerge
namespace Environment

open Text (IsGap Tight)

/-! ### Quotes -/

/-- How a value is written. -/
inductive Quoting where
  | bare
  | double
  | single
  deriving DecidableEq

/-- A value as it stands in a line. -/
def Quoting.write : Quoting → List Char → List Char
  | .bare, value => value
  | .double, value => '"' :: value ++ ['"']
  | .single, value => '\'' :: value ++ ['\'']

/-- Whether a value starts with a quote character and ends with another one of the same kind. -/
def IsEnclosed (value : List Char) : Prop :=
  ∃ quote ∈ ['"', '\''], ∃ inner, value = quote :: inner ++ [quote]

theorem unquoteWith?_eq_some_iff {quote : Char} {value inner : List Char} :
    unquoteWith? quote value = some inner ↔ value = quote :: inner ++ [quote] := by
  rw [unquoteWith?, Option.bind_eq_some_iff]
  simp only [Text.dropStart?_eq_some_iff, Text.dropEnd?_eq_some_iff]
  constructor
  · rintro ⟨rest, rfl, rfl⟩
    rfl
  · rintro rfl
    exact ⟨_, rfl, rfl⟩

theorem isEnclosed_iff {value : List Char} :
    IsEnclosed value ↔ (['"', '\''].any fun quote => (unquoteWith? quote value).isSome) = true := by
  simp only [List.any_eq_true, Option.isSome_iff_exists, unquoteWith?_eq_some_iff, IsEnclosed]

instance (value : List Char) : Decidable (IsEnclosed value) :=
  decidable_of_iff _ isEnclosed_iff.symm

theorem unquote_enclosed {quote : Char} (hquote : quote ∈ ['"', '\'']) (value : List Char) :
    unquote (quote :: value ++ [quote]) = value := by
  have hwith : unquoteWith? quote (quote :: value ++ [quote]) = some value :=
    unquoteWith?_eq_some_iff.2 rfl
  rcases List.mem_pair.1 hquote with rfl | rfl
  · rw [unquote, hwith]
    rfl
  · -- A text that starts with a single quote has no double quotes around it.
    have hnone : unquoteWith? '"' ('\'' :: value ++ ['\'']) = none := rfl
    rw [unquote, hnone, hwith]
    rfl

theorem unquote_of_not_isEnclosed {value : List Char} (h : ¬ IsEnclosed value) :
    unquote value = value := by
  have hnone : ∀ quote ∈ ['"', '\''], unquoteWith? quote value = none := fun quote hquote =>
    Option.eq_none_iff_forall_ne_some.2 fun inner hinner =>
      h ⟨quote, hquote, inner, unquoteWith?_eq_some_iff.1 hinner⟩
  rw [unquote, hnone '"' (by simp), hnone '\'' (by simp)]
  rfl

/-- Quotes are taken off again. -/
theorem unquote_write {quoting : Quoting} {value : List Char}
    (h : quoting = .bare → ¬ IsEnclosed value) : unquote (quoting.write value) = value := by
  cases quoting with
  | bare => exact unquote_of_not_isEnclosed (h rfl)
  | double => exact unquote_enclosed (by simp) value
  | single => exact unquote_enclosed (by simp) value

theorem tight_write {quoting : Quoting} {value : List Char} (h : quoting = .bare → Tight value) :
    Tight (quoting.write value) := by
  cases quoting with
  | bare => exact h rfl
  | double => exact Text.tight_of_ends (by decide) (by decide)
  | single => exact Text.tight_of_ends (by decide) (by decide)

/-! ### Lines -/

/-- A definition of a variable as it is written, with the white space of its line. -/
structure Assignment where
  name : String
  value : String
  quoting : Quoting
  /-- What stands before the name. -/
  lead : List Char
  /-- What stands between the name and the `=`. -/
  before : List Char
  /-- What stands between the `=` and the value. -/
  after : List Char
  /-- What stands after the value. -/
  trail : List Char

namespace Assignment

/-- The line of a definition. -/
def text (a : Assignment) : List Char :=
  a.lead ++ a.name.toList ++ a.before ++
    '=' :: (a.after ++ a.quoting.write a.value.toList ++ a.trail)

/-- Whether a definition can be read back from its line. -/
structure Legible (a : Assignment) : Prop where
  gaps : ∀ gap ∈ [a.lead, a.before, a.after, a.trail], IsGap gap ∧ '\n' ∉ gap
  tight : Tight a.name.toList
  free : '=' ∉ a.name.toList ∧ '\n' ∉ a.name.toList
  visible : a.name.toList.head? ≠ some '#'
  oneLine : '\n' ∉ a.value.toList
  /-- A value without quotes must not need them. -/
  bare : a.quoting = .bare → Tight a.value.toList ∧ ¬ IsEnclosed a.value.toList

end Assignment

/-- Whether a line is a comment, or a text without `=`, such as a blank one. -/
inductive IsSkipped : List Char → Prop where
  | comment {gap : List Char} (h : IsGap gap) (text : List Char) : IsSkipped (gap ++ '#' :: text)
  | plain {text : List Char} (h : '=' ∉ text) : IsSkipped text

inductive Line where
  | assignment (a : Assignment)
  | skipped (text : List Char)

namespace Line

def text : Line → List Char
  | .assignment a => a.text
  | .skipped text => text

def Legible : Line → Prop
  | .assignment a => a.Legible
  | .skipped text => IsSkipped text ∧ '\n' ∉ text

/-- The variable that a line is written for. -/
def entry? : Line → Option (String × String)
  | .assignment a => some (a.name, a.value)
  | .skipped _ => none

end Line

/-- The lines of a file, with line feeds between them. -/
def fileText (lines : List Line) : List Char := ['\n'].intercalate (lines.map Line.text)

section Reading

variable {a : Assignment}

theorem Assignment.Legible.trim_name (h : a.Legible) :
    Text.trim (a.lead ++ a.name.toList ++ a.before) = a.name.toList :=
  Text.trim_padded (h.gaps _ (by simp)).1 (h.gaps _ (by simp)).1 h.tight

theorem Assignment.Legible.trim_value (h : a.Legible) :
    Text.trim (a.after ++ a.quoting.write a.value.toList ++ a.trail) =
      a.quoting.write a.value.toList :=
  Text.trim_padded (h.gaps _ (by simp)).1 (h.gaps _ (by simp)).1
    (tight_write fun hbare => (h.bare hbare).1)

/-- The variable is read from its line. -/
theorem definition?_assignment (h : a.Legible) : definition? a.text = some (a.name, a.value) := by
  have htrim : Text.trim a.text = Text.trimStart (a.lead ++ a.name.toList ++ a.before) ++
      '=' :: Text.trimEnd (a.after ++ a.quoting.write a.value.toList ++ a.trail) :=
    Text.trim_append_cons (by decide) _ _
  have hfree : '=' ∉ Text.trimStart (a.lead ++ a.name.toList ++ a.before) := fun hmem => by
    have hmem := (List.dropWhile_sublist Text.isBlank).subset hmem
    rw [List.mem_append, List.mem_append] at hmem
    rcases hmem with (hlead | hname) | hbefore
    · exact (h.gaps _ (by simp)).1.not_mem (by decide) hlead
    · exact h.free.1 hname
    · exact (h.gaps _ (by simp)).1.not_mem (by decide) hbefore
  have hhead : (Text.trimStart (a.lead ++ a.name.toList ++ a.before)).head? ≠ some '#' := by
    intro hhead
    obtain ⟨rest, hrest⟩ := List.head?_eq_some_iff.1 hhead
    have hend := Text.trimEnd_append_cons (c := '#') (by decide) [] rest
    refine h.visible ?_
    rw [← h.trim_name, Text.trim, hrest, ← List.nil_append ('#' :: rest), hend]
    rfl
  have hcomment : isComment (Text.trim a.text) = false := by
    rw [htrim]
    cases hstart : Text.trimStart (a.lead ++ a.name.toList ++ a.before) with
    | nil => rfl
    | cons c start =>
      rw [hstart] at hhead
      simpa [isComment] using hhead
  rw [definition?]
  simp only [hcomment]
  rw [htrim, Text.splitFirst_append hfree]
  simp only [Option.map_some, Text.trim_trimStart, Text.trim_trimEnd, h.trim_name, h.trim_value,
    unquote_write fun hbare => (h.bare hbare).2, String.ofList_toList]
  rfl

theorem definition?_of_isSkipped {text : List Char} (h : IsSkipped text) :
    definition? text = none := by
  cases h with
  | @comment gap hgap text =>
    have htrim : Text.trim (gap ++ '#' :: text) = [] ++ '#' :: Text.trimEnd text := by
      have hstart := Text.trimStart_gap_append hgap (s := []) (by simp)
      rw [List.append_nil] at hstart
      rw [Text.trim_append_cons (by decide), hstart]
    rw [definition?, htrim]
    rfl
  | plain hfree =>
    have hsplit : Text.splitFirst '=' (Text.trim text) = none :=
      Text.splitFirst_eq_none_iff.2 fun hmem => hfree (Text.mem_of_mem_trim hmem)
    rw [definition?, hsplit]
    exact ite_self none

theorem Line.definition?_text {line : Line} (h : line.Legible) :
    definition? line.text = line.entry? := by
  cases line with
  | assignment a => exact definition?_assignment h
  | skipped text => exact definition?_of_isSkipped h.1

theorem Quoting.not_mem_write {quoting : Quoting} {value : List Char} (h : '\n' ∉ value) :
    '\n' ∉ quoting.write value := by
  cases quoting with
  | bare => exact h
  | double => simpa [Quoting.write] using h
  | single => simpa [Quoting.write] using h

/-- A line is one line. -/
theorem Line.not_mem_text {line : Line} (h : line.Legible) : '\n' ∉ line.text := by
  cases line with
  | skipped text => exact h.2
  | assignment a =>
    have hgaps : ∀ gap ∈ [a.lead, a.before, a.after, a.trail], '\n' ∉ gap := fun gap hgap =>
      (h.gaps gap hgap).2
    have hwrite : '\n' ∉ a.quoting.write a.value.toList := Quoting.not_mem_write h.oneLine
    have hname : '\n' ∉ a.name.toList := h.free.2
    simp only [List.forall_mem_cons] at hgaps
    simp [Line.text, Assignment.text, hgaps, hwrite, hname]

end Reading

/-! ### Files -/

/-- The definitions of a file are those of its lines. -/
theorem definitions_fileText {lines : List Line} (h : ∀ line ∈ lines, line.Legible) :
    definitions (fileText lines) = Table.ofList (lines.filterMap Line.entry?) := by
  rw [definitions]
  by_cases hne : lines = []
  · subst hne
    rfl
  · have hlines : Text.lines (fileText lines) = lines.map Line.text := by
      refine Text.lines_join (by simpa using hne) fun piece hpiece => ?_
      obtain ⟨line, hline, rfl⟩ := List.mem_map.1 hpiece
      exact Line.not_mem_text (h line hline)
    rw [hlines, List.filterMap_map]
    exact congrArg _ (List.filterMap_congr fun line hline => Line.definition?_text (h line hline))

theorem mem_names_fileText {lines : List Line} (h : ∀ line ∈ lines, line.Legible) {name : String} :
    name ∈ (definitions (fileText lines)).names ↔ ∃ a, .assignment a ∈ lines ∧ a.name = name := by
  rw [definitions_fileText h, Table.mem_names_ofList]
  simp only [List.mem_filterMap]
  constructor
  · rintro ⟨value, line, hline, hentry⟩
    cases line with
    | assignment a =>
      cases hentry
      exact ⟨a, hline, rfl⟩
    | skipped text => cases hentry
  · rintro ⟨a, ha, rfl⟩
    exact ⟨a.value, .assignment a, ha, rfl⟩

/-- A definition without a later one of its name counts. -/
theorem ofText_fileText {earlier later : List Line} {a : Assignment}
    (h : ∀ line ∈ earlier ++ .assignment a :: later, line.Legible)
    (hlast : ∀ b, .assignment b ∈ later → b.name ≠ a.name) :
    ofText (fileText (earlier ++ .assignment a :: later)) a.name = some a.value := by
  have hlater : Entries.get? a.name (later.filterMap Line.entry?).reverse = none := by
    refine Entries.get?_eq_none_iff.2 fun e he => ?_
    obtain ⟨line, hline, hentry⟩ := List.mem_filterMap.1 (List.mem_reverse.1 he)
    cases line with
    | assignment b =>
      cases hentry
      exact hlast b hline
    | skipped text => cases hentry
  have hentries : (earlier ++ .assignment a :: later).filterMap Line.entry? =
      earlier.filterMap Line.entry? ++ (a.name, a.value) :: later.filterMap Line.entry? := by
    rw [List.filterMap_append]
    rfl
  show Entries.get? a.name (definitions _).entries = some a.value
  rw [definitions_fileText h, hentries]
  show Entries.get? a.name (Entries.ofList _) = some a.value
  rw [Entries.get?_ofList_eq_reverse, List.reverse_append, List.reverse_cons, Entries.get?_append,
    Entries.get?_append, hlater, Option.none_or, Entries.get?_cons, if_pos rfl]
  rfl

/-- **Reading a file undoes writing it.**

However the values are quoted, whatever white space stands around names and values, and whatever
comments and other lines there are,

* the names of the lines are defined, and no others;
* each has the value of its last line. -/
theorem ofText_lines :
    ∀ lines : List Line, (∀ line ∈ lines, line.Legible) →
      (∀ name, name ∈ (definitions (fileText lines)).names ↔
        ∃ a, .assignment a ∈ lines ∧ a.name = name) ∧
      ∀ earlier a later, lines = earlier ++ .assignment a :: later →
        (∀ b, .assignment b ∈ later → b.name ≠ a.name) →
          ofText (fileText lines) a.name = some a.value := by
  intro lines h
  refine ⟨fun name => mem_names_fileText h, ?_⟩
  rintro earlier a later rfl hlast
  exact ofText_fileText h hlast

/-- A comment, an empty line, a line without `=`, and a variable that is defined twice. -/
def settingLines : List Line :=
  [.skipped "# local=1".toList,
    .assignment ⟨"A", "1", .bare, [], [' '], [' '], ['\r']⟩,
    .skipped [],
    .assignment ⟨"B", " it's #1 = \"x\" ", .double, ['\t'], [], [], []⟩,
    .skipped "A 2".toList,
    .assignment ⟨"A", "\"", .bare, [], [], [], [' ']⟩]

/-- The variables are read back. -/
theorem ofText_settingLines :
    (∀ line ∈ settingLines, line.Legible) ∧
      fileText settingLines =
        "# local=1\nA = 1\r\n\n\tB=\" it's #1 = \"x\" \"\nA 2\nA=\" ".toList ∧
      "2" ∉ (definitions (fileText settingLines)).names ∧
      ofText (fileText settingLines) "A" = some "\"" ∧
      ofText (fileText settingLines) "B" = some " it's #1 = \"x\" " := by
  have hlegible : ∀ line ∈ settingLines, line.Legible := by
    simp only [settingLines, List.forall_mem_cons, Line.Legible]
    refine ⟨⟨.comment Text.isGap_nil " local=1".toList, by decide⟩, ?_,
      ⟨.plain (by decide), by decide⟩, ?_, ⟨.plain (by decide), by decide⟩, ?_, by simp⟩
    · exact ⟨by decide, by decide, by decide, by decide, by decide, by decide⟩
    · exact ⟨by decide, by decide, by decide, by decide, by decide, by decide⟩
    · exact ⟨by decide, by decide, by decide, by decide, by decide, by decide⟩
  obtain ⟨hnames, hvalues⟩ := ofText_lines settingLines hlegible
  refine ⟨hlegible, by decide +kernel, ?_, ?_, ?_⟩
  · rw [hnames]
    simp [settingLines]
  · exact hvalues (settingLines.take 5) _ [] rfl (by simp)
  · refine hvalues (settingLines.take 3) _ (settingLines.drop 4) rfl ?_
    simp [settingLines]

end Environment
end ComposeMerge
