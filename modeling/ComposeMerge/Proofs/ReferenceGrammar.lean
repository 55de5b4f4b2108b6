import ComposeMerge.Proofs.Outcome
import ComposeMerge.Reference

/-!
# The grammar of references

What `tokenize` reads, told without its scanning.

* `Spells` lists the ways to write a piece; `Longest` says that a piece is as long as it can be;
* `piece?_eq_some_iff` and `piece?_eq_none_iff` say what is read at the start of a text;
* `Reads` and `Composed` are about whole texts: `segments_eq_ok_iff`, `exists_segments_iff` and
  `segments_eq_error_iff` say when a text is read, as which pieces, and where reading ends;
* `segments_render`: pieces that stay apart are read as they were written;
* `tokenize_reads_grammar` puts these together.
-/

namespace ComposeMerge
namespace Reference

/-! ### The grammar -/

/-- The characters that a name starts with: a letter or `_`. -/
def NameStart (c : Char) : Prop := ('A' ≤ c ∧ c ≤ 'Z') ∨ ('a' ≤ c ∧ c ≤ 'z') ∨ c = '_'

/-- The characters that a name goes on with: a letter, a digit or `_`. -/
def NameChar (c : Char) : Prop := NameStart c ∨ ('0' ≤ c ∧ c ≤ '9')

/-- The names of variables. -/
def IsName : List Char → Prop
  | [] => False
  | c :: s => NameStart c ∧ ∀ d ∈ s, NameChar d

/-- What a modifier gives: the word in place of the value, or the message. -/
def Modifier.word : Modifier → String
  | .default w _ => w
  | .required m _ => m

/-- What stands between a name and the word of its modifier. -/
def Modifier.sign : Modifier → List Char
  | .default _ true => [':', '-']
  | .default _ false => ['-']
  | .required _ true => [':', '?']
  | .required _ false => ['?']

/-- The ways to write a piece. -/
inductive Spells : Segment → List Char → Prop
  | literal {s : List Char} (hne : s ≠ []) (hfree : '$' ∉ s) :
    Spells (.literal (String.ofList s)) s
  | dollar : Spells .dollar ['$', '$']
  | bare {name : List Char} (hname : IsName name) :
    Spells (.variable (String.ofList name) none) ('$' :: name)
  | braced {name : List Char} (hname : IsName name) :
    Spells (.variable (String.ofList name) none) ('$' :: '{' :: (name ++ ['}']))
  | modified {name : List Char} {m : Modifier} (hname : IsName name)
      (hword : '}' ∉ m.word.toList) :
    Spells (.variable (String.ofList name) (some m))
      ('$' :: '{' :: (name ++ (m.sign ++ (m.word.toList ++ ['}']))))

/-- No piece at the start of `s` is longer than `text`. -/
def Longest (text s : List Char) : Prop :=
  ∀ segment other, Spells segment other → other <+: s → other.length ≤ text.length

/-- No piece stands at the start of `s`. -/
def NoPiece (s : List Char) : Prop := ∀ segment text, Spells segment text → ¬ text <+: s

/-! ### Names and modifiers -/

theorem isNameStart_iff {c : Char} : isNameStart c = true ↔ NameStart c := by
  simp [isNameStart, NameStart, Char.isAlpha, Char.isUpper, Char.isLower, Char.le_def, or_assoc]

theorem isNameChar_iff {c : Char} : isNameChar c = true ↔ NameChar c := by
  rw [NameChar, ← isNameStart_iff]
  simp [isNameChar, isNameStart, Char.isAlphanum, Char.isDigit, Char.le_def, or_right_comm]

instance : DecidablePred IsName
  | [] => isFalse id
  | c :: s => decidable_of_iff (isNameStart c ∧ s.all isNameChar)
      (by simp [IsName, isNameStart_iff, isNameChar_iff])

/-- A name is read as far as it goes. -/
theorem name?_append {name : List Char} (h : IsName name) (rest : List Char) :
    name? (name ++ rest) =
      some (name ++ rest.takeWhile isNameChar, rest.dropWhile isNameChar) := by
  cases name with
  | nil => exact h.elim
  | cons c s =>
    have hs : ∀ d ∈ s, isNameChar d = true := fun d hd => isNameChar_iff.2 (h.2 d hd)
    rw [List.cons_append, name?, if_pos (isNameStart_iff.2 h.1),
      List.takeWhile_append_of_pos hs, List.dropWhile_append_of_pos hs, List.cons_append]

theorem name?_append_cons {name : List Char} (h : IsName name) {c : Char}
    (hc : isNameChar c = false) (rest : List Char) :
    name? (name ++ c :: rest) = some (name, c :: rest) := by
  rw [name?_append h, List.takeWhile_cons_of_neg (by simp [hc]),
    List.dropWhile_cons_of_neg (by simp [hc]), List.append_nil]

theorem name?_eq_some {s name rest : List Char} (h : name? s = some (name, rest)) :
    IsName name ∧ s = name ++ rest := by
  cases s with
  | nil => cases h
  | cons c s =>
    rw [name?] at h
    split at h
    · next hc =>
      obtain ⟨rfl, rfl⟩ := Prod.mk.inj (Option.some.inj h)
      refine ⟨⟨isNameStart_iff.1 hc, fun d hd => isNameChar_iff.1 (List.mem_takeWhile_imp hd)⟩, ?_⟩
      rw [List.cons_append, List.takeWhile_append_dropWhile]
    · cases h

theorem word_append {w : List Char} (h : '}' ∉ w) (rest : List Char) :
    word (w ++ '}' :: rest) = (String.ofList w, '}' :: rest) := by
  have hw : ∀ c ∈ w, decide (c ≠ '}') = true := fun c hc =>
    decide_eq_true fun heq => h (heq ▸ hc)
  rw [word, List.takeWhile_append_of_pos hw, List.dropWhile_append_of_pos hw]
  simp

theorem word_eq (s : List Char) :
    s = (word s).1.toList ++ (word s).2 ∧ '}' ∉ (word s).1.toList := by
  rw [word, String.toList_ofList]
  refine ⟨List.takeWhile_append_dropWhile.symm, fun hmem => ?_⟩
  simpa using List.mem_takeWhile_imp hmem

theorem modifier_append {m : Modifier} (h : '}' ∉ m.word.toList) (rest : List Char) :
    modifier (m.sign ++ (m.word.toList ++ '}' :: rest)) = (some m, '}' :: rest) := by
  have hword : word (m.word.toList ++ '}' :: rest) = (m.word, '}' :: rest) := by
    rw [word_append h, String.ofList_toList]
  rcases m with ⟨w, _ | _⟩ | ⟨w, _ | _⟩ <;> simp only [Modifier.word] at hword <;>
    simp [Modifier.sign, Modifier.word, modifier, hword]

theorem modifier_cases (s : List Char) :
    modifier s = (none, s) ∨ ∃ m : Modifier, (modifier s).1 = some m ∧
      s = m.sign ++ (m.word.toList ++ (modifier s).2) ∧ '}' ∉ m.word.toList := by
  unfold modifier
  split
  · next r => exact .inr ⟨_, rfl, congrArg (':' :: '-' :: ·) (word_eq r).1, (word_eq r).2⟩
  · next r => exact .inr ⟨_, rfl, congrArg (':' :: '?' :: ·) (word_eq r).1, (word_eq r).2⟩
  · next r => exact .inr ⟨_, rfl, congrArg ('-' :: ·) (word_eq r).1, (word_eq r).2⟩
  · next r => exact .inr ⟨_, rfl, congrArg ('?' :: ·) (word_eq r).1, (word_eq r).2⟩
  · exact .inl rfl

theorem close?_eq_some_iff {s rest : List Char} : close? s = some rest ↔ s = '}' :: rest := by
  unfold close?
  split
  · simp
  · next h => exact ⟨fun h' => (by cases h'), fun h' => absurd h' (h rest)⟩

/-! ### The first piece -/

theorem piece?_cons_of_ne {c : Char} (hc : c ≠ '$') (s : List Char) :
    piece? (c :: s) =
      some (.literal (String.ofList (c :: s.takeWhile (· ≠ '$'))), s.dropWhile (· ≠ '$')) := by
  unfold piece?
  split
  · next hnil => cases hnil
  · next hdollar => exact absurd (List.cons.inj hdollar).1 hc
  · next hdollar => exact absurd (List.cons.inj hdollar).1 hc
  · next hdollar => exact absurd (List.cons.inj hdollar).1 hc
  · next hcons =>
    obtain ⟨rfl, rfl⟩ := List.cons.inj hcons
    rfl

theorem piece?_brace (s : List Char) : piece? ('$' :: '{' :: s) = braced? s := rfl

theorem piece?_bare {s : List Char} (hdollar : s.head? ≠ some '$') (hbrace : s.head? ≠ some '{') :
    piece? ('$' :: s) = bare? s := by
  cases s with
  | nil => rfl
  | cons c s =>
    unfold piece?
    split
    · next hnil => cases hnil
    · next hcons => simp_all
    · next hcons => simp_all
    · next hcons => rw [(List.cons.inj hcons).2]
    · next hne hcons => exact (hne (List.cons.inj hcons).1.symm).elim

theorem ne_of_nameStart {c : Char} (h : NameStart c) : c ≠ '$' ∧ c ≠ '{' := by
  constructor
  all_goals
    rintro rfl
    revert h
    simp [NameStart]

theorem head?_append_ne {name : List Char} (h : IsName name) (rest : List Char) :
    (name ++ rest).head? ≠ some '$' ∧ (name ++ rest).head? ≠ some '{' := by
  cases name with
  | nil => exact h.elim
  | cons c s => simpa using ne_of_nameStart h.1

theorem sign_eq_cons (m : Modifier) : ∃ c s, m.sign = c :: s ∧ isNameChar c = false := by
  rcases m with ⟨w, _ | _⟩ | ⟨w, _ | _⟩ <;> exact ⟨_, _, rfl, rfl⟩

theorem IsName.append {name more : List Char} (h : IsName name)
    (hmore : ∀ c ∈ more, isNameChar c = true) : IsName (name ++ more) := by
  cases name with
  | nil => exact h.elim
  | cons c s =>
    exact ⟨h.1, List.forall_mem_append.2 ⟨h.2, fun d hd => isNameChar_iff.1 (hmore d hd)⟩⟩

theorem bare?_append {name : List Char} (h : IsName name) (rest : List Char) :
    bare? (name ++ rest) =
      some (.variable (String.ofList (name ++ rest.takeWhile isNameChar)) none,
        rest.dropWhile isNameChar) := by
  rw [bare?, name?_append h]
  rfl

theorem braced?_append {name : List Char} (h : IsName name) {c : Char}
    (hc : isNameChar c = false) (s : List Char) :
    braced? (name ++ c :: s) = (close? (modifier (c :: s)).2).map fun rest =>
      (.variable (String.ofList name) (modifier (c :: s)).1, rest) := by
  rw [braced?, name?_append_cons h hc]
  rfl

theorem piece?_literal {s : List Char} (hne : s ≠ []) (hfree : '$' ∉ s) (rest : List Char) :
    piece? (s ++ rest) =
      some (.literal (String.ofList (s ++ rest.takeWhile (· ≠ '$'))),
        rest.dropWhile (· ≠ '$')) := by
  obtain ⟨c, t, rfl⟩ := List.exists_cons_of_ne_nil hne
  obtain ⟨hc, ht⟩ : '$' ≠ c ∧ '$' ∉ t := by simpa using hfree
  have hall : ∀ d ∈ t, decide (d ≠ '$') = true := fun d hd =>
    decide_eq_true fun heq => ht (heq ▸ hd)
  rw [List.cons_append, piece?_cons_of_ne hc.symm, List.takeWhile_append_of_pos hall,
    List.dropWhile_append_of_pos hall, List.cons_append]

/-- A reference in braces is read, with nothing of what follows. -/
theorem piece?_braced {name : List Char} (hname : IsName name) (rest : List Char) :
    piece? ('$' :: '{' :: (name ++ '}' :: rest)) =
      some (.variable (String.ofList name) none, rest) := by
  have hend : isNameChar '}' = false := rfl
  rw [piece?_brace, braced?_append hname hend]
  rfl

theorem piece?_modified {name : List Char} (hname : IsName name) {m : Modifier}
    (hword : '}' ∉ m.word.toList) (rest : List Char) :
    piece? ('$' :: '{' :: (name ++ (m.sign ++ (m.word.toList ++ '}' :: rest)))) =
      some (.variable (String.ofList name) (some m), rest) := by
  obtain ⟨c, t, hsign, hc⟩ := sign_eq_cons m
  have hmodifier := modifier_append hword rest
  rw [hsign, List.cons_append] at hmodifier ⊢
  rw [piece?_brace, braced?_append hname hc, hmodifier]
  rfl

/-- A piece that stands at the start of a text is read, and perhaps more of the text with it. -/
theorem piece?_of_spells {segment : Segment} {text : List Char} (h : Spells segment text)
    (s : List Char) : ∃ segment' more rest, piece? (text ++ s) = some (segment', rest) ∧
      Spells segment' (text ++ more) ∧ s = more ++ rest ∧ '$' ∉ more ∧
      (more = [] → segment' = segment) := by
  cases h with
  | @literal text hne hfree =>
    have hmore : '$' ∉ s.takeWhile (· ≠ '$') := fun hmem => by
      simpa using List.mem_takeWhile_imp hmem
    exact ⟨_, s.takeWhile (· ≠ '$'), s.dropWhile (· ≠ '$'), piece?_literal hne hfree s,
      .literal (by simp [hne]) (List.not_mem_append hfree hmore),
      List.takeWhile_append_dropWhile.symm, hmore, fun hnil => by rw [hnil, List.append_nil]⟩
  | dollar => exact ⟨.dollar, [], s, rfl, .dollar, rfl, by simp, fun _ => rfl⟩
  | @bare name hname =>
    have hmore : ∀ c ∈ s.takeWhile isNameChar, isNameChar c = true := fun c =>
      List.mem_takeWhile_imp
    obtain ⟨hdollar, hbrace⟩ := head?_append_ne hname s
    refine ⟨.variable (String.ofList (name ++ s.takeWhile isNameChar)) none,
      s.takeWhile isNameChar, s.dropWhile isNameChar, ?_, .bare (hname.append hmore),
      List.takeWhile_append_dropWhile.symm, fun hmem => ?_, fun hnil => by
        rw [hnil, List.append_nil]⟩
    · rw [List.cons_append, piece?_bare hdollar hbrace, bare?_append hname]
    · exact absurd (hmore _ hmem) (by decide)
  | @braced name hname =>
    refine ⟨_, [], s, ?_, by simpa using Spells.braced hname, rfl, by simp, fun _ => rfl⟩
    simpa using piece?_braced hname s
  | @modified name m hname hword =>
    refine ⟨_, [], s, ?_, by simpa using Spells.modified hname hword, rfl, by simp, fun _ => rfl⟩
    simpa using piece?_modified hname hword s

theorem spells_of_bare? {s rest : List Char} {segment : Segment}
    (h : bare? s = some (segment, rest)) :
    ∃ text, Spells segment ('$' :: text) ∧ s = text ++ rest := by
  obtain ⟨⟨name, r⟩, hname, h⟩ := Option.map_eq_some_iff.1 h
  obtain ⟨rfl, rfl⟩ := Prod.mk.inj h
  exact ⟨name, .bare (name?_eq_some hname).1, (name?_eq_some hname).2⟩

theorem spells_of_braced? {s rest : List Char} {segment : Segment}
    (h : braced? s = some (segment, rest)) :
    ∃ text, Spells segment ('$' :: '{' :: text) ∧ s = text ++ rest := by
  obtain ⟨⟨name, r⟩, hread, h⟩ := Option.bind_eq_some_iff.1 h
  obtain ⟨rest', hclose, h⟩ := Option.map_eq_some_iff.1 h
  obtain ⟨rfl, rfl⟩ := Prod.mk.inj h
  obtain ⟨hname, rfl⟩ := name?_eq_some hread
  rw [close?_eq_some_iff] at hclose
  rcases modifier_cases r with hnone | ⟨m, hm, hr, hword⟩
  · rw [hnone] at hclose ⊢
    have hr : r = '}' :: rest' := hclose
    exact ⟨name ++ ['}'], .braced hname, by simp [hr]⟩
  · rw [hm]
    refine ⟨_, .modified hname hword, ?_⟩
    rw [hclose] at hr
    simp [hr]

/-- What is read is a piece. -/
theorem spells_of_piece? {s rest : List Char} {segment : Segment}
    (h : piece? s = some (segment, rest)) : ∃ text, Spells segment text ∧ s = text ++ rest := by
  cases s with
  | nil => cases h
  | cons c s =>
    by_cases hc : c = '$'
    · subst hc
      by_cases hdollar : s.head? = some '$'
      · obtain ⟨r, rfl⟩ := List.head?_eq_some_iff.1 hdollar
        obtain ⟨rfl, rfl⟩ := Prod.mk.inj (Option.some.inj h)
        exact ⟨_, .dollar, rfl⟩
      by_cases hbrace : s.head? = some '{'
      · obtain ⟨r, rfl⟩ := List.head?_eq_some_iff.1 hbrace
        obtain ⟨text, htext, rfl⟩ := spells_of_braced? h
        exact ⟨_, htext, rfl⟩
      · rw [piece?_bare hdollar hbrace] at h
        obtain ⟨text, htext, rfl⟩ := spells_of_bare? h
        exact ⟨_, htext, rfl⟩
    · rw [piece?_cons_of_ne hc] at h
      obtain ⟨rfl, rfl⟩ := Prod.mk.inj (Option.some.inj h)
      refine ⟨_, .literal (List.cons_ne_nil _ _) fun hmem => ?_, ?_⟩
      · rcases List.mem_cons.1 hmem with heq | hmem
        · exact hc heq.symm
        · simpa using List.mem_takeWhile_imp hmem
      · rw [List.cons_append, List.takeWhile_append_dropWhile]

theorem longest_of_piece? {text rest : List Char} {segment : Segment}
    (h : piece? (text ++ rest) = some (segment, rest)) : Longest text (text ++ rest) := by
  rintro segment' other hother ⟨s, hs⟩
  obtain ⟨segment'', more, rest', hpiece, -, rfl, -, -⟩ := piece?_of_spells hother s
  rw [hs, h] at hpiece
  obtain ⟨-, rfl⟩ := Prod.mk.inj (Option.some.inj hpiece)
  rw [← List.append_assoc, List.append_left_inj] at hs
  rw [← hs, List.length_append]
  exact Nat.le_add_right _ _

/-- **The first piece.** What is read at the start of a text is the longest piece there. -/
theorem piece?_eq_some_iff {s rest : List Char} {segment : Segment} :
    piece? s = some (segment, rest) ↔
      ∃ text, Spells segment text ∧ s = text ++ rest ∧ Longest text s := by
  constructor
  · intro h
    obtain ⟨text, htext, rfl⟩ := spells_of_piece? h
    exact ⟨text, htext, rfl, longest_of_piece? h⟩
  · rintro ⟨text, htext, rfl, hlongest⟩
    obtain ⟨segment', more, rest', hpiece, hspells, rfl, -, hsame⟩ := piece?_of_spells htext rest
    have hlength := hlongest _ _ hspells ⟨rest', by simp⟩
    rw [List.length_append] at hlength
    have hmore : more = [] := List.eq_nil_of_length_eq_zero (by omega)
    rw [hpiece, hsame hmore, hmore, List.nil_append]

theorem piece?_eq_none_iff {s : List Char} : piece? s = none ↔ NoPiece s := by
  constructor
  · rintro h segment text htext ⟨rest, rfl⟩
    obtain ⟨_, _, _, hpiece, -⟩ := piece?_of_spells htext rest
    rw [h] at hpiece
    cases hpiece
  · intro h
    rw [Option.eq_none_iff_forall_ne_some]
    rintro ⟨segment, rest⟩ hpiece
    obtain ⟨text, htext, rfl⟩ := spells_of_piece? hpiece
    exact h segment text htext (List.prefix_append text rest)

/-! ### Whole texts -/

/-- A text is cut into pieces, each of them as long as it can be. -/
inductive Reads : List Char → List Segment → Prop
  | nil : Reads [] []
  | cons {segment : Segment} {text rest : List Char} {segments : List Segment}
      (hspells : Spells segment text) (hlongest : Longest text (text ++ rest))
      (hrest : Reads rest segments) : Reads (text ++ rest) (segment :: segments)

/-- A text is put together from pieces. -/
inductive Composed : List Char → Prop
  | nil : Composed []
  | append {segment : Segment} {text rest : List Char} (hspells : Spells segment text)
      (hrest : Composed rest) : Composed (text ++ rest)

theorem Reads.composed {s : List Char} {segments : List Segment} (h : Reads s segments) :
    Composed s := by
  induction h with
  | nil => exact .nil
  | cons hspells _ _ ih => exact .append hspells ih

/-- A character that is no dollar sign stands in a literal, which may start after it. -/
theorem Composed.tail {c : Char} {s : List Char} (h : Composed (c :: s)) (hc : c ≠ '$') :
    Composed s := by
  generalize ht : c :: s = t at h
  cases h with
  | nil => cases ht
  | @append segment text rest hspells hrest =>
    cases hspells with
    | @literal text hne hfree =>
      obtain ⟨d, u, rfl⟩ := List.exists_cons_of_ne_nil hne
      obtain ⟨rfl, rfl⟩ := List.cons.inj ht
      cases u with
      | nil => exact hrest
      | cons e u =>
        exact .append (.literal (List.cons_ne_nil e u) fun hmem => hfree (.tail _ hmem)) hrest
    | _ => exact absurd (List.cons.inj ht).1 hc

theorem Composed.of_append {more s : List Char} (h : Composed (more ++ s)) (hmore : '$' ∉ more) :
    Composed s := by
  induction more with
  | nil => exact h
  | cons c more ih =>
    obtain ⟨hc, hmore⟩ : '$' ≠ c ∧ '$' ∉ more := by simpa using hmore
    exact ih (h.tail hc.symm) hmore

/-- The pieces that are found are the longest ones. -/
theorem segments_eq_ok_iff {s : List Char} {found : List Segment} :
    segments s = .ok found ↔ Reads s found := by
  constructor
  · induction s using segments.induct generalizing found with
    | case1 s hempty =>
      intro h
      rw [List.isEmpty_iff.1 hempty] at h ⊢
      cases segments_nil.symm.trans h
      exact .nil
    | case2 s hempty hnone =>
      intro h
      cases (segments_of_no_piece (by simpa using hempty) hnone).symm.trans h
    | case3 s hempty segment rest hpiece ih =>
      intro h
      rw [segments_of_piece hpiece] at h
      obtain ⟨found, hfound, rfl⟩ := Outcome.map_eq_ok_iff.1 h
      obtain ⟨text, hspells, rfl, hlongest⟩ := piece?_eq_some_iff.1 hpiece
      exact .cons hspells hlongest (ih hfound)
  · intro h
    induction h with
    | nil => exact segments_nil
    | cons hspells hlongest _ ih =>
      rw [segments_of_piece (piece?_eq_some_iff.2 ⟨_, hspells, rfl, hlongest⟩), ih]
      rfl

/-- Every text that is put together from pieces is read. -/
theorem exists_segments_iff {s : List Char} : (∃ found, segments s = .ok found) ↔ Composed s := by
  constructor
  · rintro ⟨found, h⟩
    exact (segments_eq_ok_iff.1 h).composed
  · induction s using segments.induct with
    | case1 s hempty =>
      intro _
      rw [List.isEmpty_iff.1 hempty]
      exact ⟨[], segments_nil⟩
    | case2 s hempty hnone =>
      intro h
      cases h with
      | nil => exact absurd rfl hempty
      | append hspells _ =>
        exact absurd (List.prefix_append _ _) (piece?_eq_none_iff.1 hnone _ _ hspells)
    | case3 s hempty segment rest hpiece ih =>
      intro h
      cases h with
      | nil => exact absurd rfl hempty
      | @append segment' text rest' hspells hrest =>
        obtain ⟨_, more, _, hpiece', -, rfl, hmore, -⟩ := piece?_of_spells hspells rest'
        cases hpiece.symm.trans hpiece'
        obtain ⟨found, hfound⟩ := ih (hrest.of_append hmore)
        exact ⟨segment :: found, by rw [segments_of_piece hpiece, hfound]; rfl⟩

theorem NoPiece.head? {s : List Char} (h : NoPiece s) (hne : s ≠ []) : s.head? = some '$' := by
  obtain ⟨c, t, rfl⟩ := List.exists_cons_of_ne_nil hne
  by_contra hc
  exact h (.literal (String.ofList [c])) [c] (.literal (by simp) (by simpa [eq_comm] using hc))
    (List.prefix_append [c] t)

/-- What has no dollar sign ends before one. -/
theorem exists_of_append_eq_append {before rest more s : List Char}
    (h : before ++ rest = more ++ s) (hrest : rest.head? = some '$') (hmore : '$' ∉ more) :
    ∃ before', before = more ++ before' ∧ s = before' ++ rest := by
  rcases List.append_eq_append_iff.1 h with ⟨u, hu, hrest'⟩ | ⟨before', hbefore, hs⟩
  · cases u with
    | nil => exact ⟨[], by simpa using hu.symm, by simpa using hrest'.symm⟩
    | cons c u =>
      rw [hrest', List.cons_append, List.head?_cons, Option.some.injEq] at hrest
      exact absurd (by simp [hu, hrest]) hmore
  · exact ⟨before', hbefore, hs⟩

/-- Where a text is not read, the pieces before the rest have been read, and none follows. -/
theorem segments_eq_error_iff {s rest : List Char} :
    segments s = .error rest ↔
      ∃ before, s = before ++ rest ∧ Composed before ∧ rest ≠ [] ∧ NoPiece rest := by
  constructor
  · induction s using segments.induct with
    | case1 s hempty =>
      intro h
      rw [List.isEmpty_iff.1 hempty] at h
      cases segments_nil.symm.trans h
    | case2 s hempty hnone =>
      intro h
      have hne : s ≠ [] := by simpa using hempty
      cases (segments_of_no_piece hne hnone).symm.trans h
      exact ⟨[], rfl, .nil, hne, piece?_eq_none_iff.1 hnone⟩
    | case3 s hempty segment s' hpiece ih =>
      intro h
      rw [segments_of_piece hpiece] at h
      cases hs' : segments s' with
      | ok found =>
        rw [hs'] at h
        cases h
      | error rest' =>
        rw [hs'] at h
        cases h
        obtain ⟨before, rfl, hbefore, hrest⟩ := ih hs'
        obtain ⟨text, hspells, rfl⟩ := spells_of_piece? hpiece
        exact ⟨text ++ before, by simp, .append hspells hbefore, hrest⟩
  · rintro ⟨before, hs, hbefore, hne, hrest⟩
    induction s using segments.induct generalizing before with
    | case1 s hempty =>
      rw [List.isEmpty_iff.1 hempty] at hs
      exact absurd (List.append_eq_nil_iff.1 hs.symm).2 hne
    | case2 s hempty hnone =>
      subst hs
      cases hbefore with
      | nil => exact segments_of_no_piece hne hnone
      | append hspells _ =>
        exact absurd (by simp) (piece?_eq_none_iff.1 hnone _ _ hspells)
    | case3 s hempty segment s' hpiece ih =>
      subst hs
      cases hbefore with
      | nil => cases (piece?_eq_none_iff.2 hrest).symm.trans hpiece
      | @append segment' text before hspells hbefore =>
        rw [List.append_assoc] at hpiece ⊢
        obtain ⟨_, more, _, hpiece', -, hsplit, hmore, -⟩ :=
          piece?_of_spells hspells (before ++ rest)
        cases hpiece.symm.trans hpiece'
        obtain ⟨before', rfl, rfl⟩ :=
          exists_of_append_eq_append hsplit (hrest.head? hne) hmore
        rw [segments_of_piece hpiece, ih before' rfl (hbefore.of_append hmore)]
        rfl

/-! ### Writing pieces -/

/-- Literals are runs without a dollar sign, names are names, and words have no closing brace. -/
def Segment.WellFormed : Segment → Prop
  | .literal text => text ≠ "" ∧ '$' ∉ text.toList
  | .dollar => True
  | .variable name m => IsName name.toList ∧ ∀ m' ∈ m, '}' ∉ m'.word.toList

/-- Whether a piece is a literal run. -/
def Segment.IsLiteral : Segment → Prop
  | .literal _ => True
  | _ => False

instance : DecidablePred Segment.WellFormed
  | .literal text => inferInstanceAs (Decidable (text ≠ "" ∧ '$' ∉ text.toList))
  | .dollar => isTrue trivial
  | .variable name m =>
    inferInstanceAs (Decidable (IsName name.toList ∧ ∀ m' ∈ m, '}' ∉ m'.word.toList))

instance : DecidablePred Segment.IsLiteral
  | .literal _ => isTrue trivial
  | .dollar => isFalse id
  | .variable _ _ => isFalse id

/-- Pieces that stay apart when they are written one after the other. -/
structure Separated (segments : List Segment) : Prop where
  wellFormed : ∀ segment ∈ segments, segment.WellFormed
  apart : segments.IsChain fun a b => ¬ (a.IsLiteral ∧ b.IsLiteral)

/-- Pieces as they are written, with braces around all names. -/
def render (segments : List Segment) : String := String.ofList (segments.flatMap Segment.render)

theorem Modifier.render_eq (m : Modifier) : m.render = m.sign ++ m.word.toList := by
  rcases m with ⟨w, _ | _⟩ | ⟨w, _ | _⟩ <;> rfl

theorem Segment.render_variable (name : String) (m : Option Modifier) :
    (Segment.variable name m).render =
      '$' :: '{' :: (name.toList ++ (m.elim [] fun m => m.sign ++ m.word.toList) ++ ['}']) := by
  cases m with
  | none => simp [Segment.render]
  | some m => simp [Segment.render, Modifier.render_eq]

/-- A piece that is written is read, unless it is a literal that goes on. -/
theorem piece?_render {segment : Segment} (h : segment.WellFormed) {rest : List Char}
    (hrest : segment.IsLiteral → ∀ c ∈ rest.head?, c = '$') :
    piece? (segment.render ++ rest) = some (segment, rest) := by
  rcases segment with text | _ | ⟨name, _ | m⟩
  · have hstop : ∀ c ∈ rest.head?, decide (c ≠ '$') = false := fun c hc => by
      simpa using hrest trivial c hc
    rw [Segment.render, piece?_literal (by simpa using h.1) h.2]
    cases rest with
    | nil => simp
    | cons c rest =>
      have hc := hstop c rfl
      rw [List.takeWhile_cons_of_neg (by simp [hc]), List.dropWhile_cons_of_neg (by simp [hc])]
      simp
  · rfl
  · simpa [Segment.render_variable] using piece?_braced h.1 rest
  · simpa [Segment.render_variable] using piece?_modified h.1 (h.2 m rfl) rest

theorem head?_render {segment : Segment} (h : ¬ segment.IsLiteral) :
    segment.render.head? = some '$' := by
  rcases segment with text | _ | ⟨name, m⟩
  · exact (h trivial).elim
  · rfl
  · rfl

/-- Separated pieces that are written are read again. -/
theorem segments_render {found : List Segment} (h : Separated found) :
    segments (found.flatMap Segment.render) = .ok found := by
  obtain ⟨hwell, hapart⟩ := h
  induction found with
  | nil => exact segments_nil
  | cons segment found ih =>
    obtain ⟨hsegment, hfound⟩ := List.forall_mem_cons.1 hwell
    obtain ⟨hnext, hapart⟩ := List.isChain_cons.1 hapart
    have hrest : segment.IsLiteral → ∀ c ∈ (found.flatMap Segment.render).head?, c = '$' := by
      intro hliteral c hc
      cases found with
      | nil => cases hc
      | cons next found =>
        have hhead := head?_render fun hnext' => hnext next rfl ⟨hliteral, hnext'⟩
        rw [List.flatMap_cons, List.head?_append, hhead] at hc
        exact (Option.some.inj hc).symm
    rw [List.flatMap_cons, segments_of_piece (piece?_render hsegment hrest), ih hfound hapart]
    rfl

/-! ### Tokenizing -/

theorem tokenize_eq_ok_iff {input : String} {found : List Segment} :
    tokenize input = .ok found ↔ segments input.toList = .ok found :=
  Outcome.mapError_eq_ok_iff

theorem tokenize_eq_error_iff {input rest : String} :
    tokenize input = .error rest ↔ segments input.toList = .error rest.toList := by
  rw [tokenize]
  cases segments input.toList with
  | ok found => simp [Except.mapError]
  | error s => simp [Except.mapError, String.ext_iff]

theorem tokenize_render {found : List Segment} (h : Separated found) :
    tokenize (render found) = .ok found := by
  rw [tokenize_eq_ok_iff, render, String.toList_ofList, segments_render h]

/-- **References are read by their grammar.**

* A text is read just when it is put together from pieces, and what is found are the longest pieces
  one after the other: every literal and every name without braces goes on as far as it can.
* Where a text is not read, the rest that is reported begins with a dollar sign that no piece
  begins with, and the text before it is read.
* Pieces that stay apart, written with braces around their names, are read as they were written. -/
theorem tokenize_reads_grammar :
    (∀ input, (∃ found, tokenize input = .ok found) ↔ Composed input.toList) ∧
    (∀ input found, tokenize input = .ok found ↔ Reads input.toList found) ∧
    (∀ input rest, tokenize input = .error rest ↔
      ∃ before, input = before ++ rest ∧ (∃ found, tokenize before = .ok found) ∧
        rest.toList.head? = some '$' ∧ NoPiece rest.toList) ∧
    ∀ found, Separated found → tokenize (render found) = .ok found := by
  have hcomposed : ∀ input, (∃ found, tokenize input = .ok found) ↔ Composed input.toList := by
    simp only [tokenize_eq_ok_iff, exists_segments_iff, implies_true]
  refine ⟨hcomposed, fun _ _ => tokenize_eq_ok_iff.trans segments_eq_ok_iff,
    fun input rest => ?_, fun _ => tokenize_render⟩
  simp only [tokenize_eq_error_iff, segments_eq_error_iff, hcomposed]
  constructor
  · rintro ⟨before, hinput, hbefore, hne, hrest⟩
    refine ⟨String.ofList before, ?_, by simpa using hbefore, hrest.head? hne, hrest⟩
    rw [← String.toList_inj, hinput, String.toList_append, String.toList_ofList]
  · rintro ⟨before, rfl, hbefore, hhead, hrest⟩
    refine ⟨before.toList, String.toList_append .., hbefore, fun hnil => ?_, hrest⟩
    rw [hnil] at hhead
    cases hhead

/-- A few pieces, one of them with signs of references in its word. -/
def samplePieces : List Segment :=
  [.literal "a-", .dollar, .variable "B" (some (.default "-$C" true)), .literal "d"]

theorem separated_samplePieces : Separated samplePieces :=
  ⟨by decide +kernel, by decide +kernel⟩

/-- The word is read up to the closing brace, whatever it holds. -/
theorem tokenize_samplePieces :
    Separated samplePieces ∧ tokenize "a-$$$\x7bB:--$C\x7dd" = .ok samplePieces := by
  have hrender : render samplePieces = "a-$$$\x7bB:--$C\x7dd" := by decide +kernel
  have hread := tokenize_reads_grammar.2.2.2 samplePieces separated_samplePieces
  rw [hrender] at hread
  exact ⟨separated_samplePieces, hread⟩

end Reference
end ComposeMerge
