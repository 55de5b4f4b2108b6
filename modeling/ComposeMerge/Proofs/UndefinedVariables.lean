import ComposeMerge.Proofs.InterpolatedLeaves
import ComposeMerge.Proofs.InterpolatedText

/-!
# Undefined variables

A reference without a modifier to a variable that is not set stands for the empty text, or is an
error. The strict policy only refuses: what it accepts comes out as under the other one.

* `Reference.unmodified` is the list of variables that a text refers to without a modifier;
* `Reference.substitute_fail_eq_ok_iff`: for one text, strictness asks that these are set;
* `OnlyRefuses` says this of anything that is made of texts, and `onlyRefuses_of` reduces it to its
  texts;
* `strict_policy_only_refuses` is about texts, values, sections and services.
-/

namespace ComposeMerge

/-! ### Texts -/

namespace Reference

/-- The variable that a piece refers to without a modifier. -/
def Segment.unmodified? : Segment → Option String
  | .variable name none => some name
  | _ => none

/-- The variables that a text refers to without a modifier. -/
def unmodified (input : String) : List String :=
  match tokenize input with
  | .error _ => []
  | .ok segments => segments.filterMap Segment.unmodified?

/-- A modifier says itself what an unset variable means. -/
example : unmodified "$A $\x7bB\x7d $\x7bC:-$D\x7d $\x7bE?\x7d" = ["A", "B"] := by
  decide +kernel

variable {env : Environment}

theorem meaning_fail_eq_ok_iff {segment : Segment} {text : String} :
    segment.meaning env .fail = .ok text ↔
      segment.meaning env .blank = .ok text ∧
        ∀ name ∈ segment.unmodified?, (env name).isSome = true := by
  rcases segment with _ | _ | ⟨name, _ | m⟩
  · simp [Segment.meaning, Segment.unmodified?]
  · simp [Segment.meaning, Segment.unmodified?]
  · cases h : env name <;> simp [Segment.meaning, Segment.unmodified?, h]
  · -- A modifier does not ask for the policy.
    cases m <;> simp [Segment.meaning, Segment.unmodified?]

theorem meanings_fail_eq_ok_iff {segments : List Segment} {text : String} :
    meanings env .fail segments = .ok text ↔
      meanings env .blank segments = .ok text ∧
        ∀ name ∈ segments.filterMap Segment.unmodified?, (env name).isSome = true := by
  induction segments generalizing text with
  | nil => simp [meanings]
  | cons segment segments ih =>
    have hmem : (∀ name ∈ (segment :: segments).filterMap Segment.unmodified?,
        (env name).isSome = true) ↔ (∀ name ∈ segment.unmodified?, (env name).isSome = true) ∧
          ∀ name ∈ segments.filterMap Segment.unmodified?, (env name).isSome = true := by
      cases h : segment.unmodified? <;> simp [h]
    simp only [meanings, Outcome.bind_eq_ok_iff, meaning_fail_eq_ok_iff, ih, hmem]
    constructor
    · rintro ⟨t, ⟨ht, hhead⟩, more, ⟨hmore, htail⟩, h⟩
      exact ⟨⟨t, ht, more, hmore, h⟩, hhead, htail⟩
    · rintro ⟨⟨t, ht, more, hmore, h⟩, hhead, htail⟩
      exact ⟨t, ⟨ht, hhead⟩, more, ⟨hmore, htail⟩, h⟩

/-- Strictness asks that the variables without a modifier are set, and changes nothing else. -/
theorem substitute_fail_eq_ok_iff {input text : String} :
    substitute env .fail input = .ok text ↔
      substitute env .blank input = .ok text ∧
        ∀ name ∈ unmodified input, (env name).isSome = true := by
  unfold unmodified
  cases h : tokenize input with
  | error rest =>
    -- A malformed reference is an error under both policies.
    have hsame : substitute env .fail input = substitute env .blank input := by
      simp only [substitute, h]
    simp [hsame]
  | ok segments =>
    rw [substitute_of_tokenize h, substitute_of_tokenize h]
    exact meanings_fail_eq_ok_iff

end Reference

/-! ### What is made of texts -/

/-- Whether the strict policy only turns successes into errors, where references in some texts are
replaced: it does so just when a variable without a modifier is not set. -/
structure OnlyRefuses (env : Environment) (texts : List String) {α : Type}
    (run : UndefinedPolicy → Except Error α) : Prop where
  same_result : ∀ a, run .fail = .ok a → run .blank = .ok a
  fails : ∀ e, run .blank = .error e → ∃ e', run .fail = .error e'
  succeeds_iff : (∃ a, run .blank = .ok a) →
    ((∃ a, run .fail = .ok a) ↔
      ∀ s ∈ texts, ∀ name ∈ Reference.unmodified s, (env name).isSome = true)

variable {env : Environment}

/-- Texts that are accepted by both policies become the same. -/
theorem sameTexts_of_fail {texts : List String}
    (h : ∀ s ∈ texts, ∃ text, Reference.substitute env .fail s = .ok text) :
    SameTexts env env .fail .blank texts := by
  intro s hs
  obtain ⟨text, htext⟩ := h s hs
  rw [htext, (Reference.substitute_fail_eq_ok_iff.1 htext).1]

/-- It is enough to look at the texts. -/
theorem onlyRefuses_of {texts : List String} {α : Type} {run : UndefinedPolicy → Except Error α}
    (hok : ∀ policy, (∃ a, run policy = .ok a) ↔
      ∀ s ∈ texts, ∃ text, Reference.substitute env policy s = .ok text)
    (hcongr : SameTexts env env .fail .blank texts → run .fail = run .blank) :
    OnlyRefuses env texts run := by
  have hsame : ∀ a, run .fail = .ok a → run .blank = .ok a := by
    intro a ha
    rw [← hcongr (sameTexts_of_fail ((hok .fail).1 ⟨a, ha⟩)), ha]
  refine ⟨hsame, fun e he => ?_, fun hblank => ?_⟩
  · cases hfail : run .fail with
    | error e' => exact ⟨e', rfl⟩
    | ok a => cases he.symm.trans (hsame a hfail)
  · rw [hok] at hblank ⊢
    simp only [Reference.substitute_fail_eq_ok_iff, exists_and_right]
    exact forall₂_congr fun s hs => and_iff_right (hblank s hs)

theorem exists_interpolateSection_iff {policy : UndefinedPolicy} {entries : Entries Value} :
    (∃ result, interpolateSection env policy entries = .ok result) ↔
      ∀ s ∈ Value.textsOfEntries entries, ∃ text, Reference.substitute env policy s = .ok text := by
  simp only [interpolateSection, Entries.exists_traverse_eq_ok_iff, exists_interpolate_iff,
    Value.textsOfEntries_eq_flatMap, List.mem_flatMap]
  constructor
  · rintro h s ⟨e, he, hs⟩
    exact h e he s hs
  · intro h e he s hs
    exact h s ⟨e, he, hs⟩

theorem exists_interpolateServices_iff {policy : UndefinedPolicy} {services : RawServices} :
    (∃ result, interpolateServices env policy services = .ok result) ↔
      ∀ s ∈ textsOfServices services, ∃ text, Reference.substitute env policy s = .ok text := by
  simp only [interpolateServices, interpolateService, Entries.exists_traverse_eq_ok_iff,
    exists_interpolate_iff, textsOfServices, Value.textsOfEntries_eq_flatMap, List.mem_flatMap]
  constructor
  · rintro h s ⟨e, he, f, hf, hs⟩
    exact h e he f hf s hs
  · intro h e he f hf s hs
    exact h s ⟨e, he, f, hf, hs⟩

/-- **The strict policy only refuses.** Whatever the environment, what becomes of a text, a value, a
section or all services under the strict policy becomes of it under the other one, too, and what is
an error under the other one is an error under the strict policy. What is accepted under the other
policy is accepted under the strict one just when every variable that is referred to without a
modifier, in any string at any depth, is set. -/
theorem strict_policy_only_refuses (env : Environment) :
    (∀ field input, OnlyRefuses env [input] fun policy =>
      interpolateText env policy field input) ∧
    (∀ field (v : Value), OnlyRefuses env v.texts fun policy =>
      interpolate env policy field v) ∧
    (∀ entries, OnlyRefuses env (Value.textsOfEntries entries) fun policy =>
      interpolateSection env policy entries) ∧
    ∀ services, OnlyRefuses env (textsOfServices services) fun policy =>
      interpolateServices env policy services := by
  refine ⟨fun field input => ?_, fun field v => ?_, fun entries => ?_, fun services => ?_⟩
  · refine onlyRefuses_of (fun policy => by simp [exists_interpolateText_iff]) fun h => ?_
    rw [interpolateText, interpolateText, h input (by simp)]
  · exact onlyRefuses_of (fun _ => exists_interpolate_iff) (interpolate_congr field v)
  · exact onlyRefuses_of (fun _ => exists_interpolateSection_iff) interpolateSection_congr
  · exact onlyRefuses_of (fun _ => exists_interpolateServices_iff) interpolateServices_congr

end ComposeMerge
