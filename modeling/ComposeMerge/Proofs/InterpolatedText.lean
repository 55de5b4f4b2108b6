import ComposeMerge.Interpolation
import ComposeMerge.Proofs.ReferenceGrammar

/-!
# What a text with references stands for

Every piece of a text stands for a text of its own, whatever stands beside it.

* `Means` lists what the pieces stand for; `meaning_eq_iff` finds this in `Segment.meaning`;
* `meanings_eq_ok_iff` and `meanings_eq_error_iff` go from pieces to lists of pieces;
* `doubleDollars` writes a text so that it has no references, and `escape` is its pieces;
* `interpolateText_render` is about pieces that are written down and replaced.
-/

namespace ComposeMerge
namespace Reference

/-! ### Pieces -/

/-- Whether a modifier counts an empty value as none. -/
def Modifier.whenEmpty : Modifier → Bool
  | .default _ whenEmpty => whenEmpty
  | .required _ whenEmpty => whenEmpty

/-- The variable is set and, where an empty value counts as none, not empty. -/
def HasValue (env : Environment) (name : String) (whenEmpty : Bool) (value : String) : Prop :=
  env name = some value ∧ (whenEmpty = true → value ≠ "")

/-- What a piece stands for: a text, or the fault of having none. -/
inductive Means (env : Environment) (policy : UndefinedPolicy) :
    Segment → Except ReferenceFault String → Prop
  | literal (text : String) : Means env policy (.literal text) (.ok text)
  | dollar : Means env policy .dollar (.ok "$")
  | set {name value : String} (h : env name = some value) :
    Means env policy (.variable name none) (.ok value)
  | blank {name : String} (h : env name = none) (hpolicy : policy = .blank) :
    Means env policy (.variable name none) (.ok "")
  | unset {name : String} (h : env name = none) (hpolicy : policy = .fail) :
    Means env policy (.variable name none) (.error (.unset name))
  | value {name value : String} {m : Modifier} (h : HasValue env name m.whenEmpty value) :
    Means env policy (.variable name (some m)) (.ok value)
  | word {name word : String} {whenEmpty : Bool}
      (h : ∀ value, ¬ HasValue env name whenEmpty value) :
    Means env policy (.variable name (some (.default word whenEmpty))) (.ok word)
  | required {name message : String} {whenEmpty : Bool}
      (h : ∀ value, ¬ HasValue env name whenEmpty value) :
    Means env policy (.variable name (some (.required message whenEmpty)))
      (.error (.required name message))

variable {env : Environment} {policy : UndefinedPolicy}

theorem accepted_eq_some_iff {name value : String} {whenEmpty : Bool} :
    accepted (env name) whenEmpty = some value ↔ HasValue env name whenEmpty value := by
  rw [accepted, Option.filter_eq_some_iff, HasValue]
  refine and_congr_right fun _ => ?_
  cases whenEmpty <;> simp

theorem accepted_eq_none_iff {name : String} {whenEmpty : Bool} :
    accepted (env name) whenEmpty = none ↔ ∀ value, ¬ HasValue env name whenEmpty value := by
  simp only [← accepted_eq_some_iff, Option.eq_none_iff_forall_ne_some, ne_eq]

theorem meaning_of_means {segment : Segment} {result : Except ReferenceFault String}
    (h : Means env policy segment result) : segment.meaning env policy = result := by
  cases h with
  | literal text => rfl
  | dollar => rfl
  | set h => simp only [Segment.meaning, h]
  | blank h hpolicy => simp only [Segment.meaning, h, hpolicy]
  | unset h hpolicy => simp only [Segment.meaning, h, hpolicy]
  | @value name value m h =>
    have haccepted := accepted_eq_some_iff.2 h
    cases m with
    | default word whenEmpty =>
      rw [Segment.meaning, show accepted (env name) whenEmpty = _ from haccepted]
      rfl
    | required message whenEmpty =>
      rw [Segment.meaning, show accepted (env name) whenEmpty = _ from haccepted]
  | word h => simp only [Segment.meaning, accepted_eq_none_iff.2 h, Option.getD_none]
  | required h => simp only [Segment.meaning, accepted_eq_none_iff.2 h]

/-- Every piece has a meaning, if only a fault. -/
theorem exists_means (env : Environment) (policy : UndefinedPolicy) (segment : Segment) :
    ∃ result, Means env policy segment result := by
  rcases segment with text | _ | ⟨name, _ | m⟩
  · exact ⟨_, .literal text⟩
  · exact ⟨_, .dollar⟩
  · cases h : env name with
    | some value => exact ⟨_, .set h⟩
    | none =>
      cases hpolicy : policy with
      | blank => exact ⟨_, .blank h rfl⟩
      | fail => exact ⟨_, .unset h rfl⟩
  · cases h : accepted (env name) m.whenEmpty with
    | some value => exact ⟨_, .value (accepted_eq_some_iff.1 h)⟩
    | none =>
      rw [accepted_eq_none_iff] at h
      cases m with
      | default word whenEmpty => exact ⟨_, .word h⟩
      | required message whenEmpty => exact ⟨_, .required h⟩

theorem meaning_eq_iff {segment : Segment} {result : Except ReferenceFault String} :
    segment.meaning env policy = result ↔ Means env policy segment result := by
  refine ⟨?_, meaning_of_means⟩
  rintro rfl
  obtain ⟨result, h⟩ := exists_means env policy segment
  rwa [meaning_of_means h]

/-! ### Lists of pieces -/

theorem meanings_eq_ok_iff {segments : List Segment} {text : String} :
    meanings env policy segments = .ok text ↔
      ∃ texts, List.Forall₂ (fun segment text => Means env policy segment (.ok text))
        segments texts ∧ text = String.join texts := by
  induction segments generalizing text with
  | nil => simp [meanings, eq_comm]
  | cons segment segments ih =>
    rw [meanings]
    simp only [Outcome.bind_eq_ok_iff, meaning_eq_iff, ih, Except.ok.injEq,
      List.forall₂_cons_left_iff]
    constructor
    · rintro ⟨t, ht, _, ⟨texts, htexts, rfl⟩, rfl⟩
      exact ⟨t :: texts, ⟨t, texts, ht, htexts, rfl⟩, (String.join_cons ..).symm⟩
    · rintro ⟨_, ⟨t, texts, ht, htexts, rfl⟩, rfl⟩
      exact ⟨t, ht, _, ⟨texts, htexts, rfl⟩, (String.join_cons ..).symm⟩

/-- The first fault among the pieces is the one that counts. -/
theorem meanings_eq_error_iff {segments : List Segment} {fault : ReferenceFault} :
    meanings env policy segments = .error fault ↔
      ∃ before segment after, segments = before ++ segment :: after ∧
        (∀ s ∈ before, ∃ text, Means env policy s (.ok text)) ∧
        Means env policy segment (.error fault) := by
  induction segments with
  | nil => simp [meanings]
  | cons first segments ih =>
    rw [meanings]
    cases hfirst : first.meaning env policy with
    | error e =>
      rw [meaning_eq_iff] at hfirst
      constructor
      · rintro ⟨⟩
        exact ⟨[], first, segments, rfl, by simp, hfirst⟩
      · rintro ⟨before, segment, after, hsplit, hbefore, hfault⟩
        cases before with
        | nil =>
          obtain ⟨rfl, -⟩ := List.cons.inj hsplit
          cases (meaning_of_means hfirst).symm.trans (meaning_of_means hfault)
          rfl
        | cons _ before =>
          obtain ⟨rfl, -⟩ := List.cons.inj hsplit
          obtain ⟨text, htext⟩ := hbefore _ List.mem_cons_self
          cases (meaning_of_means hfirst).symm.trans (meaning_of_means htext)
    | ok text =>
      have hrest : (meanings env policy segments >>= fun more => Except.ok (text ++ more)) =
          .error fault ↔ meanings env policy segments = .error fault := by
        cases meanings env policy segments <;> simp
      rw [Outcome.bind_ok, hrest, ih]
      rw [meaning_eq_iff] at hfirst
      constructor
      · rintro ⟨before, segment, after, rfl, hbefore, hfault⟩
        exact ⟨first :: before, segment, after, rfl,
          List.forall_mem_cons.2 ⟨⟨text, hfirst⟩, hbefore⟩, hfault⟩
      · rintro ⟨before, segment, after, hsplit, hbefore, hfault⟩
        cases before with
        | nil =>
          obtain ⟨rfl, -⟩ := List.cons.inj hsplit
          cases (meaning_of_means hfirst).symm.trans (meaning_of_means hfault)
        | cons _ before =>
          obtain ⟨rfl, rfl⟩ := List.cons.inj hsplit
          exact ⟨before, segment, after, rfl, (List.forall_mem_cons.1 hbefore).2, hfault⟩

/-! ### Texts without references -/

/-- A text with every dollar sign written twice. -/
def doubleDollars (input : String) : String :=
  String.ofList (input.toList.flatMap fun c => if c = '$' then ['$', '$'] else [c])

/-- The pieces with a character before them, which joins a literal. -/
def prependChar (c : Char) : List Segment → List Segment
  | .literal text :: rest => .literal (String.ofList (c :: text.toList)) :: rest
  | segments => .literal (String.ofList [c]) :: segments

/-- The pieces that stand for a text without looking anything up. -/
def escape : List Char → List Segment
  | [] => []
  | c :: s => if c = '$' then .dollar :: escape s else prependChar c (escape s)

theorem prependChar_cases (c : Char) (segments : List Segment) :
    (∃ text rest, segments = .literal text :: rest ∧
      prependChar c segments = .literal (String.ofList (c :: text.toList)) :: rest) ∨
    ((∀ s ∈ segments.head?, ¬ s.IsLiteral) ∧
      prependChar c segments = .literal (String.ofList [c]) :: segments) := by
  rcases segments with _ | ⟨text | _ | ⟨name, m⟩, rest⟩
  · exact .inr ⟨by simp, rfl⟩
  · exact .inl ⟨text, rest, rfl, rfl⟩
  · exact .inr ⟨by simp [Segment.IsLiteral], rfl⟩
  · exact .inr ⟨by simp [Segment.IsLiteral], rfl⟩

theorem separated_prependChar {c : Char} (hc : c ≠ '$') {segments : List Segment}
    (h : Separated segments) : Separated (prependChar c segments) := by
  obtain ⟨hwell, hapart⟩ := h
  rcases prependChar_cases c segments with ⟨text, rest, rfl, heq⟩ | ⟨hhead, heq⟩
  · rw [heq]
    obtain ⟨htext, hrest⟩ := List.forall_mem_cons.1 hwell
    refine ⟨List.forall_mem_cons.2 ⟨⟨?_, ?_⟩, hrest⟩,
      List.isChain_cons.2 (List.isChain_cons.1 hapart)⟩
    · simp
    · simpa [hc.symm] using htext.2
  · rw [heq]
    refine ⟨List.forall_mem_cons.2 ⟨⟨?_, ?_⟩, hwell⟩, List.isChain_cons.2 ⟨?_, hapart⟩⟩
    · simp
    · simpa using hc.symm
    · exact fun s hs hboth => hhead s hs hboth.2

theorem separated_escape (s : List Char) : Separated (escape s) := by
  induction s with
  | nil => exact ⟨by simp [escape], .nil⟩
  | cons c s ih =>
    rw [escape]
    split
    · exact ⟨List.forall_mem_cons.2 ⟨trivial, ih.wellFormed⟩,
        List.isChain_cons.2 ⟨fun _ _ hboth => hboth.1, ih.apart⟩⟩
    · next hc => exact separated_prependChar hc ih

theorem flatMap_render_prependChar (c : Char) (segments : List Segment) :
    (prependChar c segments).flatMap Segment.render = c :: segments.flatMap Segment.render := by
  rcases prependChar_cases c segments with ⟨text, rest, rfl, heq⟩ | ⟨-, heq⟩
  · rw [heq]
    simp [Segment.render]
  · rw [heq]
    simp [Segment.render]

theorem render_escape (input : String) : render (escape input.toList) = doubleDollars input := by
  rw [render, doubleDollars]
  refine congrArg String.ofList ?_
  induction input.toList with
  | nil => rfl
  | cons c s ih =>
    rw [escape, List.flatMap_cons, ← ih]
    split
    · rfl
    · exact flatMap_render_prependChar c _

theorem meanings_cons {segment : Segment} {text : String}
    (h : segment.meaning env policy = .ok text) (rest : List Segment) :
    meanings env policy (segment :: rest) = (meanings env policy rest).map (text ++ ·) := by
  rw [meanings, h, Outcome.bind_ok]
  cases meanings env policy rest <;> rfl

theorem meanings_prependChar (c : Char) (segments : List Segment) :
    meanings env policy (prependChar c segments) =
      (meanings env policy segments).map (String.ofList [c] ++ ·) := by
  rcases prependChar_cases c segments with ⟨text, rest, rfl, heq⟩ | ⟨-, heq⟩
  · have hsplit : String.ofList (c :: text.toList) = String.ofList [c] ++ text := by
      rw [← String.toList_inj]
      simp
    rw [heq, meanings_cons rfl, meanings_cons rfl, hsplit]
    cases meanings env policy rest with
    | error fault => rfl
    | ok more => simp [String.append_assoc]
  · rw [heq, meanings_cons rfl]

theorem meanings_escape (s : List Char) :
    meanings env policy (escape s) = .ok (String.ofList s) := by
  induction s with
  | nil => rfl
  | cons c s ih =>
    have hcons : String.ofList [c] ++ String.ofList s = String.ofList (c :: s) := by
      rw [← String.ofList_append]
      rfl
    rw [escape]
    split
    · next hc => rw [meanings_cons rfl, ih, Outcome.map_ok, ← hcons, hc]
    · rw [meanings_prependChar, ih, Outcome.map_ok, hcons]

/-! ### Replacing references -/

/-- A text without a dollar sign is at most one literal, which stands for itself. -/
theorem meanings_of_not_mem {input : String} (h : '$' ∉ input.toList) {found : List Segment}
    (hfound : tokenize input = .ok found) : meanings env policy found = .ok input := by
  rw [tokenize_eq_ok_iff] at hfound
  cases hinput : input.toList with
  | nil =>
    rw [hinput] at hfound
    cases segments_nil.symm.trans hfound
    rw [String.toList_eq_nil_iff.1 hinput]
    rfl
  | cons c s =>
    -- The text is one literal, as far as it goes.
    have hpiece := piece?_literal (List.cons_ne_nil c s) (hinput ▸ h) []
    rw [List.append_nil, ← hinput] at hpiece
    rw [segments_of_piece hpiece] at hfound
    cases hfound.symm.trans (congrArg _ segments_nil)
    simp [meanings, Segment.meaning]

/-- Leaving a text without a dollar sign alone gives what its pieces stand for. -/
theorem substitute_of_tokenize {input : String} {found : List Segment}
    (h : tokenize input = .ok found) :
    substitute env policy input = meanings env policy found := by
  rw [substitute]
  split
  · next hfree => exact (meanings_of_not_mem hfree h).symm
  · rw [h]

theorem substitute_render {segments : List Segment} (h : Separated segments) :
    substitute env policy (render segments) = meanings env policy segments :=
  substitute_of_tokenize (tokenize_render h)

/-- Where a piece has no meaning, the words of the error name its variable. -/
theorem message_of_means {segment : Segment} {fault : ReferenceFault}
    (h : Means env policy segment (.error fault)) (field : String) :
    ∃ name m before after, segment = .variable name m ∧
      (Error.interpolation field fault).message =
        before ++ ("variable " ++ name ++ " is " ++ after) := by
  have hmessage : (Error.interpolation field fault).message =
      "invalid interpolation format for " ++ field ++ ": " ++ fault.message := rfl
  rw [hmessage]
  cases h with
  | @unset name h hpolicy =>
    have hwords : " is not set" = " is " ++ "not set" := rfl
    refine ⟨name, none, _, "not set", rfl, congrArg _ ?_⟩
    show "variable " ++ name ++ " is not set" = _
    rw [hwords, ← String.append_assoc]
  | @required name message whenEmpty h =>
    have hwords : " is missing a value" = " is " ++ "missing a value" := rfl
    have hrequired : "required variable " = "required " ++ "variable " := rfl
    refine ⟨name, some (.required message whenEmpty),
      "invalid interpolation format for " ++ field ++ ": " ++ "required ",
      "missing a value" ++ if message.isEmpty then "" else s!": {message}", rfl, ?_⟩
    show _ ++ ("required variable " ++ name ++ " is missing a value" ++ _) = _
    rw [hwords, hrequired]
    simp only [String.append_assoc]

end Reference

open Reference

/-- **Texts are replaced piece by piece.** Let pieces that stay apart be written down, with braces
around their names. The meanings of the pieces, one after the other, are what the text becomes; if
some pieces have none, the error is that of the first one, and it names the variable. So nothing
that is put in is looked through again, and a text with its dollar signs doubled becomes the text
itself. -/
theorem interpolateText_render (env : Environment) (policy : UndefinedPolicy) (field : String) :
    (∀ segments, Separated segments →
      (∀ text, interpolateText env policy field (render segments) = .ok text ↔
        ∃ texts, List.Forall₂ (fun segment text => Means env policy segment (.ok text))
          segments texts ∧ text = String.join texts) ∧
      ∀ e, interpolateText env policy field (render segments) = .error e ↔
        ∃ before segment after fault, segments = before ++ segment :: after ∧
          (∀ s ∈ before, ∃ text, Means env policy s (.ok text)) ∧
          Means env policy segment (.error fault) ∧ e = .interpolation field fault ∧
          ∃ name m head tail, segment = .variable name m ∧
            e.message = head ++ ("variable " ++ name ++ " is " ++ tail)) ∧
    ∀ input, interpolateText env policy field (doubleDollars input) = .ok input := by
  refine ⟨fun segments h => ⟨fun text => ?_, fun e => ?_⟩, fun input => ?_⟩
  · rw [interpolateText, substitute_render h, Outcome.mapError_eq_ok_iff, meanings_eq_ok_iff]
  · have herror : interpolateText env policy field (render segments) = .error e ↔
        ∃ fault, meanings env policy segments = .error fault ∧ e = .interpolation field fault := by
      rw [interpolateText, substitute_render h]
      cases meanings env policy segments <;> simp [Except.mapError, eq_comm]
    simp only [herror, meanings_eq_error_iff]
    constructor
    · rintro ⟨fault, ⟨before, segment, after, hsplit, hbefore, hfault⟩, rfl⟩
      exact ⟨before, segment, after, fault, hsplit, hbefore, hfault, rfl,
        message_of_means hfault field⟩
    · rintro ⟨before, segment, after, fault, hsplit, hbefore, hfault, he, -⟩
      exact ⟨fault, ⟨before, segment, after, hsplit, hbefore, hfault⟩, he⟩
  · rw [interpolateText, ← render_escape, substitute_render (separated_escape _), meanings_escape,
      String.ofList_toList]
    rfl

/-- An empty value gives way to the word, which is copied with its dollar sign. -/
theorem interpolated_samplePieces :
    Separated samplePieces ∧
      interpolateText (.ofEntries [("B", "")]) .fail "web.image" (render samplePieces) =
        .ok "a-$-$Cd" := by
  have hempty : ∀ value, ¬ HasValue (.ofEntries [("B", "")]) "B" true value := by
    rintro value ⟨hvalue, hne⟩
    exact hne rfl (Option.some.inj hvalue).symm
  have hmeans := (((interpolateText_render (.ofEntries [("B", "")]) .fail "web.image").1
    samplePieces separated_samplePieces).1 "a-$-$Cd").2
  exact ⟨separated_samplePieces, hmeans ⟨["a-", "$", "-$C", "d"],
    .cons (.literal "a-") (.cons .dollar (.cons (.word hempty) (.cons (.literal "d") .nil))),
    by decide +kernel⟩⟩

end ComposeMerge
