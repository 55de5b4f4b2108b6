import ComposeMerge.Proofs.Canonical
import ComposeMerge.Proofs.ReferencedVariables

/-!
# Strings inside values

References are replaced in the strings inside services, at every depth, and nowhere else. A string
is found at a `Place`: the steps that lead to it, through items of sequences and entries of
mappings. Services are looked at as one mapping of mappings, so that the first two steps to a string
name its service and its field.

* `Value.textAt?` is the string at a place, and `Precedes` the order of places;
* `Value.mapTexts` puts other strings in the places of strings, and leaves the rest alone;
* `Value.leaves` lists the strings with their places: `Value.mem_leaves_iff` says that it is
  complete, and `Value.pairwise_leaves` that it is in order;
* `interpolate_eq_leaves` and `interpolateServices_eq_leaves`: replacing references goes through this
  list and stops at the first fault;
* `interpolateServices_replaces_leaves` puts this together for services.
-/

namespace ComposeMerge

open Entries (Sorted get? get?_cons)

/-! ### Places -/

/-- A step from a value to a part of it. -/
inductive Step where
  | item (index : Nat)
  | entry (key : String)

/-- The steps from a value to a part of it. -/
abbrev Place := List Step

/-- Whether a step leads to an earlier part of the same value than another one. -/
def Step.Precedes : Step → Step → Prop
  | .item i, .item j => i < j
  | .entry k, .entry l => k < l
  | _, _ => False

instance : Std.Asymm Step.Precedes where
  asymm a b h := by
    cases a <;> cases b <;> simp only [Step.Precedes] at h ⊢
    · exact Nat.lt_asymm h
    · exact String.lt_asymm h

/-- Whether a place is met before another one, depth first. -/
abbrev Precedes : Place → Place → Prop := List.Lex Step.Precedes

namespace Value

/-- The string at a place of a value. -/
def textAt? : Place → Value → Option String
  | [], v => v.asString?
  | .item i :: place, .sequence items => items[i]?.bind (textAt? place)
  | .entry key :: place, .mapping es => (get? key es).bind (textAt? place)
  | _, _ => none

mutual

/-- A value with every string inside it replaced. Keys stay as they are. -/
def mapTexts (f : String → String) : Value → Value
  | .scalar (.text s) => .string (f s)
  | .scalar s => .scalar s
  | .sequence items => .sequence (mapTextsOfItems f items)
  | .mapping es => .mapping (mapTextsOfEntries f es)

/-- The items of a sequence with every string inside them replaced. -/
def mapTextsOfItems (f : String → String) : List Value → List Value
  | [] => []
  | v :: vs => mapTexts f v :: mapTextsOfItems f vs

/-- The entries of a mapping with every string inside their values replaced. -/
def mapTextsOfEntries (f : String → String) : List (String × Value) → List (String × Value)
  | [] => []
  | (k, v) :: es => (k, mapTexts f v) :: mapTextsOfEntries f es

end

/-! ### Strings with their places -/

/-- A string with its place, seen from one step further up. -/
def under (step : Step) (leaf : Place × String) : Place × String := (step :: leaf.1, leaf.2)

mutual

/-- The strings inside a value, with their places. -/
def leaves : Value → List (Place × String)
  | .scalar (.text s) => [([], s)]
  | .scalar _ => []
  | .sequence items => leavesOfItems 0 items
  | .mapping es => leavesOfEntries es

/-- The strings inside the items of a sequence, the first of which has the given index. -/
def leavesOfItems (index : Nat) : List Value → List (Place × String)
  | [] => []
  | v :: vs => (leaves v).map (under (.item index)) ++ leavesOfItems (index + 1) vs

/-- The strings inside the values of entries. -/
def leavesOfEntries : List (String × Value) → List (Place × String)
  | [] => []
  | (k, v) :: es => (leaves v).map (under (.entry k)) ++ leavesOfEntries es

end

theorem leavesOfEntries_eq_flatMap (es : Entries Value) :
    leavesOfEntries es = es.flatMap fun e => e.2.leaves.map (under (.entry e.1)) := by
  induction es with
  | nil => rfl
  | cons e es ih => rw [leavesOfEntries, ih, List.flatMap_cons]

mutual

theorem texts_eq_leaves : (v : Value) → v.texts = v.leaves.map Prod.snd
  | .scalar (.text _) => rfl
  | .scalar .null => rfl
  | .scalar (.bool _) => rfl
  | .scalar (.int _) => rfl
  | .scalar (.float _) => rfl
  | .sequence items => textsOfItems_eq_leaves 0 items
  | .mapping es => textsOfEntries_eq_leaves es

theorem textsOfItems_eq_leaves (index : Nat) :
    (vs : List Value) → textsOfItems vs = (leavesOfItems index vs).map Prod.snd
  | [] => rfl
  | v :: vs => by
    rw [textsOfItems, leavesOfItems, List.map_append, List.map_map, texts_eq_leaves v,
      textsOfItems_eq_leaves (index + 1) vs]
    rfl

theorem textsOfEntries_eq_leaves :
    (es : List (String × Value)) → textsOfEntries es = (leavesOfEntries es).map Prod.snd
  | [] => rfl
  | (k, v) :: es => by
    rw [textsOfEntries, leavesOfEntries, List.map_append, List.map_map, texts_eq_leaves v,
      textsOfEntries_eq_leaves es]
    rfl

end

theorem mem_map_under_iff {step : Step} {l : List (Place × String)} {place : Place} {s : String} :
    (place, s) ∈ l.map (under step) ↔ ∃ rest, place = step :: rest ∧ (rest, s) ∈ l := by
  simp only [List.mem_map, under, Prod.exists, Prod.mk.injEq]
  constructor
  · rintro ⟨rest, _, h, rfl, rfl⟩
    exact ⟨rest, rfl, h⟩
  · rintro ⟨rest, rfl, h⟩
    exact ⟨rest, s, h, rfl, rfl⟩

mutual

/-- The list holds the strings of all places. -/
theorem mem_leaves_iff : (v : Value) → v.Canonical → ∀ {place s},
    (place, s) ∈ v.leaves ↔ v.textAt? place = some s
  | .scalar x, _, place, s => by
    cases x <;> cases place <;> simp [leaves, textAt?, asString?, eq_comm]
  | .sequence items, h, place, s => by
    rw [leaves, mem_leavesOfItems_iff 0 items (canonical_sequence_iff.1 h)]
    cases place with
    | nil => simp [textAt?, asString?]
    | cons step place => cases step <;> simp [textAt?]
  | .mapping es, h, place, s => by
    rw [leaves, mem_leavesOfEntries_iff es (canonical_mapping_iff.1 h)]
    cases place with
    | nil => simp [textAt?, asString?]
    | cons step place => cases step <;> simp [textAt?]

theorem mem_leavesOfItems_iff (index : Nat) : (vs : List Value) → (∀ v ∈ vs, v.Canonical) →
    ∀ {place s}, (place, s) ∈ leavesOfItems index vs ↔
      ∃ i rest, place = .item (index + i) :: rest ∧ vs[i]?.bind (textAt? rest) = some s
  | [], _, place, s => by simp [leavesOfItems]
  | v :: vs, h, place, s => by
    obtain ⟨hv, hvs⟩ := List.forall_mem_cons.1 h
    rw [leavesOfItems, List.mem_append, mem_map_under_iff,
      mem_leavesOfItems_iff (index + 1) vs hvs]
    simp only [mem_leaves_iff v hv]
    constructor
    · rintro (⟨rest, rfl, hs⟩ | ⟨i, rest, rfl, hs⟩)
      · exact ⟨0, rest, rfl, hs⟩
      · exact ⟨i + 1, rest, by rw [Nat.add_right_comm, Nat.add_assoc], hs⟩
    · rintro ⟨_ | i, rest, rfl, hs⟩
      · exact .inl ⟨rest, rfl, hs⟩
      · exact .inr ⟨i, rest, by rw [Nat.add_right_comm, Nat.add_assoc], hs⟩

theorem mem_leavesOfEntries_iff : (es : List (String × Value)) →
    Sorted es ∧ (∀ e ∈ es, e.2.Canonical) → ∀ {place s}, (place, s) ∈ leavesOfEntries es ↔
      ∃ k rest, place = .entry k :: rest ∧ (get? k es).bind (textAt? rest) = some s
  | [], _, place, s => by simp [leavesOfEntries]
  | (k, v) :: es, h, place, s => by
    obtain ⟨hv, hes⟩ := List.forall_mem_cons.1 h.2
    have hk := h.1.distinct.get?_tail
    rw [leavesOfEntries, List.mem_append, mem_map_under_iff,
      mem_leavesOfEntries_iff es ⟨(List.pairwise_cons.1 h.1).2, hes⟩]
    simp only [mem_leaves_iff v hv, get?_cons]
    constructor
    · rintro (⟨rest, rfl, hs⟩ | ⟨l, rest, rfl, hs⟩)
      · exact ⟨k, rest, rfl, by rwa [if_pos rfl]⟩
      · refine ⟨l, rest, rfl, ?_⟩
        rwa [if_neg]
        rintro rfl
        simp [hk] at hs
    · rintro ⟨l, rest, rfl, hs⟩
      split at hs
      · next hkl => exact .inl ⟨rest, by rw [hkl], hs⟩
      · exact .inr ⟨l, rest, rfl, hs⟩

end

mutual

/-- The list is in the order of the places. -/
theorem pairwise_leaves : (v : Value) → v.Canonical →
    v.leaves.Pairwise fun a b => Precedes a.1 b.1
  | .scalar x, _ => by cases x <;> simp [leaves]
  | .sequence items, h => pairwise_leavesOfItems 0 items (canonical_sequence_iff.1 h)
  | .mapping es, h => pairwise_leavesOfEntries es (canonical_mapping_iff.1 h)

theorem pairwise_leavesOfItems (index : Nat) : (vs : List Value) → (∀ v ∈ vs, v.Canonical) →
    (leavesOfItems index vs).Pairwise fun a b => Precedes a.1 b.1
  | [], _ => .nil
  | v :: vs, h => by
    obtain ⟨hv, hvs⟩ := List.forall_mem_cons.1 h
    refine List.pairwise_append.2 ⟨List.pairwise_map.2 ((pairwise_leaves v hv).imp .cons),
      pairwise_leavesOfItems (index + 1) vs hvs, ?_⟩
    rintro ⟨_, s⟩ ha ⟨_, t⟩ hb
    obtain ⟨p, rfl, -⟩ := mem_map_under_iff.1 ha
    obtain ⟨i, q, rfl, -⟩ := (mem_leavesOfItems_iff (index + 1) vs hvs).1 hb
    exact .rel (show index < index + 1 + i by omega)

theorem pairwise_leavesOfEntries : (es : List (String × Value)) →
    Sorted es ∧ (∀ e ∈ es, e.2.Canonical) →
      (leavesOfEntries es).Pairwise fun a b => Precedes a.1 b.1
  | [], _ => .nil
  | (k, v) :: es, h => by
    obtain ⟨hv, hes⟩ := List.forall_mem_cons.1 h.2
    obtain ⟨hk, hsorted⟩ := List.pairwise_cons.1 h.1
    refine List.pairwise_append.2 ⟨List.pairwise_map.2 ((pairwise_leaves v hv).imp .cons),
      pairwise_leavesOfEntries es ⟨hsorted, hes⟩, ?_⟩
    rintro ⟨_, s⟩ ha ⟨_, t⟩ hb
    obtain ⟨p, rfl, -⟩ := mem_map_under_iff.1 ha
    obtain ⟨l, q, rfl, ht⟩ := (mem_leavesOfEntries_iff es ⟨hsorted, hes⟩).1 hb
    obtain ⟨w, hw, -⟩ := Option.bind_eq_some_iff.1 ht
    exact .rel (hk (l, w) (Entries.mem_of_get? hw))

end

end Value

/-! ### Replacing references in all strings -/

namespace Outcome

variable {ε α β γ δ η : Type}

/-- Of a list of steps in some order, the first one that fails gives the error. -/
theorem mapM_eq_error_iff {before : α → α → Prop} [Std.Asymm before] {f : α → Except ε β}
    {l : List α} (h : l.Pairwise before) {e : ε} :
    l.mapM f = .error e ↔
      ∃ a ∈ l, f a = .error e ∧ ∀ b ∈ l, before b a → ∃ r, f b = .ok r := by
  induction l with
  | nil => simp [pure, Except.pure]
  | cons a l ih =>
    obtain ⟨ha, hl⟩ := List.pairwise_cons.1 h
    rw [List.mapM_cons]
    cases hfa : f a with
    | error e' =>
      rw [bind_error, Except.error.injEq]
      constructor
      · rintro rfl
        refine ⟨a, List.mem_cons_self, hfa, fun b hb hba => ?_⟩
        rcases List.mem_cons.1 hb with rfl | hb
        · exact absurd hba (asymm hba)
        · exact absurd hba (asymm (ha b hb))
      · rintro ⟨c, hc, hfc, hbefore⟩
        rcases List.mem_cons.1 hc with rfl | hc
        · exact Except.error.inj (hfa.symm.trans hfc)
        · obtain ⟨r, hr⟩ := hbefore a List.mem_cons_self (ha c hc)
          cases hfa.symm.trans hr
    | ok r =>
      have hrest : ((l.mapM f >>= fun rs => pure (r :: rs)) = .error e) ↔
          l.mapM f = .error e := by
        cases l.mapM f <;> simp [pure, Except.pure]
      rw [bind_ok, hrest, ih hl]
      constructor
      · rintro ⟨c, hc, hfc, hbefore⟩
        exact ⟨c, List.mem_cons_of_mem _ hc, hfc,
          List.forall_mem_cons.2 ⟨fun _ => ⟨r, hfa⟩, hbefore⟩⟩
      · rintro ⟨c, hc, hfc, hbefore⟩
        rcases List.mem_cons.1 hc with rfl | hc
        · cases hfa.symm.trans hfc
        · exact ⟨c, hc, hfc, (List.forall_mem_cons.1 hbefore).2⟩

/-- Two lists of steps, one after the other, whose results are put together. -/
theorem bind_mapM_append (f : α → Except ε β) (l m : List α) (c : γ) (d : δ) (h : γ → δ → η) :
    (((l.mapM f).map fun _ => c) >>= fun c => ((m.mapM f).map fun _ => d) >>= fun d =>
      .ok (h c d)) = ((l ++ m).mapM f).map fun _ => h c d := by
  rw [List.mapM_append]
  cases l.mapM f with
  | error e => rfl
  | ok r => cases m.mapM f <;> rfl

end Outcome

/-- Entries that are gone through by steps on what each of them holds. -/
theorem Entries.traverse_eq_mapM {ε α β γ δ : Type} {f : String → α → Except ε β}
    {held : String × α → List γ} {g : γ → Except ε δ} {h : α → β} {es : Entries α}
    (hf : ∀ e ∈ es, f e.1 e.2 = ((held e).mapM g).map fun _ => h e.2) :
    traverse f es = ((es.flatMap held).mapM g).map fun _ => es.mapValues h := by
  induction es with
  | nil => rfl
  | cons e es ih =>
    obtain ⟨he, hes⟩ := List.forall_mem_cons.1 hf
    rw [traverse, he, ih hes]
    exact Outcome.bind_mapM_append g (held e) (es.flatMap held) (h e.2) (mapValues h es)
      fun w ws => (e.1, w) :: ws

open Value

variable {env : Environment} {policy : UndefinedPolicy}

/-- The text that a string becomes, where it becomes one. -/
def replacement (env : Environment) (policy : UndefinedPolicy) (s : String) : String :=
  (Reference.substitute env policy s).toOption.getD s

mutual

/-- Replacing references goes through the strings inside a value, and keeps the rest of it. -/
theorem interpolate_eq_leaves (field : String) : (v : Value) → interpolate env policy field v =
    (v.leaves.mapM fun leaf => interpolateText env policy field leaf.2).map fun _ =>
      v.mapTexts (replacement env policy)
  | .scalar (.text s) => by
    rw [interpolate, leaves, mapTexts, replacement, List.mapM_cons]
    simp only [interpolateText]
    cases Reference.substitute env policy s <;> rfl
  | .scalar .null => rfl
  | .scalar (.bool _) => rfl
  | .scalar (.int _) => rfl
  | .scalar (.float _) => rfl
  | .sequence items => by
    rw [interpolate, interpolateItems_eq_leaves field 0 items, Outcome.map_map]
    rfl
  | .mapping es => by
    rw [interpolate, interpolateEntries_eq_leaves field es, Outcome.map_map]
    rfl

theorem interpolateItems_eq_leaves (field : String) (index : Nat) : (vs : List Value) →
    interpolateItems env policy field vs =
      ((leavesOfItems index vs).mapM fun leaf => interpolateText env policy field leaf.2).map
        fun _ => mapTextsOfItems (replacement env policy) vs
  | [] => rfl
  | v :: vs => by
    rw [interpolateItems, interpolate_eq_leaves field v,
      interpolateItems_eq_leaves field (index + 1) vs, leavesOfItems, mapTextsOfItems,
      ← Outcome.bind_mapM_append _ _ _ _ _ List.cons, List.mapM_map]
    rfl

theorem interpolateEntries_eq_leaves (field : String) : (es : List (String × Value)) →
    interpolateEntries env policy field es =
      ((leavesOfEntries es).mapM fun leaf => interpolateText env policy field leaf.2).map
        fun _ => mapTextsOfEntries (replacement env policy) es
  | [] => rfl
  | (k, v) :: es => by
    rw [interpolateEntries, interpolate_eq_leaves field v, interpolateEntries_eq_leaves field es,
      leavesOfEntries, mapTextsOfEntries,
      ← Outcome.bind_mapM_append _ _ _ _ _ fun w ws => (k, w) :: ws, List.mapM_map]
    rfl

end

theorem exists_interpolateText_iff {field s : String} :
    (∃ text, interpolateText env policy field s = .ok text) ↔
      ∃ text, Reference.substitute env policy s = .ok text := by
  simp only [interpolateText, Outcome.mapError_eq_ok_iff]

theorem interpolateText_eq_error {field s : String} {e : Error}
    (h : interpolateText env policy field s = .error e) : ∃ fault, e = .interpolation field fault := by
  obtain ⟨fault, -, rfl⟩ := Outcome.mapError_eq_error_iff.1 h
  exact ⟨fault, rfl⟩

/-- Replacing references in a value succeeds when it does in every string inside it. -/
theorem exists_interpolate_iff {field : String} {v : Value} :
    (∃ w, interpolate env policy field v = .ok w) ↔
      ∀ s ∈ v.texts, ∃ text, Reference.substitute env policy s = .ok text := by
  simp only [interpolate_eq_leaves, Outcome.exists_map_eq_ok_iff, Outcome.exists_mapM_eq_ok_iff,
    exists_interpolateText_iff, texts_eq_leaves, List.forall_mem_map]

/-! ### Services -/

/-- Services as one value. -/
def servicesValue (services : RawServices) : Value := .mapping (services.mapValues .mapping)

/-- A string inside a service. -/
structure ServiceLeaf where
  service : String
  key : String
  /-- The steps from the value of the field. -/
  inside : Place
  text : String

namespace ServiceLeaf

/-- The field that the string belongs to, as errors name it. -/
def field (leaf : ServiceLeaf) : String := leaf.service ++ "." ++ leaf.key

/-- The steps from all services. -/
def place (leaf : ServiceLeaf) : Place := .entry leaf.service :: .entry leaf.key :: leaf.inside

/-- Whether the string is found in some services. -/
def IsOf (leaf : ServiceLeaf) (services : RawServices) : Prop :=
  (servicesValue services).textAt? leaf.place = some leaf.text

/-- What becomes of the string. -/
def replaced (env : Environment) (policy : UndefinedPolicy) (leaf : ServiceLeaf) :
    Except Error String :=
  interpolateText env policy leaf.field leaf.text

end ServiceLeaf

/-- The field that is named by the first two steps to a string. -/
def fieldOf : Place → String
  | .entry service :: .entry key :: _ => service ++ "." ++ key
  | _ => ""

theorem leaves_servicesValue (services : RawServices) :
    (servicesValue services).leaves =
      services.flatMap fun e => (Value.mapping e.2).leaves.map (under (.entry e.1)) := by
  rw [servicesValue, leaves, leavesOfEntries_eq_flatMap, Entries.mapValues, List.flatMap_map]

/-- Replacing references goes through the strings inside services, and keeps the rest of them. -/
theorem interpolateServices_eq_leaves (services : RawServices) :
    interpolateServices env policy services =
      ((servicesValue services).leaves.mapM fun leaf =>
        interpolateText env policy (fieldOf leaf.1) leaf.2).map fun _ =>
          services.mapValues fun fields => fields.mapValues (mapTexts (replacement env policy)) := by
  have hservice : ∀ e ∈ services, interpolateService env policy e.1 e.2 =
      (((Value.mapping e.2).leaves.map (under (.entry e.1))).mapM fun leaf =>
        interpolateText env policy (fieldOf leaf.1) leaf.2).map fun _ =>
          e.2.mapValues (mapTexts (replacement env policy)) := by
    rintro ⟨service, fields⟩ -
    rw [interpolateService, leaves, leavesOfEntries_eq_flatMap, List.mapM_map]
    refine Entries.traverse_eq_mapM fun e _ => ?_
    rw [interpolate_eq_leaves, List.mapM_map]
    rfl
  rw [interpolateServices, Entries.traverse_eq_mapM hservice, leaves_servicesValue]

/-- The first two steps to a string inside services lead to a service and a field. -/
theorem exists_serviceLeaf {services : RawServices} {place : Place} {s : String}
    (h : (servicesValue services).textAt? place = some s) :
    ∃ leaf : ServiceLeaf, leaf.place = place ∧ leaf.text = s := by
  rcases place with _ | ⟨_ | service, place⟩
  · cases h
  · cases h
  · obtain ⟨v, hv, h⟩ := Option.bind_eq_some_iff.1 h
    rw [Entries.get?_mapValues] at hv
    obtain ⟨fields, -, rfl⟩ := Option.map_eq_some_iff.1 hv
    rcases place with _ | ⟨_ | key, place⟩
    · cases h
    · cases h
    · exact ⟨⟨service, key, place, s⟩, rfl, rfl⟩

theorem forall_leaves_iff {services : RawServices} (h : (servicesValue services).Canonical)
    {P : Place × String → Prop} :
    (∀ leaf ∈ (servicesValue services).leaves, P leaf) ↔
      ∀ leaf : ServiceLeaf, leaf.IsOf services → P (leaf.place, leaf.text) := by
  constructor
  · intro hall leaf hleaf
    exact hall _ ((mem_leaves_iff _ h).2 hleaf)
  · rintro hall ⟨place, s⟩ hmem
    rw [mem_leaves_iff _ h] at hmem
    obtain ⟨leaf, rfl, rfl⟩ := exists_serviceLeaf hmem
    exact hall leaf hmem

/-- **References are replaced in the strings inside services, and nowhere else.** Let the keys of
services be in order at every depth. Replacing references

* succeeds when it does in every string inside them;
* then puts what these strings become in their places, and keeps names, keys, the items of
  sequences and all other scalars;
* else gives the error of the first string that fails, in the order of services, fields and places
  in a field; the error names the service and the field. -/
theorem interpolateServices_replaces_leaves {services : RawServices}
    (h : (servicesValue services).Canonical) (env : Environment) (policy : UndefinedPolicy) :
    ((∃ result, interpolateServices env policy services = .ok result) ↔
      ∀ leaf : ServiceLeaf, leaf.IsOf services → ∃ text, leaf.replaced env policy = .ok text) ∧
    (∀ result, interpolateServices env policy services = .ok result →
      ∃ f : String → String,
        (∀ leaf : ServiceLeaf, leaf.IsOf services →
          leaf.replaced env policy = .ok (f leaf.text)) ∧
        result = services.mapValues fun fields => fields.mapValues (mapTexts f)) ∧
    (∀ e, interpolateServices env policy services = .error e ↔
      ∃ leaf : ServiceLeaf, leaf.IsOf services ∧ leaf.replaced env policy = .error e ∧
        (∃ fault, e = .interpolation (leaf.service ++ "." ++ leaf.key) fault) ∧
        ∀ other : ServiceLeaf, other.IsOf services → Precedes other.place leaf.place →
          ∃ text, other.replaced env policy = .ok text) := by
  have hsuccess : (∃ result, interpolateServices env policy services = .ok result) ↔
      ∀ leaf : ServiceLeaf, leaf.IsOf services →
        ∃ text, leaf.replaced env policy = .ok text := by
    rw [interpolateServices_eq_leaves, Outcome.exists_map_eq_ok_iff,
      Outcome.exists_mapM_eq_ok_iff, forall_leaves_iff h]
    rfl
  refine ⟨hsuccess, fun result hresult => ?_, fun e => ?_⟩
  · refine ⟨replacement env policy, fun leaf hleaf => ?_, ?_⟩
    · obtain ⟨text, htext⟩ := hsuccess.1 ⟨result, hresult⟩ leaf hleaf
      have hreplaced := Outcome.mapError_eq_ok_iff.1 htext
      rw [htext, replacement, hreplaced]
      rfl
    · rw [interpolateServices_eq_leaves] at hresult
      obtain ⟨-, -, rfl⟩ := Outcome.map_eq_ok_iff.1 hresult
      rfl
  · have : Std.Asymm fun a b : Place × String => Precedes a.1 b.1 :=
      ⟨fun a b hab => asymm (r := Precedes) hab⟩
    rw [interpolateServices_eq_leaves, Outcome.map_eq_error_iff,
      Outcome.mapM_eq_error_iff (pairwise_leaves _ h)]
    constructor
    · rintro ⟨⟨place, s⟩, hmem, herror, hbefore⟩
      rw [mem_leaves_iff _ h] at hmem
      obtain ⟨leaf, rfl, rfl⟩ := exists_serviceLeaf hmem
      exact ⟨leaf, hmem, herror, interpolateText_eq_error herror, (forall_leaves_iff h).1 hbefore⟩
    · rintro ⟨leaf, hleaf, herror, -, hbefore⟩
      exact ⟨(leaf.place, leaf.text), (mem_leaves_iff _ h).2 hleaf, herror,
        (forall_leaves_iff h).2 hbefore⟩

/-- Services with strings in a sequence and in a mapping. -/
def leafyServices : RawServices :=
  [("db", [("command", .sequence [.string "run", .scalar (.int 1), .string "$MODE"])]),
   ("web", [("labels", .mapping [("a", .string "$TAG$")])])]

theorem canonical_leafyServices : (servicesValue leafyServices).Canonical :=
  canonical_mapping_iff.2 ⟨List.pairwise_pair.2 (show "db" < "web" by decide),
    by simp [leafyServices, Entries.mapValues, Value.string, Sorted]⟩

/-- Of two strings that fail, the one in the earlier service gives the error. -/
theorem first_fault_of_leafyServices :
    (servicesValue leafyServices).Canonical ∧
      ∃ leaf : ServiceLeaf, leaf.IsOf leafyServices ∧ leaf.field = "db.command" ∧
        leaf.replaced (.ofEntries [("TAG", "1")]) .fail =
          .error (.interpolation "db.command" (.unset "MODE")) ∧
        ∀ other : ServiceLeaf, other.IsOf leafyServices → Precedes other.place leaf.place →
          ∃ text, other.replaced (.ofEntries [("TAG", "1")]) .fail = .ok text := by
  obtain ⟨leaf, hleaf, herror, ⟨fault, hfield⟩, hbefore⟩ :=
    ((interpolateServices_replaces_leaves canonical_leafyServices (.ofEntries [("TAG", "1")])
      .fail).2.2 (.interpolation "db.command" (.unset "MODE"))).1
        ((Outcome.map_eq_error_iff (f := fun _ => ())).1 (by decide +kernel))
  refine ⟨canonical_leafyServices, leaf, hleaf, ?_, herror, hbefore⟩
  rw [Error.interpolation.injEq] at hfield
  exact hfield.1.symm

end ComposeMerge
