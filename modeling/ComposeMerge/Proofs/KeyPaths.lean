import ComposeMerge.Proofs.Overlay

/-!
# Overlaying along paths of keys

A path of keys leads from a value into the mappings that it nests. What stands at a path after a
definition is laid over another is told by what the two have at that path, and by whether the later
one lets the path through.

* `Value.at?` is the value at a path, and `Value.Admits` says that a value lets a path through;
* `at?_overlay` and `at?_overlay_of_not_admits` find a path in a value laid over another;
* `overlayService_at?` tells the field, or the part of a field, at every path of a service.
-/

namespace ComposeMerge

open Entries (get? Distinct)

namespace Value

/-- The value at a path of keys. Only mappings are entered. -/
def at? : Value → List String → Option Value
  | v, [] => some v
  | .mapping es, k :: path => (get? k es).bind fun v => v.at? path
  | .scalar _, _ :: _ => none
  | .sequence _, _ :: _ => none

/-- Nothing in the value is in the way of the path: what it has there before the end of the path is
a mapping. -/
def Admits (v : Value) (path : List String) : Prop :=
  ∀ q w, q <+: path → q ≠ path → v.at? q = some w → w.isMapping = true

variable {v : Value} {es : Entries Value} {k : String} {path : List String}

@[simp] theorem at?_nil (v : Value) : v.at? [] = some v := by
  cases v <;> rfl

@[simp] theorem at?_mapping_cons :
    (Value.mapping es).at? (k :: path) = (get? k es).bind fun v => v.at? path := rfl

@[simp] theorem at?_scalar_cons (s : Scalar) : (Value.scalar s).at? (k :: path) = none := rfl

@[simp] theorem at?_sequence_cons (vs : List Value) :
    (Value.sequence vs).at? (k :: path) = none := rfl

theorem at?_cons_of_not_isMapping (h : v.isMapping = false) : v.at? (k :: path) = none := by
  cases v with
  | scalar s => rfl
  | sequence vs => rfl
  | mapping es => cases h

theorem Canonical.at? (hv : v.Canonical) {w : Value} (h : v.at? path = some w) : w.Canonical := by
  induction path generalizing v with
  | nil => simpa [← Option.some.inj h] using hv
  | cons k path ih =>
    cases v with
    | scalar s => cases h
    | sequence vs => cases h
    | mapping es =>
      obtain ⟨u, hu, h⟩ := Option.bind_eq_some_iff.1 h
      exact ih (hv.get? hu) h

/-! ### Paths that are let through -/

theorem admits_nil (v : Value) : v.Admits [] :=
  fun _ _ hq hne _ => absurd (List.prefix_nil.1 hq) hne

theorem Admits.isMapping (h : v.Admits (k :: path)) : v.isMapping = true :=
  h [] v List.nil_prefix (by simp) (at?_nil v)

theorem admits_mapping_cons_iff :
    (Value.mapping es).Admits (k :: path) ↔ ∀ u ∈ get? k es, u.Admits path := by
  constructor
  · intro h u hu q w hq hne hw
    refine h (k :: q) w ((List.prefix_cons_inj k).2 hq) (by simpa using hne) ?_
    simpa [Option.mem_def.1 hu] using hw
  · intro h q w hq hne hw
    rcases List.prefix_cons_iff.1 hq with rfl | ⟨r, rfl, hr⟩
    · cases Option.some.inj hw
      rfl
    · obtain ⟨u, hu, hw⟩ := Option.bind_eq_some_iff.1 hw
      exact h u hu r w hr (by simpa using hne) hw

/-- Where a path is not let through, nothing stands at its end. -/
theorem at?_eq_none_of_not_admits (h : ¬ v.Admits path) : v.at? path = none := by
  induction path generalizing v with
  | nil => exact absurd (admits_nil v) h
  | cons k path ih =>
    cases v with
    | scalar s => rfl
    | sequence vs => rfl
    | mapping es =>
      rw [admits_mapping_cons_iff] at h
      push Not at h
      obtain ⟨u, hu, h⟩ := h
      rw [at?_mapping_cons, Option.mem_def.1 hu]
      exact ih h

end Value

section Overlay

variable {field : String} {v : Value} {path : List String}

theorem isMapping_overlay (field : String) (base v : Value) :
    (overlay field base v).isMapping = v.isMapping := by
  cases v with
  | scalar s => simp
  | sequence vs => cases base <;> simp [overlay_sequence, Value.isMapping]
  | mapping es => cases base <;> simp [Value.isMapping]

/-- What a path leads to that is let through: the two values there meet as those of one key do. -/
theorem at?_overlay (field : String) (base : Value) (hv : v.Canonical) (hpath : v.Admits path) :
    (overlay field base v).at? path =
      overlaySlot (path.getLastD field) (base.at? path) (v.at? path) := by
  induction path generalizing field base v with
  | nil => simp
  | cons k path ih =>
    cases v with
    | scalar s => cases hpath.isMapping
    | sequence vs => cases hpath.isMapping
    | mapping es =>
      cases base with
      | scalar s => simp
      | sequence us => simp
      | mapping ds =>
        rw [Value.admits_mapping_cons_iff] at hpath
        simp only [overlay_mapping, Value.at?_mapping_cons, List.getLastD_cons,
          get?_overlayEntries hv.sorted.distinct]
        cases hes : get? k es with
        | none => simp
        | some w =>
          cases hds : get? k ds with
          | none => simp
          | some u => simpa using ih k u (hv.get? hes) (hpath w hes)

/-- Behind a value that is in the way of the path, the earlier value is gone. -/
theorem at?_overlay_of_not_admits (field : String) (base : Value) (hv : v.Canonical)
    (hpath : ¬ v.Admits path) :
    (overlay field base v).at? path = none := by
  induction path generalizing field base v with
  | nil => exact absurd (Value.admits_nil v) hpath
  | cons k path ih =>
    cases v with
    | scalar s => exact Value.at?_cons_of_not_isMapping (isMapping_overlay field base _)
    | sequence vs => exact Value.at?_cons_of_not_isMapping (isMapping_overlay field base _)
    | mapping es =>
      cases base with
      | scalar s => simpa using Value.at?_eq_none_of_not_admits hpath
      | sequence us => simpa using Value.at?_eq_none_of_not_admits hpath
      | mapping ds =>
        rw [Value.admits_mapping_cons_iff] at hpath
        push Not at hpath
        obtain ⟨w, hes, hpath⟩ := hpath
        simp only [overlay_mapping, Value.at?_mapping_cons,
          get?_overlayEntries hv.sorted.distinct, Option.mem_def.1 hes]
        cases get? k ds with
        | none => simpa using Value.at?_eq_none_of_not_admits hpath
        | some u => simpa using ih k u (hv.get? hes) hpath

/-- The keys of two mappings, one laid over the other. -/
theorem contains_overlayEntries {extra : Entries Value} (h : Distinct extra)
    (base : Entries Value) (k : String) :
    Entries.contains k (overlayEntries base extra) =
      (Entries.contains k base || Entries.contains k extra) := by
  simp only [Entries.contains, get?_overlayEntries h]
  cases get? k base <;> cases get? k extra <;> rfl

theorem isReplaced_eq_false_iff {key : String} :
    isReplaced key = false ↔ key ≠ "links" ∧ key ≠ "volumes_from" := by
  simp [isReplaced, replacedFields]

/-- Values of a field of which the later one, the last argument, is joined with the earlier one. -/
def Joins (field : String) (u v : Value) : Prop :=
  (u.isMapping = true ∧ v.isMapping = true) ∨
    (isReplaced field = false ∧ u.isSequence = true ∧ v.isSequence = true)

/-- A value that is not joined with the earlier one replaces it. -/
theorem overlay_of_not_joins {u v : Value} (h : ¬ Joins field u v) : overlay field u v = v := by
  obtain ⟨hm, hs⟩ := not_or.1 h
  cases v with
  | scalar s => simp
  | sequence vs =>
    cases u with
    | scalar s => simp
    | sequence us =>
      have hfield : isReplaced field = true := by simpa [Value.isSequence] using hs
      rw [overlay_sequence, if_pos hfield]
    | mapping ds => simp
  | mapping es =>
    cases u with
    | scalar s => simp
    | sequence us => simp
    | mapping ds => exact absurd ⟨rfl, rfl⟩ hm

end Overlay

/-! ### Services -/

/-- The value at a path of keys in the fields of a service. -/
def fieldAt? (service : RawService) (path : List String) : Option Value :=
  (Value.mapping service).at? path

/-- What `merged` has at a path that ends in `key`, told by what `base` and `incoming` have at the
same path. -/
structure LaidOver (base incoming merged : RawService) (path : List String) (key : String) :
    Prop where
  /-- Of two mappings the keys are united. -/
  united : ∀ {ds es}, fieldAt? base path = some (.mapping ds) →
    fieldAt? incoming path = some (.mapping es) →
      ∃ gs, fieldAt? merged path = some (.mapping gs) ∧
        ∀ k, Entries.contains k gs = (Entries.contains k ds || Entries.contains k es)
  /-- Of two sequences the later one is put behind the earlier one. -/
  joined : ∀ {us vs}, fieldAt? base path = some (.sequence us) →
    fieldAt? incoming path = some (.sequence vs) → key ≠ "links" → key ≠ "volumes_from" →
      fieldAt? merged path = some (.sequence (us ++ vs))
  /-- In every other case the later value stands. -/
  replaced : ∀ {v}, fieldAt? incoming path = some v →
    (∀ u, fieldAt? base path = some u →
      ¬ (u.isMapping = true ∧ v.isMapping = true) ∧
        (u.isSequence = true ∧ v.isSequence = true → key = "links" ∨ key = "volumes_from")) →
      fieldAt? merged path = some v
  /-- Where there is no later value, the earlier one stays if the later service lets the path
  through. -/
  kept : fieldAt? incoming path = none → (Value.mapping incoming).Admits path →
    fieldAt? merged path = fieldAt? base path
  /-- Where it does not let the path through, nothing stays. -/
  lost : fieldAt? incoming path = none → ¬ (Value.mapping incoming).Admits path →
    fieldAt? merged path = none
  /-- Nothing else appears. -/
  found : (fieldAt? merged path).isSome = true →
    (fieldAt? base path).isSome = true ∨ (fieldAt? incoming path).isSome = true
  /-- Nothing is lost where the later service lets the path through. -/
  survives : (fieldAt? base path).isSome = true → (Value.mapping incoming).Admits path →
    (fieldAt? merged path).isSome = true

section Services

variable (base : RawService) {incoming : RawService} {path : List String} {key : String}

theorem fieldAt?_overlayService (hincoming : (Value.mapping incoming).Canonical)
    (h : (Value.mapping incoming).Admits (path ++ [key])) :
    fieldAt? (overlayService base incoming) (path ++ [key]) =
      overlaySlot key (fieldAt? base (path ++ [key])) (fieldAt? incoming (path ++ [key])) := by
  -- The name of the whole service plays no part.
  have hat := at?_overlay "" (.mapping base) hincoming h
  rwa [overlay_mapping, List.getLastD_concat] at hat

theorem fieldAt?_overlayService_of_not_admits (hincoming : (Value.mapping incoming).Canonical)
    (h : ¬ (Value.mapping incoming).Admits path) :
    fieldAt? (overlayService base incoming) path = none := by
  have hat := at?_overlay_of_not_admits "" (.mapping base) hincoming h
  rwa [overlay_mapping] at hat

end Services

/-- **The overlay of two services, path by path.** Every field, and every part of a field, has a
path of keys. What the later service has at a path is joined with what the earlier one has there
when both are mappings, or sequences of a field that is not replaced; otherwise it stands as it is.
Where the later service has nothing, what the earlier one has stays, unless the later one has
something else than a mapping on the way. -/
theorem laidOver_overlayService (base : RawService) {incoming : RawService}
    (hincoming : (Value.mapping incoming).Canonical) (path : List String) (key : String) :
    LaidOver base incoming (overlayService base incoming) (path ++ [key]) key := by
  generalize hp : path ++ [key] = p
  by_cases hpath : (Value.mapping incoming).Admits p
  · have hm := fieldAt?_overlayService base hincoming (hp ▸ hpath)
    rw [hp] at hm
    constructor
    case united =>
      intro ds es hb hi
      refine ⟨overlayEntries ds es, by simp [hm, hb, hi], ?_⟩
      exact contains_overlayEntries (hincoming.at? hi).sorted.distinct ds
    case joined =>
      intro us vs hb hi hlinks hvolumes
      have hkey : isReplaced key = false := isReplaced_eq_false_iff.2 ⟨hlinks, hvolumes⟩
      simp [hm, hb, hi, overlay_sequence, hkey]
    case replaced =>
      intro v hi hb
      rw [hm, hi]
      cases hu : fieldAt? base p with
      | none => rfl
      | some u =>
        obtain ⟨hmap, hseq⟩ := hb u hu
        have hjoins : ¬ Joins key u v := by
          rintro (h | ⟨hkey, h⟩)
          · exact hmap h
          · exact (hseq h).elim (isReplaced_eq_false_iff.1 hkey).1 (isReplaced_eq_false_iff.1 hkey).2
        rw [overlaySlot_some, overlay_of_not_joins hjoins]
    case kept =>
      intro hi _
      rw [hm, hi, overlaySlot_none_right]
    case lost => exact fun _ h => absurd hpath h
    case found =>
      rw [hm]
      cases fieldAt? base p <;> cases fieldAt? incoming p <;> simp
    case survives =>
      rw [hm]
      cases fieldAt? base p <;> cases fieldAt? incoming p <;> simp
  · -- The path leads to nothing in the later service, so that all but one case is void.
    have hi : fieldAt? incoming p = none := Value.at?_eq_none_of_not_admits hpath
    have hm := fieldAt?_overlayService_of_not_admits base hincoming hpath
    constructor <;> simp_all

/-- The arguments of a build are united two keys deep. -/
theorem laidOver_build_args :
    let base : RawService := [("build", .mapping [("args", .mapping [("A", .string "1")])])]
    let incoming : RawService := [("build", .mapping [("args", .mapping [("B", .string "2")])])]
    (Value.mapping incoming).Canonical ∧
      LaidOver base incoming (overlayService base incoming) ["build", "args"] "args" ∧
        fieldAt? base ["build", "args"] = some (.mapping [("A", .string "1")]) ∧
          fieldAt? incoming ["build", "args"] = some (.mapping [("B", .string "2")]) ∧
            fieldAt? (overlayService base incoming) ["build", "args"] =
              some (.mapping [("A", .string "1"), ("B", .string "2")]) := by
  intro base incoming
  have hincoming : (Value.mapping incoming).Canonical := by
    simp [incoming, Value.string, Entries.Sorted]
  exact ⟨hincoming, laidOver_overlayService base hincoming ["build"] "args", rfl, rfl, rfl⟩

end ComposeMerge
