import ComposeMerge.Proofs.Merge
import ComposeMerge.Proofs.Survival

/-!
# Manifests of version 1 and of version 2

A legacy service is typed and written again before it is merged, while a service of version 2 is
merged as it stands. For the fields that both versions have, the two ways agree just where the
value survives being typed. Over a stored value, a flag that is off does not, nor does null, nor a
text that stands for a list.

* `FieldKind.decided_slot`: for fields of every kind, `survives` decides whether a value means the
  same in both ways;
* `ServiceField.survives` says this of the value of a field;
* `mergeServices_schemas_agree_iff` puts it together for a service.
-/

namespace ComposeMerge

open Entries (Sorted get?)
open Merging

/-! ### The kinds of fields -/

theorem decided_labels (key : String) : labelsSlot.Decided key := by
  refine isMapping_labels.decided assembled_labels Function.injective_id ?_
  rintro _ ⟨name, rfl⟩
  exact isScalar_labelEntry.decided

theorem decided_build (key : String) : FieldKind.build.slot.Decided key := by
  refine isMapping_build.decided buildLaws.assembled (Option.some_injective _) ?_
  rw [forall_part_iff]
  simp only [buildComponents, List.forall_mem_cons]
  exact ⟨isScalar_string.decided, isScalar_string.decided, decided_labels _, by simp⟩

theorem decided_inheritance (key : String) : FieldKind.inheritance.slot.Decided key :=
  (isMapping_inheritance .direct).decided assembled_extends (Option.some_injective _)
    (forall_extendsParts_iff.2 ⟨isScalar_serviceSlot.decided, isScalar_string.decided⟩)

theorem decided_logging (key : String) : FieldKind.logging.slot.Decided key := by
  refine (isMapping_logging .direct).decided loggingLaws.assembled (Option.some_injective _) ?_
  rw [forall_part_iff]
  simp only [loggingComponents, List.forall_mem_cons]
  exact ⟨isScalar_string.decided, decided_labels _, by simp⟩

theorem decided_networkEntry (key : String) : networkEntry.Decided key := by
  refine isMapping_networkEntry.decided networkLaws.assembled (Option.some_injective _) ?_
  rw [forall_part_iff]
  simp only [networkComponents, List.forall_mem_cons]
  exact ⟨isList_aliases.decided, isScalar_string.decided, isScalar_string.decided, by simp⟩

theorem decided_networks (key : String) : FieldKind.networks.slot.Decided key := by
  refine isMapping_networks.decided assembled_networks Function.injective_id ?_
  rintro _ ⟨name, rfl⟩
  exact decided_networkEntry name

theorem decided_ulimitEntry (key : String) : ulimitEntry.Decided key :=
  isMapping_ulimitEntry.decided assembled_ulimit (Option.some_injective _)
    (forall_ulimitParts_iff.2 ⟨isScalar_limitSlot.decided, isScalar_limitSlot.decided⟩)

theorem decided_ulimits (key : String) : FieldKind.ulimits.slot.Decided key := by
  refine (isMapping_ulimits .direct).decided assembled_ulimits Function.injective_id ?_
  rintro _ ⟨name, rfl⟩
  exact decided_ulimitEntry name

/-- Whatever the kind of a field, what survives means the same, whether it is typed before it is
merged or not, and nothing else does. -/
theorem FieldKind.decided_slot (k : FieldKind) (key : String) : k.slot.Decided key := by
  cases k with
  | text => exact isScalar_text.decided
  | count => exact (isScalar_number _).decided
  | size => exact (isScalar_number _).decided
  | flag => exact isScalar_flag.decided
  | list => exact isList_list.decided
  | command => exact isList_command.decided
  | pairs => exact isList_pairs.decided
  | labels => exact decided_labels key
  | dependencies => exact isList_dependencies.decided
  | build => exact decided_build key
  | inheritance => exact decided_inheritance key
  | logging => exact decided_logging key
  | networks => exact decided_networks key
  | ulimits => exact decided_ulimits key

/-- A value that is read after a choice between spellings is read in the same way without it, once
it has been laid over what is stored. -/
theorem FieldKind.read_direct_of_chosen (k : FieldKind) {key : String} {a b c : k.Setting}
    {v : Value} (hb : k.read .chosen v = .ok b)
    (hc : k.slot.read (overlaySlot key (k.slot.write a) (some v)) = .ok c) :
    k.slot.read (some v) = .ok b := by
  -- After a choice, a sequence stands for the fields of a record; on its own it cannot be read.
  cases k with
  | inheritance =>
    have hs : FieldKind.inheritance.slot.IsMapping some _ _ := isMapping_inheritance .direct
    cases v with
    | scalar x => cases x <;> exact hb
    | mapping es => exact hb
    | sequence vs =>
      rw [hs.overlay_of_ne_mapping a (by simp)] at hc
      cases hc
  | logging =>
    have hs : FieldKind.logging.slot.IsMapping some _ _ := isMapping_logging .direct
    cases v with
    | scalar x => cases x <;> exact hb
    | mapping es => exact hb
    | sequence vs =>
      rw [hs.overlay_of_ne_mapping a (by simp)] at hc
      cases hc
  | ulimits =>
    cases v with
    | scalar x => cases x <;> cases hb
    | mapping es => exact hb
    | sequence vs => cases hb
  | _ => exact hb

/-! ### Services without fields of their own version -/

namespace LegacyService

/-- Without a field of its own, a legacy service is a service. -/
theorem read_of_shared {fields : RawService} (hsorted : Sorted fields)
    (hown : ∀ key ∈ ownKeys, get? key fields = none) :
    read fields = (ServiceConfig.putFields .chosen .empty fields).map
      fun c => { empty with shared := c } := by
  have habsent : ∀ e ∈ fields, e.1 ∉ ownKeys := by
    intro e he hkey
    have hget := hown e.1 hkey
    rw [(Entries.get?_eq_some_iff hsorted.distinct).2 he] at hget
    cases hget
  have hread : ownShape.ofMapping fields = .ok empty :=
    (RecordShape.ofMapping_plain ..).trans (RecordShape.putEntries_of_absent habsent empty)
  have hshared : sharedFields fields = fields := by
    refine List.filter_eq_self.2 fun e he => ?_
    simpa using habsent e he
  rw [read, hread, Outcome.bind_ok, hshared]
  cases ServiceConfig.putFields .chosen .empty fields <;> rfl

theorem widen_shared (c : ServiceConfig) : { empty with shared := c }.widen = c := by
  show ((c.set .build (c.get .build)).set .logging (c.get .logging)).set .networkMode
    (c.get .networkMode) = c
  rw [c.set_get, c.set_get, c.set_get]

end LegacyService

/-- Whether the value of a field in raw fields survives being typed, over a stored service; `typed`
is the service that the fields are typed as. -/
def ServiceField.survives (f : ServiceField) (stored typed : ServiceConfig)
    (fields : RawService) : Bool :=
  slotSurvives f.key (get? f.key stored.toRaw) (get? f.key typed.toRaw) (get? f.key fields)

/-- A field of raw fields, laid over a stored service as it stands and as `typed`, which the fields
are typed as. -/
theorem ServiceField.agree_iff_survives {f : ServiceField} {stored typed c₁ c₂ : ServiceConfig}
    {fields : RawService} (hfields : (Value.mapping fields).Canonical)
    (htyped : (get? f.key fields).elim (.ok f.kind.unset) (f.kind.read .chosen) =
      .ok (typed.get f))
    (h₁ : f.kind.slot.read (overlaySlot f.key (f.kind.slot.write (stored.get f))
      (get? f.key typed.toRaw)) = .ok (c₁.get f))
    (h₂ : f.kind.slot.read (overlaySlot f.key (f.kind.slot.write (stored.get f))
      (get? f.key fields)) = .ok (c₂.get f)) :
    c₁.get f = c₂.get f ↔ f.survives stored typed fields = true := by
  have hdirect : f.kind.slot.read (get? f.key fields) = .ok (typed.get f) := by
    cases hget : get? f.key fields with
    | none =>
      rw [hget] at htyped
      exact htyped
    | some v =>
      rw [hget] at htyped h₂
      exact f.kind.read_direct_of_chosen htyped h₂
  rw [typed.get?_toRaw f] at h₁
  rw [survives, stored.get?_toRaw f, typed.get?_toRaw f, eq_comm]
  exact (f.kind.decided_slot f.key).lays (fun _ hw => hfields.get? hw) hdirect h₂ h₁

/-- Where a service has none of the fields that only one version has, the two schemas agree in
just the fields whose values survive being typed. -/
theorem mergeServices_schemas_agree_iff {existing : Services} {lookup : Option ResourceLookup}
    {file : Path} {m : Manifest} {name : String} {fields : RawService} {c₁ c₂ : ServiceConfig}
    (hm : m.services = [(name, fields)]) (hfields : (Value.mapping fields).Canonical)
    (hown : ∀ key ∈ LegacyService.ownKeys, get? key fields = none)
    (hfiles : get? EnvFile.filesField fields = none)
    (hexisting : ((existing.get? name).getD .empty).get .envFile = [])
    (h₁ : mergeServices existing lookup file .v1 m = .ok [(name, c₁)])
    (h₂ : mergeServices existing lookup file .v2 m = .ok [(name, c₂)]) :
    ∃ legacy, LegacyService.read fields = .ok legacy ∧
      (∀ f : ServiceField, c₁.get f = c₂.get f ↔
        f.survives ((existing.get? name).getD .empty) legacy.widen fields = true) ∧
      (c₁ = c₂ ↔ ∀ f : ServiceField,
        f.survives ((existing.get? name).getD .empty) legacy.widen fields = true) := by
  simp only [mergeServices, hm, Entries.traverse_singleton, Outcome.map_eq_ok_iff] at h₁ h₂
  obtain ⟨_, h₁, hc₁⟩ := h₁
  obtain ⟨_, h₂, hc₂⟩ := h₂
  cases hc₁
  cases hc₂
  obtain ⟨widened, hwidened, h₁⟩ := Outcome.bind_eq_ok_iff.1 h₁
  obtain ⟨legacy, hlegacy, rfl⟩ := Outcome.map_eq_ok_iff.1 hwidened
  rw [convert, Outcome.mapError_eq_ok_iff] at hlegacy
  refine ⟨legacy, hlegacy, ?_⟩
  rw [LegacyService.read_of_shared hfields.sorted hown] at hlegacy
  obtain ⟨b, hb, rfl⟩ := Outcome.map_eq_ok_iff.1 hlegacy
  rw [LegacyService.widen_shared] at h₁ ⊢
  rw [mergeService_eq_mergeOnto _ _ _ _ b.canonical_toRaw.sorted] at h₁
  rw [mergeService_eq_mergeOnto _ _ _ _ hfields.sorted] at h₂
  -- `b` is the typed service: one way lays `fields` over what is stored, the other what `b` is
  -- written as.
  have hread := (ServiceConfig.putFields_eq_ok_iff .chosen hfields.sorted).1 hb
  have hbfiles : get? EnvFile.filesField b.toRaw = none := by
    have henv := hread .envFile
    rw [show get? ServiceField.envFile.key fields = none from hfiles] at henv
    have hraw := b.get?_toRaw .envFile
    rw [← Except.ok.inj henv] at hraw
    exact hraw
  rw [mergeOnto_eq_ok_iff b.canonical_toRaw.sorted hexisting hbfiles] at h₁
  rw [mergeOnto_eq_ok_iff hfields.sorted hexisting hfiles] at h₂
  have hagree : ∀ f : ServiceField, c₁.get f = c₂.get f ↔
      f.survives ((existing.get? name).getD .empty) b fields = true :=
    fun f => ServiceField.agree_iff_survives hfields (hread f) (h₁ f) (h₂ f)
  refine ⟨hagree, fun h f => (hagree f).1 (by rw [h]), fun h => ?_⟩
  exact ServiceConfig.ext fun f => (hagree f).2 (h f)

/-- A service with all privileges. -/
def privilegedWeb : ServiceConfig := (ServiceConfig.empty.set .ports ["80"]).set .privileged true

/-- Raw fields that take the privileges away. -/
def unprivilegedFields : RawService :=
  [("image", .string "app"), ("ports", .sequence [.scalar (.int 443)]),
    ("privileged", .scalar (.bool false))]

/-- Over a stored service, a text and a list of numbers survive, but not a flag that is off. -/
theorem schemas_differ_in_privileged :
    ∃ c₁ c₂ : ServiceConfig,
      mergeServices (.ofList [("web", privilegedWeb)]) none "two.yml" .v1
        ⟨"", [("web", unprivilegedFields)], [], []⟩ = .ok [("web", c₁)] ∧
      mergeServices (.ofList [("web", privilegedWeb)]) none "two.yml" .v2
        ⟨"", [("web", unprivilegedFields)], [], []⟩ = .ok [("web", c₂)] ∧
      ∀ f : ServiceField, c₁.get f = c₂.get f ↔ f ≠ .privileged := by
  have h₁ : mergeServices (.ofList [("web", privilegedWeb)]) none "two.yml" .v1
      ⟨"", [("web", unprivilegedFields)], [], []⟩ = .ok [("web", ((ServiceConfig.empty.set
        .image (some "app")).set .ports ["80", "443"]).set .privileged true)] := by
    decide +kernel
  have h₂ : mergeServices (.ofList [("web", privilegedWeb)]) none "two.yml" .v2
      ⟨"", [("web", unprivilegedFields)], [], []⟩ = .ok [("web", ((ServiceConfig.empty.set
        .image (some "app")).set .ports ["80", "443"]).set .privileged false)] := by
    decide +kernel
  have hfields : (Value.mapping unprivilegedFields).Canonical :=
    Value.canonical_mapping_iff.2
      ⟨by show List.Pairwise _ _; decide, by simp [unprivilegedFields, Value.string]⟩
  refine ⟨_, _, h₁, h₂, fun f => ?_⟩
  obtain ⟨legacy, hlegacy, hagree, -⟩ := mergeServices_schemas_agree_iff (by rfl) hfields
    (by decide) rfl rfl h₁ h₂
  cases hlegacy
  rw [hagree f]
  exact of_decide_eq_true (List.all_eq_true.1 (by decide +kernel : ServiceField.all.all (fun f =>
    decide (f.survives privilegedWeb _ unprivilegedFields = true ↔ f ≠ .privileged)) = true)
    f f.mem_all)

/-- A flag that is off is not written, so that a manifest of version 1 leaves an earlier flag on. -/
theorem flag_kept_by_legacy_schema :
    ∃ existing : Services, ∃ fields : RawService, ∃ c₁ c₂ : ServiceConfig,
      existing = .ofList [("web", ServiceConfig.empty.set .privileged true)] ∧
      fields = [("privileged", .scalar (.bool false))] ∧
      mergeServices existing none "two.yml" .v1 ⟨"", [("web", fields)], [], []⟩ =
        .ok [("web", c₁)] ∧
      mergeServices existing none "two.yml" .v2 ⟨"2", [("web", fields)], [], []⟩ =
        .ok [("web", c₂)] ∧
      c₁.get .privileged = true ∧ c₂.get .privileged = false ∧ c₁ ≠ c₂ :=
  ⟨_, _, ServiceConfig.empty.set .privileged true, ServiceConfig.empty.set .privileged false,
    rfl, rfl, by decide +kernel, by decide +kernel, rfl, rfl, by decide +kernel⟩

end ComposeMerge
