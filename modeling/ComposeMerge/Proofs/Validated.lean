import ComposeMerge.Proofs.AtomicLoad
import ComposeMerge.Proofs.Run

/-!
# Validated projects

Only the raw services of a manifest are validated, before they are merged with what is stored. What
has been validated holds of the stored services all the same: their names are service names, and
their restart policies are known.

* `Validation.validate_eq_ok_iff` says what is validated, and `Validation.validate_eq_error_iff`
  which fault is found;
* `restart_widened` and `restart_mergeOnto` follow a restart policy to the service that is stored;
* `ProjectState.Reached` are the states that manifests lead to, whether they fail or not;
* `ProjectState.Reached.valid` has every service in such a state valid, and
  `ProjectState.Reached.services_valid` says what this means.
-/

namespace ComposeMerge

open Entries (Sorted get?)

/-! ### What is validated -/

namespace Validation

variable {name : String} {service : RawService} {services : RawServices} {e : Error}

theorem serviceFault?_eq_none_iff :
    serviceFault? name service = none ↔ isServiceName name = true ∧
      ∀ c ∈ checks, ∀ v ∈ get? c.1 service, c.2 v = none := by
  unfold serviceFault?
  by_cases hname : isServiceName name = true
  · rw [if_pos hname, List.findSome?_eq_none_iff]
    simp only [Option.bind_eq_none_iff, hname, true_and]
    rfl
  · simp [hname]

theorem validateService_eq_ok_iff :
    validateService name service = .ok () ↔ serviceFault? name service = none := by
  unfold validateService
  cases serviceFault? name service <;> simp

/-- Services are valid when none of them has a fault. -/
theorem validate_eq_ok_iff :
    validate services = .ok () ↔ ∀ e ∈ services, serviceFault? e.1 e.2 = none := by
  induction services with
  | nil => simp [validate]
  | cons e services ih =>
    obtain ⟨name, service⟩ := e
    rw [validate, Outcome.bind_eq_ok_iff, List.forall_mem_cons, ← ih, ← validateService_eq_ok_iff]
    exact ⟨fun ⟨⟨⟩, hname, hrest⟩ => ⟨hname, hrest⟩, fun ⟨hname, hrest⟩ => ⟨(), hname, hrest⟩⟩

theorem validateService_eq_error_iff :
    validateService name service = .error e ↔
      ∃ fault, serviceFault? name service = some fault ∧ e = .service name fault := by
  unfold validateService
  cases serviceFault? name service <;> simp [eq_comm]

theorem validate_eq_mapM (services : RawServices) :
    validate services = (services.mapM fun e => validateService e.1 e.2).map fun _ => () := by
  induction services with
  | nil => rfl
  | cons e services ih =>
    rw [validate, List.mapM_cons, ih]
    cases validateService e.1 e.2 with
    | error e => rfl
    | ok _ => cases services.mapM fun e => validateService e.1 e.2 <;> rfl

/-- The first fault of the first service that has one is found. -/
theorem validate_eq_error_iff :
    validate services = .error e ↔ ∃ before name service after fault,
      services = before ++ (name, service) :: after ∧
        (∀ b ∈ before, serviceFault? b.1 b.2 = none) ∧
        serviceFault? name service = some fault ∧ e = .service name fault := by
  have hok : ∀ b : String × RawService, (∃ u, validateService b.1 b.2 = .ok u) ↔
      serviceFault? b.1 b.2 = none := fun b =>
    ⟨fun ⟨_, h⟩ => validateService_eq_ok_iff.1 h, fun h => ⟨(), validateService_eq_ok_iff.2 h⟩⟩
  simp only [validate_eq_mapM, Outcome.map_eq_error_iff, Outcome.mapM_eq_error_iff_append, hok,
    validateService_eq_error_iff, Prod.exists, exists_and_left]

/-- A policy that is not refused is read as none or as a restart policy. -/
theorem isRestartPolicy_of_read {v : Value} {policy : Option String}
    (h : restartFault v = none) (hread : Spelling.text v = .ok policy) :
    ∀ s ∈ policy, isRestartPolicy s = true := by
  unfold restartFault at h
  split at h
  · cases hread
    simp
  · cases hread
    decide
  · next s =>
    cases hread
    split at h
    · next hs => exact fun _ hpolicy => Option.some.inj hpolicy ▸ hs
    · cases h
  · cases h

/-- The policy of a service without faults is read as none or as a restart policy. -/
theorem isRestartPolicy_of_serviceFault? {policy : Option String}
    (h : serviceFault? name service = none)
    (hread : FieldKind.text.slot.read (get? ServiceField.restart.key service) = .ok policy) :
    ∀ s ∈ policy, isRestartPolicy s = true := by
  cases hget : get? ServiceField.restart.key service with
  | none =>
    rw [hget] at hread
    obtain rfl : none = policy := Except.ok.inj hread
    simp
  | some v =>
    rw [hget] at hread
    have hchecks := (serviceFault?_eq_none_iff.1 h).2
    exact isRestartPolicy_of_read (hchecks ("restart", restartFault) (by simp [checks]) v hget) hread

end Validation

/-! ### The way of a restart policy -/

namespace Merging

variable {schema : Schema} {name : String} {raw fields : RawService} {policy : Option String}
  {lookup : Option ResourceLookup} {file : Path} {x c : ServiceConfig}

/-- The policy of a widened service is that of the raw one. -/
theorem restart_widened (hraw : Sorted raw) (h : widened schema name raw = .ok fields)
    (hread : FieldKind.text.slot.read (get? ServiceField.restart.key fields) = .ok policy) :
    FieldKind.text.slot.read (get? ServiceField.restart.key raw) = .ok policy := by
  cases schema with
  | v1 =>
    obtain ⟨legacy, hlegacy, rfl⟩ := Outcome.map_eq_ok_iff.1 h
    rw [convert, Outcome.mapError_eq_ok_iff] at hlegacy
    obtain ⟨own, -, hlegacy⟩ := Outcome.bind_eq_ok_iff.1 hlegacy
    obtain ⟨shared, hshared, hlegacy⟩ := Outcome.bind_eq_ok_iff.1 hlegacy
    cases hlegacy
    -- No legacy setting goes to this field, so it is written as it was read.
    rw [ServiceConfig.get?_toRaw] at hread
    obtain rfl : shared.restart = policy :=
      Except.ok.inj ((isScalar_text.sound.read_write _).symm.trans hread)
    have hget : get? ServiceField.restart.key (LegacyService.sharedFields raw) =
        get? ServiceField.restart.key raw :=
      Entries.get?_filter (fun key => !LegacyService.ownKeys.contains key) _ raw
    rw [← hget]
    exact (ServiceConfig.putFields_eq_ok_iff .chosen (hraw.filter _)).1 hshared .restart
  | v2 =>
    cases h
    exact hread
  | v3 =>
    cases h
    exact hread

/-- A merge keeps the stored policy, or takes that of the fields. -/
theorem restart_mergeOnto (hfields : Sorted fields)
    (h : mergeOnto x lookup file name fields = .ok c) :
    c.restart = x.restart ∨
      FieldKind.text.slot.read (get? ServiceField.restart.key fields) = .ok c.restart := by
  have hread := get_mergeOnto hfields h (f := .restart) (by decide)
  cases hget : get? ServiceField.restart.key fields with
  | none =>
    rw [hget, overlaySlot_none_right] at hread
    exact .inl (Except.ok.inj (hread.symm.trans (isScalar_text.sound.read_write x.restart)))
  | some v =>
    have hlay : overlaySlot ServiceField.restart.key
        (ServiceField.restart.kind.slot.write (x.get .restart)) (some v) = some v :=
      isScalar_text.overlay_write x.restart v
    rw [hget, hlay] at hread
    exact .inr hread

end Merging

/-! ### Reached states -/

/-- A service that a validated project may hold. -/
structure ServiceConfig.Valid (name : String) (c : ServiceConfig) : Prop where
  name : Validation.isServiceName name = true
  restart : ∀ policy ∈ c.restart, Validation.isRestartPolicy policy = true ∧ policy ≠ "false"

/-- Services are validated; a hook may change them before that. -/
structure Options.Validating (options : Options) : Prop extends options.HookBefore where
  validate : options.validate = true

/-- The states that manifests lead to from the empty one, under options that may change. A manifest
that fails leads nowhere else. -/
inductive ProjectState.Reached : ProjectState → Prop where
  | empty : Reached .empty
  | attempt {p : Project} (file : Path) (content : Bytes) (hp : Reached p.state)
      (hoptions : p.options.Validating) : Reached (p.addAll [(file, .ok content)]).1.state

open Merging Validation

/-- What is defined for a service has been validated. -/
theorem serviceFault?_of_definition {env : Environment} {options : Options} {s : String}
    {content : Except Error Bytes} {fields : RawService} (hoptions : options.Validating)
    (h : definition env options s content = .ok (some fields)) :
    ∃ schema raw, (Value.mapping raw).Canonical ∧ serviceFault? s raw = none ∧
      widened schema s raw = .ok fields := by
  obtain ⟨m, schema, raw, hcanonical, hcheck, hraw, hwidened⟩ :=
    exists_of_definition hoptions.preprocess h
  rw [check, if_pos hoptions.validate, validate_eq_ok_iff] at hcheck
  exact ⟨schema, raw, hcanonical.fields hraw, hcheck (s, raw) (Entries.mem_of_get? hraw), hwidened⟩

/-- A service without faults is valid after it has been merged onto known policies. -/
theorem valid_mergeOnto {x c : ServiceConfig} {lookup : Option ResourceLookup} {file : Path}
    {schema : Schema} {s : String} {raw fields : RawService}
    (hx : ∀ policy ∈ x.restart, isRestartPolicy policy = true)
    (hraw : (Value.mapping raw).Canonical) (hfault : serviceFault? s raw = none)
    (hwidened : widened schema s raw = .ok fields)
    (hc : mergeOnto x lookup file s fields = .ok c) : (adjustService c).Valid s := by
  have hmerged : ∀ policy ∈ c.restart, isRestartPolicy policy = true := by
    rcases restart_mergeOnto (canonical_widened hraw hwidened).sorted hc with hkept | hread
    · rw [hkept]
      exact hx
    · exact isRestartPolicy_of_serviceFault? hfault (restart_widened hraw.sorted hwidened hread)
  refine ⟨(serviceFault?_eq_none_iff.1 hfault).1, fun policy hpolicy => ?_⟩
  rw [restart_adjustService, adjustPolicy] at hpolicy
  split at hpolicy
  · cases hpolicy
    decide
  · next hfalse => exact ⟨hmerged policy hpolicy, fun h => hfalse (h ▸ hpolicy)⟩

/-- Adding a manifest keeps all services valid. -/
theorem valid_add {p q : Project} {path : Path} {content : Except Error Bytes}
    (hoptions : p.options.Validating)
    (hp : ∀ {s c}, p.state.services.get? s = some c → c.Valid s)
    (h : content.bind (p.add path) = .ok q) {s : String} {c : ServiceConfig}
    (hc : q.state.services.get? s = some c) : c.Valid s := by
  obtain ⟨-, ⟨-, hsame⟩ | ⟨fields, c', hdefinition, -, hmerge, hget⟩⟩ :=
    Project.add_service hoptions.toHookBefore h s
  · exact hp (hsame ▸ hc)
  · rw [hget] at hc
    cases hc
    obtain ⟨schema, raw, hraw, hfault, hwidened⟩ := serviceFault?_of_definition hoptions hdefinition
    refine valid_mergeOnto (fun policy hpolicy => ?_) hraw hfault hwidened hmerge
    cases hx : p.state.services.get? s with
    | none =>
      rw [hx] at hpolicy
      cases hpolicy
    | some x =>
      rw [hx] at hpolicy
      exact ((hp hx).restart policy hpolicy).1

namespace ProjectState.Reached

variable {state : ProjectState} {s : String} {c : ServiceConfig}

/-- All services of a reached state are valid. -/
theorem valid (h : Reached state) (hc : state.services.get? s = some c) : c.Valid s := by
  induction h generalizing s c with
  | empty => cases hc
  | @attempt p file content hp hoptions ih =>
    cases hadd : (Except.ok content).bind (p.add file) with
    | error e =>
      rw [Project.addAll_cons_of_error hadd] at hc
      exact ih hc
    | ok q =>
      rw [Project.addAll_cons_of_ok hadd] at hc
      exact valid_add hoptions ih hadd hc

/-- A run leads from a reached state to a reached state, wherever it stops. -/
theorem addAll {p : Project} (hp : Reached p.state) (hoptions : p.options.Validating)
    (sources : List (Path × Except Error Bytes)) : Reached (p.addAll sources).1.state := by
  induction sources generalizing p with
  | nil => exact hp
  | cons source sources ih =>
    obtain ⟨path, content⟩ := source
    cases hadd : content.bind (p.add path) with
    | error e =>
      rw [Project.addAll_cons_of_error hadd]
      exact hp
    | ok q =>
      obtain ⟨bytes, rfl, hq⟩ := Outcome.bind_eq_ok_iff.1 hadd
      have hattempt := hp.attempt path bytes hoptions
      rw [Project.addAll_cons_of_ok hadd] at hattempt ⊢
      obtain ⟨merged, -, rfl⟩ := Project.add_eq_ok_iff.1 hq
      exact ih hattempt hoptions

/-- **Stored services are valid.** In every state that manifests lead to while they are validated,
all names of services are made of ASCII letters, digits, `.`, `_` and `-`, and all restart policies
are known; none is the text of the boolean. -/
theorem services_valid (h : Reached state) (hc : state.services.get? s = some c) :
    (s ≠ "" ∧ ∀ ch ∈ s.toList, ch.isAlphanum = true ∨ ch = '.' ∨ ch = '_' ∨ ch = '-') ∧
    (∀ policy ∈ c.restart, policy ∈ ["no", "always", "unless-stopped", "on-failure"] ∨
      ∃ count, policy = "on-failure:" ++ count ∧
        (Text.natural? (2 ^ 32) count.toList).isSome = true) ∧
    c.restart ≠ some "false" := by
  obtain ⟨hname, hrestart⟩ := h.valid hc
  refine ⟨?_, fun policy hpolicy => ?_, fun hfalse => (hrestart _ hfalse).2 rfl⟩
  · simpa [isServiceName, isNameChar, or_assoc, String.isEmpty_iff] using hname
  · obtain ⟨hknown, hne⟩ := hrestart policy hpolicy
    simp only [isRestartPolicy, hne, decide_false, Bool.false_or, Bool.or_eq_true,
      List.contains_iff_mem, Option.any_eq_true] at hknown
    refine hknown.imp id ?_
    rintro ⟨count, hcount, hnatural⟩
    rw [Text.dropStart?_eq_some_iff] at hcount
    refine ⟨String.ofList count, String.toList_inj.1 ?_, ?_⟩
    · simpa using hcount
    · simpa [isRetryCount] using hnatural

end ProjectState.Reached

/-- A hook that turns off the restarts of all services. -/
def withoutRestarts (services : RawServices) : Except Error RawServices :=
  .ok (services.mapValues (Entries.insert "restart" (.scalar (.bool false))))

theorem keepsMaps_withoutRestarts : KeepsMaps (some withoutRestarts) := by
  rintro _ ⟨⟩ services result hservices hresult
  cases hresult
  refine ⟨hservices.sorted.mapValues _, fun {name fields} hfields => ?_⟩
  rw [Entries.get?_mapValues] at hfields
  obtain ⟨fields', hfields', rfl⟩ := Option.map_eq_some_iff.1 hfields
  exact canonical_insert (hservices.fields hfields') _ (by simp)

/-- A project with this hook, after a manifest that is refused and one that is not. -/
def restartless : Project :=
  let start := { Project.bare with
    options := { Options.standard with preprocess := some withoutRestarts } }
  let refused := (start.addAll [("one.yml", .ok "a b: {image: app}\n".toUTF8.toList)]).1
  (refused.addAll [("two.yml", .ok "web: {image: app, restart: sometimes}\n".toUTF8.toList)]).1

/-- What the hook gives is not what is stored. -/
theorem restart_of_restartless : ∃ c, restartless.state.services.get? "web" = some c ∧
    c.restart = some "no" ∧ c.restart ≠ some "false" := by
  have hoptions : Options.Validating { Options.standard with preprocess := some withoutRestarts } :=
    ⟨⟨keepsMaps_withoutRestarts, rfl⟩, rfl⟩
  have hreached : ProjectState.Reached restartless.state :=
    .attempt _ _ (.attempt _ _ .empty hoptions) (by rw [Project.fst_addAll]; exact hoptions)
  have hweb : (restartless.state.services.get? "web").map ServiceConfig.restart =
      some (some "no") := by decide +kernel
  obtain ⟨c, hc, hno⟩ := Option.map_eq_some_iff.1 hweb
  exact ⟨c, hc, hno, (hreached.services_valid hc).2.2⟩

end ComposeMerge
