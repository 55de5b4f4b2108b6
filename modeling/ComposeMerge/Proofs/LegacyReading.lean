import ComposeMerge.Proofs.Widening

/-!
# Reading a service as a legacy one

A legacy service shares its fields with later versions, but they are read after a choice between
spellings has been made. Of what the direct reader takes, this takes everything but one value.

* `FieldKind.read_chosen_of_direct`: what a field's direct reader takes is read in the same way
  after a choice, unless it is null for the limits;
* `ServiceConfig.putFields_chosen` and `ServiceConfig.putFields_chosen_eq_error`: the same of all
  fields of a service, with the mismatch where the limits are null;
* `legacy_reading_agrees` and `null_limits_refused` put this together for a body without fields of
  the legacy form.
-/

namespace ComposeMerge

open Entries (Sorted get?)
open Merging

/-! ### One field -/

/-- What is read as the value of a setting is read in the same way after a choice between
spellings; only null is no mapping of limits any more. -/
theorem FieldKind.read_chosen_of_direct (k : FieldKind) {v : Value} {a : k.Setting}
    (h : k.read .direct v = .ok a) (hnull : k = .ulimits → v ≠ .null) :
    k.read .chosen v = .ok a := by
  -- After a choice a sequence stands for the fields of a record, but no sequence is read directly.
  cases k with
  | inheritance | logging =>
    cases v with
    | scalar x => cases x <;> exact h
    | mapping es => exact h
    | sequence vs => cases h
  | ulimits =>
    cases v with
    | scalar x =>
      cases x with
      | null => exact absurd rfl (hnull rfl)
      | _ => cases h
    | mapping es => exact h
    | sequence vs => cases h
  | _ => exact h

theorem ServiceField.eq_ulimits_of_kind {f : ServiceField} (h : f.kind = .ulimits) :
    f = .ulimits := by
  cases f <;> first | rfl | cases h

/-! ### All fields of a service -/

namespace ServiceConfig

variable {c d : ServiceConfig} {fields : RawService}

theorem putField_chosen {name : String} {v : Value}
    (h : c.putField .direct name v = .ok d)
    (hnull : name = ServiceField.ulimits.key → v ≠ .null) :
    c.putField .chosen name v = .ok d := by
  unfold putField at h ⊢
  cases hf : ServiceField.ofKey? name with
  | none =>
    rw [hf] at h
    exact h
  | some f =>
    rw [hf] at h
    obtain ⟨a, ha, rfl⟩ := Outcome.map_eq_ok_iff.1 h
    have hread : f.kind.read .chosen v = .ok a := by
      refine f.kind.read_chosen_of_direct ha fun hkind => hnull ?_
      rw [← ServiceField.key_of_ofKey? hf, ServiceField.eq_ulimits_of_kind hkind]
    exact Outcome.map_eq_ok_iff.2 ⟨a, hread, rfl⟩

theorem putField_chosen_null (c : ServiceConfig) :
    c.putField .chosen ServiceField.ulimits.key .null = .error (.wrongType .nothing .mapping) := by
  rw [putField, ServiceField.ofKey?_key]
  rfl

/-- Fields that are read directly are read in the same way after a choice between spellings. -/
theorem putFields_chosen (h : putFields .direct c fields = .ok d)
    (hnull : (ServiceField.ulimits.key, Value.null) ∉ fields) :
    putFields .chosen c fields = .ok d := by
  induction fields generalizing c with
  | nil => exact h
  | cons e fields ih =>
    obtain ⟨c', hput, h⟩ := Outcome.bind_eq_ok_iff.1 h
    rw [List.mem_cons, not_or] at hnull
    have hhead : c.putField .chosen e.1 e.2 = .ok c' :=
      putField_chosen hput fun hname hv => hnull.1 (Prod.ext hname.symm hv.symm)
    rw [putFields, hhead, Outcome.bind_ok]
    exact ih h hnull.2

/-- Null limits are the one thing that is wrong with fields that are read directly. -/
theorem putFields_chosen_eq_error (h : putFields .direct c fields = .ok d)
    (hnull : (ServiceField.ulimits.key, Value.null) ∈ fields) :
    putFields .chosen c fields = .error (.wrongType .nothing .mapping) := by
  induction fields generalizing c with
  | nil => cases hnull
  | cons e fields ih =>
    obtain ⟨c', hput, h⟩ := Outcome.bind_eq_ok_iff.1 h
    by_cases he : e = (ServiceField.ulimits.key, Value.null)
    · subst he
      rw [putFields, putField_chosen_null]
      rfl
    · have hhead : c.putField .chosen e.1 e.2 = .ok c' :=
        putField_chosen hput fun hname hv => he (Prod.ext hname hv)
      rw [putFields, hhead, Outcome.bind_ok]
      exact ih h ((List.mem_cons.1 hnull).resolve_left fun hmem => he hmem.symm)

end ServiceConfig

/-! ### A body without legacy fields -/

/-- A body without fields of the legacy form that is a service is the same service when it is read
as a legacy one and widened, unless its limits are null: then it is no legacy service. -/
theorem legacy_reading_agrees {fields : RawService} {c : ServiceConfig} (name : String)
    (hsorted : Sorted fields)
    (hown : ∀ key ∈ LegacyService.ownKeys, get? key fields = none)
    (hread : convert name (ServiceConfig.read fields) = .ok c) :
    ((convert name (LegacyService.read fields)).map LegacyService.widen = .ok c ↔
        get? ServiceField.ulimits.key fields ≠ some .null) ∧
      (get? ServiceField.ulimits.key fields = some .null →
        convert name (LegacyService.read fields) =
          .error (.conversion name (.wrongType .nothing .mapping))) := by
  have hdirect : ServiceConfig.putFields .direct .empty fields = .ok c :=
    Outcome.mapError_eq_ok_iff.1 hread
  have hlegacy := LegacyService.read_of_shared hsorted hown
  have hmem : get? ServiceField.ulimits.key fields = some .null ↔
      (ServiceField.ulimits.key, Value.null) ∈ fields :=
    Entries.get?_eq_some_iff hsorted.distinct
  have hrefused : get? ServiceField.ulimits.key fields = some .null →
      convert name (LegacyService.read fields) =
        .error (.conversion name (.wrongType .nothing .mapping)) := by
    intro hnull
    rw [hlegacy, ServiceConfig.putFields_chosen_eq_error hdirect (hmem.1 hnull)]
    rfl
  refine ⟨⟨fun h hnull => ?_, fun hnull => ?_⟩, hrefused⟩
  · rw [hrefused hnull] at h
    cases h
  · rw [hlegacy, ServiceConfig.putFields_chosen hdirect fun h => hnull (hmem.2 h)]
    exact congrArg Except.ok (LegacyService.widen_shared c)

/-- A logging driver and a limit are the same in both forms. -/
theorem legacy_reading_of_logging_and_limit :
    ∃ fields : RawService, ∃ c : ServiceConfig,
      fields = [("logging", .mapping [("driver", .string "syslog")]),
        ("ulimits", .mapping [("nproc", .scalar (.int 8))])] ∧
      convert "web" (ServiceConfig.read fields) = .ok c ∧
      c.get .logging = some ⟨some "syslog", .empty⟩ ∧
      (c.get .ulimits).get? "nproc" = some ⟨8, 8⟩ ∧
      (convert "web" (LegacyService.read fields)).map LegacyService.widen = .ok c := by
  refine ⟨_, (ServiceConfig.empty.set .logging (some ⟨some "syslog", .empty⟩)).set .ulimits
    (.ofList [("nproc", ⟨8, 8⟩)]), rfl, by decide +kernel, rfl, by decide +kernel, ?_⟩
  refine (legacy_reading_agrees "web" ?_ (by decide) (by decide +kernel)).1.2 fun h => ?_
  · exact List.pairwise_pair.2 (show "logging" < "ulimits" by decide)
  · cases h

/-- Null limits are no limits in the later form, and refused in the legacy one. -/
theorem null_limits_refused :
    ∃ fields : RawService, ∃ c : ServiceConfig,
      fields = [("ulimits", .null)] ∧ (∀ key ∈ LegacyService.ownKeys, get? key fields = none) ∧
      convert "web" (ServiceConfig.read fields) = .ok c ∧ c = .empty ∧
      convert "web" (LegacyService.read fields) =
        .error (.conversion "web" (.wrongType .nothing .mapping)) :=
  ⟨_, ServiceConfig.empty.set .ulimits .empty, rfl, by decide, by decide +kernel,
    by decide +kernel, by decide +kernel⟩

end ComposeMerge
