import ComposeMerge.Merging
import ComposeMerge.Proofs.Service

/-!
# Merging one service

What becomes of a definition when the fields of a manifest are laid over it.

* `mergeOnto` merges fields onto a definition, and `mergeService_eq_mergeOnto` onto the one that
  is stored;
* `get_mergeOnto` says what becomes of each field, and `mergeOnto_eq_ok_iff` when merging succeeds
  without environment files;
* `get_adjustService_of_ne` and `restart_adjustService` say the same of the final adjustment.
-/

namespace ComposeMerge

open Entries (Sorted get?)

/-! ### Environment files -/

theorem resolveEnvFiles_of_absent {service : RawService}
    (h : get? EnvFile.filesField service = none) (lookup : Option ResourceLookup) (file : Path) :
    resolveEnvFiles lookup file service = .ok service := by
  unfold resolveEnvFiles
  rw [h]

/-- Reading environment files changes nothing, or sets the environment. -/
theorem resolveEnvFiles_cases {lookup : Option ResourceLookup} {file : Path}
    {service result : RawService} (h : resolveEnvFiles lookup file service = .ok result) :
    result = service ∨
      ∃ entries, result = service.insert EnvFile.environmentField (.strings entries) := by
  unfold resolveEnvFiles at h
  split at h
  · cases h
    exact .inl rfl
  · obtain ⟨references, -, h⟩ := Outcome.bind_eq_ok_iff.1 h
    split at h
    · cases h
      exact .inl rfl
    · split at h
      · cases h
      · obtain ⟨own, -, h⟩ := Outcome.bind_eq_ok_iff.1 h
        obtain ⟨entries, -, h⟩ := Outcome.bind_eq_ok_iff.1 h
        cases h
        exact .inr ⟨entries, rfl⟩

theorem get?_resolveEnvFiles {lookup : Option ResourceLookup} {file : Path}
    {service result : RawService} (h : resolveEnvFiles lookup file service = .ok result)
    {name : String} (hname : name ≠ EnvFile.environmentField) :
    get? name result = get? name service := by
  rcases resolveEnvFiles_cases h with rfl | ⟨entries, rfl⟩
  · rfl
  · exact Entries.get?_insert_of_ne hname _ _

theorem sorted_resolveEnvFiles {lookup : Option ResourceLookup} {file : Path}
    {service result : RawService} (h : resolveEnvFiles lookup file service = .ok result)
    (hsorted : Sorted service) : Sorted result := by
  rcases resolveEnvFiles_cases h with rfl | ⟨entries, rfl⟩
  · exact hsorted
  · exact hsorted.insert _ _

namespace Merging

/-! ### Laying fields over a definition -/

/-- The service that raw fields make of an earlier definition. -/
def mergeOnto (earlier : ServiceConfig) (lookup : Option ResourceLookup) (file : Path)
    (name : String) (fields : RawService) : Except Error ServiceConfig := do
  let fields ← resolveEnvFiles lookup file (overlayService earlier.toRaw fields)
  convert name (ServiceConfig.read fields)

/-- A service that is not stored yet is merged onto the service without settings. -/
theorem mergeService_eq_mergeOnto (existing : Services) (lookup : Option ResourceLookup)
    (file : Path) (name : String) {fields : RawService} (hfields : Sorted fields) :
    mergeService existing lookup file name fields =
      mergeOnto ((existing.get? name).getD .empty) lookup file name fields := by
  have hlay : layOver existing name fields =
      overlayService ((existing.get? name).getD .empty).toRaw fields := by
    unfold layOver
    cases existing.get? name with
    | some earlier => rfl
    | none =>
      rw [Option.getD_none, ServiceConfig.toRaw_empty, overlayService,
        overlayEntries_nil_left hfields]
  rw [mergeService, hlay, mergeOnto]

variable {x c : ServiceConfig} {lookup : Option ResourceLookup} {file : Path} {name : String}
  {fields : RawService}

theorem get?_overlayService_toRaw (x : ServiceConfig) (hfields : Sorted fields)
    (f : ServiceField) :
    get? f.key (overlayService x.toRaw fields) =
      overlaySlot f.key (f.kind.slot.write (x.get f)) (get? f.key fields) := by
  rw [overlayService, get?_overlayEntries hfields.distinct, x.get?_toRaw]

theorem sorted_overlayService_toRaw (x : ServiceConfig) (fields : RawService) :
    Sorted (overlayService x.toRaw fields) :=
  x.canonical_toRaw.sorted.overlayEntries fields

/-- What becomes of each field but the environment. -/
theorem get_mergeOnto (hfields : Sorted fields)
    (h : mergeOnto x lookup file name fields = .ok c) {f : ServiceField} (hf : f ≠ .environment) :
    f.kind.slot.read (overlaySlot f.key (f.kind.slot.write (x.get f)) (get? f.key fields)) =
      .ok (c.get f) := by
  obtain ⟨resolved, hresolved, hread⟩ := Outcome.bind_eq_ok_iff.1 h
  -- Files change the environment only, so this field is read from the overlaid service.
  have hsorted := sorted_resolveEnvFiles hresolved (sorted_overlayService_toRaw x fields)
  have hf' : f.key ≠ EnvFile.environmentField :=
    fun hkey => hf (ServiceField.key_injective (g := .environment) hkey)
  rw [convert, Outcome.mapError_eq_ok_iff, ServiceConfig.read_eq_ok_iff hsorted] at hread
  rw [← get?_overlayService_toRaw x hfields, ← get?_resolveEnvFiles hresolved hf']
  exact hread f

/-- Without environment files every field is merged on its own. -/
theorem mergeOnto_eq_ok_iff (hfields : Sorted fields) (hx : x.get .envFile = [])
    (hfiles : get? EnvFile.filesField fields = none) :
    mergeOnto x lookup file name fields = .ok c ↔ ∀ f : ServiceField,
      f.kind.slot.read (overlaySlot f.key (f.kind.slot.write (x.get f)) (get? f.key fields)) =
        .ok (c.get f) := by
  have habsent : get? EnvFile.filesField (overlayService x.toRaw fields) = none := by
    have hkey := get?_overlayService_toRaw x hfields .envFile
    rw [hx] at hkey
    rw [show EnvFile.filesField = ServiceField.envFile.key from rfl, hkey,
      show ServiceField.envFile.key = EnvFile.filesField from rfl, hfiles]
    rfl
  rw [mergeOnto, resolveEnvFiles_of_absent habsent, Outcome.bind_ok, convert,
    Outcome.mapError_eq_ok_iff, ServiceConfig.read_eq_ok_iff (sorted_overlayService_toRaw x fields)]
  simp only [get?_overlayService_toRaw x hfields]

/-! ### The final adjustment -/

/-- The restart policy that is kept for a restart policy. -/
def adjustPolicy (policy : Option String) : Option String :=
  if policy = some "false" then some "no" else policy

theorem adjustPolicy_adjustPolicy (policy : Option String) :
    adjustPolicy (adjustPolicy policy) = adjustPolicy policy := by
  unfold adjustPolicy
  by_cases h : policy = some "false"
  · rw [if_pos h]
    decide
  · rw [if_neg h, if_neg h]

theorem get_adjustService_of_ne (c : ServiceConfig) {f : ServiceField} (hf : f ≠ .restart) :
    (adjustService c).get f = c.get f := by
  unfold adjustService
  split
  · exact c.get_set_of_ne (Ne.symm hf) _
  · rfl

theorem restart_adjustService (c : ServiceConfig) :
    (adjustService c).restart = adjustPolicy c.restart := by
  unfold adjustService adjustPolicy
  by_cases h : c.restart = some "false"
  · rw [if_pos h, if_pos h]
    exact c.get_set_self .restart _
  · rw [if_neg h, if_neg h]

end Merging
end ComposeMerge
