import ComposeMerge.Project
import ComposeMerge.Proofs.Merge
import ComposeMerge.Proofs.Prepared

/-!
# Runs

What happens to one service while manifests are added to a project, one after the other.

* `Merging.definition` is what a manifest defines for a service, and `Project.definitions` what
  the manifests of a run define for it;
* `Project.add_service` says what one manifest makes of the service;
* `Project.addAll_service` carries an invariant of the service through a run.
-/

namespace ComposeMerge

open Entries (Sorted get?)

/-- No stage has a hook. -/
structure Options.NoHooks (options : Options) : Prop where
  preprocess : options.preprocess = none
  postprocess : options.postprocess = none

/-- A hook may change services before they are merged, but not afterwards. -/
structure Options.HookBefore (options : Options) : Prop where
  preprocess : Merging.KeepsMaps options.preprocess
  postprocess : options.postprocess = none

theorem Options.NoHooks.hookBefore {options : Options} (h : options.NoHooks) :
    options.HookBefore where
  preprocess := h.preprocess ▸ Merging.keepsMaps_none
  postprocess := h.postprocess

namespace Merging

/-- The raw fields of a service in the form of later versions. -/
def widened (schema : Schema) (name : String) (fields : RawService) : Except Error RawService :=
  match schema with
  | .v1 => widenService name fields
  | .v2 | .v3 => .ok fields

/-- The fields that a manifest defines for a service, ready to be merged. -/
def definition (env : Environment) (options : Options) (service : String)
    (content : Except Error Bytes) : Except Error (Option RawService) := do
  let bytes ← content
  let m ← Manifest.load bytes
  let schema ← m.schema
  let m ← prepare env options m
  match m.services.get? service with
  | none => .ok none
  | some fields => (widened schema service fields).map some

theorem canonical_widened {schema : Schema} {name : String} {fields result : RawService}
    (hfields : (Value.mapping fields).Canonical) (h : widened schema name fields = .ok result) :
    (Value.mapping result).Canonical := by
  cases schema with
  | v1 =>
    obtain ⟨legacy, -, rfl⟩ := Outcome.map_eq_ok_iff.1 h
    exact legacy.widen.canonical_toRaw
  | v2 => cases h; exact hfields
  | v3 => cases h; exact hfields

/-- What is defined for a service has been prepared, and then widened. -/
theorem exists_of_definition {env : Environment} {options : Options} {service : String}
    {content : Except Error Bytes} {fields : RawService} (hhook : KeepsMaps options.preprocess)
    (h : definition env options service content = .ok (some fields)) :
    ∃ (m : Manifest) (schema : Schema) (raw : RawService),
      CanonicalServices m.services ∧ check options m.services = .ok () ∧
        get? service m.services = some raw ∧ widened schema service raw = .ok fields := by
  obtain ⟨bytes, -, h⟩ := Outcome.bind_eq_ok_iff.1 h
  obtain ⟨m, hm, h⟩ := Outcome.bind_eq_ok_iff.1 h
  obtain ⟨schema, -, h⟩ := Outcome.bind_eq_ok_iff.1 h
  obtain ⟨m', hm', h⟩ := Outcome.bind_eq_ok_iff.1 h
  cases hget : get? service m'.services with
  | none =>
    rw [hget] at h
    cases h
  | some raw =>
    rw [hget] at h
    obtain ⟨_, hwidened, hfields⟩ := Outcome.map_eq_ok_iff.1 h
    cases hfields
    exact ⟨m', schema, raw, canonical_prepare hhook (Manifest.canonical_load hm) hm',
      check_of_prepare hm', hget, hwidened⟩

theorem canonical_definition {env : Environment} {options : Options} {service : String}
    {content : Except Error Bytes} {fields : RawService} (hhook : options.preprocess = none)
    (h : definition env options service content = .ok (some fields)) :
    (Value.mapping fields).Canonical := by
  obtain ⟨m, schema, raw, hcanonical, -, hraw, hwidened⟩ :=
    exists_of_definition (hhook ▸ keepsMaps_none) h
  exact canonical_widened (hcanonical.fields hraw) hwidened

/-- Whatever its version, a manifest has its services merged in the form of later versions. -/
theorem mergeServices_eq_ok_iff {existing : Services} {lookup : Option ResourceLookup}
    {file : Path} {schema : Schema} {m : Manifest} {services : Entries ServiceConfig} :
    mergeServices existing lookup file schema m = .ok services ↔ schema ≠ .v3 ∧
      m.services.traverse (fun name fields => do
        let fields ← widened schema name fields
        mergeService existing lookup file name fields) = .ok services := by
  cases schema with
  | v1 =>
    simp only [mergeServices, ne_eq, reduceCtorEq, not_false_eq_true, true_and]
    rfl
  | v2 => simp [mergeServices, widened]
  | v3 => simp [mergeServices]

end Merging

namespace Project

open Merging

/-- What manifests define for a service, in their order. -/
def definitions (p : Project) (service : String) (sources : List (Path × Except Error Bytes)) :
    List (Path × RawService) :=
  sources.filterMap fun source =>
    (definition p.around.environment p.options service source.2).toOption.join.map
      fun fields => (source.1, fields)

/-- One manifest leaves a service as it is, or merges what it defines onto it. -/
theorem add_service {p q : Project} {path : Path} {content : Except Error Bytes}
    (hooks : p.options.HookBefore) (h : content.bind (p.add path) = .ok q) (s : String) :
    (q.around = p.around ∧ q.options = p.options) ∧
      ((definition p.around.environment p.options s content = .ok none ∧
          q.state.services.get? s = p.state.services.get? s) ∨
        ∃ fields c, definition p.around.environment p.options s content = .ok (some fields) ∧
          (Value.mapping fields).Canonical ∧
          mergeOnto ((p.state.services.get? s).getD .empty) p.around.resources path s fields =
            .ok c ∧
          q.state.services.get? s = some (adjustService c)) := by
  obtain ⟨bytes, rfl⟩ : ∃ bytes, content = .ok bytes := by
    cases content with
    | error e => cases h
    | ok bytes => exact ⟨bytes, rfl⟩
  replace h : p.add path bytes = .ok q := h
  -- The stages of a merge, from the document to the state; the last two leave services alone.
  obtain ⟨merged, hmerged, h⟩ := Outcome.bind_eq_ok_iff.1 h
  cases h
  obtain ⟨m, hm, hmerged⟩ := Outcome.bind_eq_ok_iff.1 hmerged
  obtain ⟨schema, hschema, hmerged⟩ := Outcome.bind_eq_ok_iff.1 hmerged
  obtain ⟨m', hm', hmerged⟩ := Outcome.bind_eq_ok_iff.1 hmerged
  obtain ⟨services, hservices, hmerged⟩ := Outcome.bind_eq_ok_iff.1 hmerged
  obtain ⟨adjusted, hadjusted, hmerged⟩ := Outcome.bind_eq_ok_iff.1 hmerged
  obtain ⟨volumes, -, hmerged⟩ := Outcome.bind_eq_ok_iff.1 hmerged
  obtain ⟨networks, -, hmerged⟩ := Outcome.bind_eq_ok_iff.1 hmerged
  cases hmerged
  rw [hooks.postprocess] at hadjusted
  cases hadjusted
  have hcanonical := canonical_prepare hooks.preprocess (Manifest.canonical_load hm) hm'
  have htraverse := (mergeServices_eq_ok_iff.1 hservices).2
  have hsorted := hcanonical.sorted.traverse htraverse
  have hdefinition : definition p.around.environment p.options s (.ok bytes) =
      match get? s m'.services with
      | none => .ok none
      | some fields => (widened schema s fields).map some := by
    simp only [definition, Outcome.bind_ok, hm, hschema, hm']
  have hstate : (p.state.commit path ⟨m'.version, adjust (.ofList services), volumes,
      networks⟩).services.get? s = ((get? s services).map adjustService).or
        (p.state.services.get? s) := by
    rw [ProjectState.commit, Table.get?_insertAll _ (adjust (.ofList services)).sorted.distinct]
    have hlook : get? s (adjust (.ofList services)).entries =
        (get? s services).map adjustService := by
      rw [← Table.get?_ofList hsorted.distinct s]
      exact Table.get?_mapValues adjustService _ s
    rw [hlook]
  refine ⟨⟨rfl, rfl⟩, ?_⟩
  rw [hdefinition, hstate]
  rcases Entries.get?_traverse htraverse s with ⟨hnone, hnone'⟩ | ⟨raw, c, hraw, hc, hsome⟩
  · left
    rw [hnone, hnone']
    exact ⟨rfl, rfl⟩
  · right
    obtain ⟨fields, hfields, hc⟩ := Outcome.bind_eq_ok_iff.1 hc
    have hwidened := canonical_widened (hcanonical.fields hraw) hfields
    rw [mergeService_eq_mergeOnto _ _ _ _ hwidened.sorted] at hc
    refine ⟨fields, c, ?_, hwidened, hc, ?_⟩
    · rw [hraw]
      exact Outcome.map_eq_ok_iff.2 ⟨fields, hfields, rfl⟩
    · rw [hsome]
      rfl

/-- What holds of a service before a run, and after each merge of what is defined for it, holds
after the run. The invariant sees the definitions merged so far. -/
theorem addAll_service {p q : Project} {sources : List (Path × Except Error Bytes)}
    (hooks : p.options.NoHooks) (hrun : p.addAll sources = (q, .ok ())) (s : String)
    (Inv : List (Path × RawService) → Option ServiceConfig → Prop)
    (hstep : ∀ {done x path fields c}, Inv done x → (Value.mapping fields).Canonical →
      mergeOnto (x.getD .empty) p.around.resources path s fields = .ok c →
        Inv (done ++ [(path, fields)]) (some (adjustService c)))
    (done : List (Path × RawService)) (hstart : Inv done (p.state.services.get? s)) :
    Inv (done ++ p.definitions s sources) (q.state.services.get? s) := by
  induction sources generalizing p done with
  | nil =>
    cases hrun
    simpa [definitions] using hstart
  | cons source sources ih =>
    obtain ⟨path, content⟩ := source
    rw [addAll] at hrun
    cases hadd : content.bind (p.add path) with
    | error e =>
      rw [hadd] at hrun
      cases hrun
    | ok p' =>
      rw [hadd] at hrun
      obtain ⟨⟨haround, hoptions⟩, hcases⟩ := add_service hooks.hookBefore hadd s
      -- What the rest defines depends on the surroundings and options, which stay.
      have hrest : ∀ done', Inv done' (p'.state.services.get? s) →
          Inv (done' ++ p.definitions s sources) (q.state.services.get? s) := by
        intro done' hdone'
        have hdefs : p'.definitions s sources = p.definitions s sources := by
          rw [definitions, definitions, haround, hoptions]
        rw [← hdefs]
        exact ih (hoptions ▸ hooks) hrun (by rw [haround]; exact hstep) done' hdone'
      rcases hcases with ⟨hnone, hsame⟩ | ⟨fields, c, hsome, hcanonical, hc, hget⟩
      · have hdefs : p.definitions s ((path, content) :: sources) = p.definitions s sources := by
          simp [definitions, hnone, Except.toOption]
        rw [hdefs]
        exact hrest done (hsame ▸ hstart)
      · have hdefs : p.definitions s ((path, content) :: sources) =
            (path, fields) :: p.definitions s sources := by
          simp [definitions, hsome, Except.toOption]
        rw [hdefs, List.append_cons]
        refine hrest _ ?_
        rw [hget]
        exact hstep hstart hcanonical hc

/-- A project on a host without variables and files. -/
def bare : Project := .ofName ⟨.empty, FileTree.fileSystem ⟨.directory [], []⟩⟩ "demo"

end Project
end ComposeMerge
