import ComposeMerge.Proofs.Independence
import ComposeMerge.Proofs.Settled
import ComposeMerge.Proofs.Widening

/-!
# Overrides that say nothing

A manifest may mention a service without any field. What earlier manifests made of the service
stays, although its environment files are read once more.

* `Manifest.serviceFields_eq_nil_iff` says how such a mention is written;
* `Merging.serviceOf_nil` takes it through the stages of a merge;
* `Project.empty_override_changes_nothing` is about the whole manifest.
-/

namespace ComposeMerge

open Entries (get?)

/-- A service without fields is null or an empty mapping. -/
theorem Manifest.serviceFields_eq_nil_iff {name : String} {v : Value} :
    serviceFields name v = .ok [] ↔ v = .scalar .null ∨ v = .mapping [] := by
  unfold serviceFields
  split <;> simp_all

namespace Merging

variable {around : Surroundings} {options : Options} {file : Path} {schema : Schema}
  {name : String} {c : ServiceConfig}

theorem substituteService_nil (env : Environment) (options : Options) (name : String) :
    substituteService env options name [] = .ok [] := by
  unfold substituteService
  split <;> rfl

theorem checkedService_nil (options : Options) (hname : Validation.isServiceName name = true) :
    checkedService options name [] = .ok [] := by
  unfold checkedService Validation.validateService Validation.serviceFault?
  rw [if_pos hname]
  split <;> rfl

/-- A legacy service without fields is one without fields in later versions. -/
theorem widened_nil (schema : Schema) (name : String) : widened schema name [] = .ok [] := by
  cases schema with
  | v1 =>
    have hwiden : LegacyService.widen { LegacyService.empty with shared := .empty } = .empty :=
      LegacyService.widen_shared .empty
    show Except.ok (LegacyService.widen { LegacyService.empty with shared := .empty }).toRaw = _
    rw [hwiden, ServiceConfig.toRaw_empty]
  | v2 => rfl
  | v3 => rfl

/-- A settled service stays when a manifest says nothing of it. -/
theorem serviceOf_nil (h : Settled around.resources c)
    (hname : Validation.isServiceName name = true) :
    serviceOf around options file schema name (some c) [] = .ok c := by
  have hnormal : normalizeService [] = [] := rfl
  rw [serviceOf, hnormal, substituteService_nil, Outcome.bind_ok, checkedService_nil _ hname,
    Outcome.bind_ok, widened_nil, Outcome.bind_ok, h.mergeOn_nil, Outcome.bind_ok, h.adjusted]

end Merging

namespace Project

open Merging

variable {p q : Project} {sources : List (Path × Except Error Bytes)} {bytes : Bytes} {m : Manifest}

/-- **An empty override changes nothing.** After a run without hooks from an empty project, with
resources that are the same from every manifest, one more manifest of version 1 or 2 that says
nothing of the known services that it mentions is added, and every service stays as it was. Volumes
and networks of the manifest may be anything that is converted. -/
theorem empty_override_changes_nothing (hooks : p.options.NoHooks) (hempty : p.state = .empty)
    (hsteady : ∀ l ∈ p.around.resources, ResourceLookup.Steady l)
    (hrun : p.addAll sources = (q, .ok ())) (hload : Manifest.load bytes = .ok m)
    (hsupported : m.Supported)
    (hservices : ∀ e ∈ m.services, e.2 = [] ∧ Validation.isServiceName e.1 = true ∧
      e.1 ∈ q.state.services.names)
    (hvolumes : ∀ e ∈ m.volumes, ∃ v,
      entryOf p.around.environment p.options .empty VolumeConfig.read e.1 e.2 = .ok v)
    (hnetworks : ∀ e ∈ m.networks, ∃ n,
      entryOf p.around.environment p.options .empty NetworkConfig.read e.1 e.2 = .ok n)
    (file : Path) :
    ∃ r, q.add file bytes = .ok r ∧ r.state.services = q.state.services := by
  have hordered := Manifest.ordered_load hload
  have hsettled : ∀ {s c}, q.state.services.get? s = some c → Settled p.around.resources c :=
    settled_of_addAll hooks (by rw [hempty]; rfl) hsteady hrun
  obtain ⟨ms, hms, hq⟩ := addLoaded_eq_ok_iff.1 (addAll_eq_ok_iff_addLoaded.1 hrun)
  obtain ⟨-, ⟨haround, hoptions⟩, -⟩ := steps_of_addManifests hooks (ordered_of_mapM hms) hq
  -- The step of a service gives what is stored.
  have hservice : ∀ s, step q.around q.options .service s (q.state.services.get? s) (file, m) =
      .ok (q.state.services.get? s) := by
    intro s
    cases hget : get? s (m.entries .service) with
    | none => exact step_of_none hget _
    | some fields =>
      obtain ⟨rfl, hname, hknown⟩ :
          fields = [] ∧ Validation.isServiceName s = true ∧ s ∈ q.state.services.names :=
        hservices (s, fields) ((Entries.get?_eq_some_iff (hordered .service).distinct).1 hget)
      obtain ⟨c, hc⟩ := Option.isSome_iff_exists.1 (Table.mem_names_iff.1 hknown)
      obtain ⟨schema, hschema, -⟩ := hsupported
      rw [step_of_some hget, hc, elementOf_service hschema, haround,
        serviceOf_nil (hsettled hc) hname]
      rfl
  have hstep : ∀ k name, ∃ y, step q.around q.options k name ((q.state.table k).get? name)
      (file, m) = .ok y := by
    intro k name
    cases hget : get? name (m.entries k) with
    | none => exact ⟨_, step_of_none hget _⟩
    | some raw =>
      have hmem := (Entries.get?_eq_some_iff (hordered k).distinct).1 hget
      cases k with
      | service => exact ⟨_, hservice name⟩
      | volume =>
        obtain ⟨v, hv⟩ := hvolumes _ hmem
        exact ⟨some v, by rw [step_of_some hget, elementOf, haround, hoptions, hv]; rfl⟩
      | network =>
        obtain ⟨n, hn⟩ := hnetworks _ hmem
        exact ⟨some n, by rw [step_of_some hget, elementOf, haround, hoptions, hn]; rfl⟩
  obtain ⟨r, hr⟩ := addManifest_ok (hoptions ▸ hooks) hordered hsupported hstep
  refine ⟨r, ?_, Table.ext_get? fun s => ?_⟩
  · rw [add, merge, hload]
    exact hr
  · obtain ⟨-, -, hsteps⟩ := step_of_addManifest (hoptions ▸ hooks) hordered hr
    exact Except.ok.inj ((hsteps .service s).symm.trans (hservice s))

/-- A manifest of version 1 that says nothing of the services of `filedManifest`. -/
def emptyOverride : Bytes := "web: \ncache: {}\n".toUTF8.toList

theorem load_emptyOverride : ∃ m, Manifest.load emptyOverride = .ok m ∧ m.version = "" ∧
    (∀ e ∈ m.services, e.2 = [] ∧ e.1 ∈ ["cache", "web"]) ∧ m.volumes = [] ∧ m.networks = [] := by
  have hshape : (Manifest.load emptyOverride).toOption.map (fun m =>
      (m.version, m.services.mapValues List.isEmpty, m.volumes.isEmpty, m.networks.isEmpty)) =
        some ("", [("cache", true), ("web", true)], true, true) := by decide +kernel
  cases hload : Manifest.load emptyOverride with
  | error e => simp [hload, Except.toOption] at hshape
  | ok m =>
    simp only [hload, Except.toOption, Option.map_some, Option.some.injEq, Prod.mk.injEq,
      List.isEmpty_iff] at hshape
    obtain ⟨hversion, hservices, hvolumes, hnetworks⟩ := hshape
    refine ⟨m, rfl, hversion, fun e he => ?_, hvolumes, hnetworks⟩
    have hmem : (e.1, e.2.isEmpty) ∈ [("cache", true), ("web", true)] :=
      hservices ▸ List.mem_map_of_mem he
    simp only [List.mem_cons, Prod.mk.injEq, List.isEmpty_iff, List.not_mem_nil, or_false] at hmem ⊢
    exact ⟨hmem.elim And.right And.right, hmem.imp And.left And.left⟩

/-- The file is read again, and its variables stay as they were. -/
theorem environment_after_emptyOverride :
    ∃ r, (withFile.addAll filedManifest).1.add "two.yml" emptyOverride = .ok r ∧
      r.state.services = (withFile.addAll filedManifest).1.state.services ∧
      (r.state.services.get? "web").map (fun c => (c.get .environment : List String)) =
        some ["A=2", "B=1"] := by
  have hrun : withFile.addAll filedManifest = ((withFile.addAll filedManifest).1, .ok ()) :=
    Prod.ext rfl (by decide +kernel)
  have hknown : ∀ name ∈ ["cache", "web"], Validation.isServiceName name = true ∧
      name ∈ (withFile.addAll filedManifest).1.state.services.names := by decide +kernel
  obtain ⟨m, hload, hversion, hservices, hvolumes, hnetworks⟩ := load_emptyOverride
  obtain ⟨r, hr, hsame⟩ := empty_override_changes_nothing ⟨rfl, rfl⟩ rfl
    (fun l hl => by cases hl; exact ResourceLookup.steady_fromMemory _) hrun hload
    ⟨.v1, by rw [Manifest.schema, hversion]; rfl, by decide⟩
    (fun e he => ⟨(hservices e he).1, hknown e.1 (hservices e he).2⟩) (by simp [hvolumes])
    (by simp [hnetworks]) "two.yml"
  refine ⟨r, hr, hsame, ?_⟩
  rw [hsame]
  decide +kernel

end Project
end ComposeMerge
