import ComposeMerge.CommandLine.Report
import ComposeMerge.Proofs.Independence
import ComposeMerge.Proofs.RawForm
import ComposeMerge.Proofs.Settled
import ComposeMerge.Proofs.Validated

/-!
# The printed configuration

What a project of version 2 prints is a manifest in its own right: an empty project that is given
it, without replacing references, ends with the same services, volumes and networks.

* `Manifest.ofTree_write` reads the printed document as the manifest `ProjectState.manifest`;
* `Validation.serviceFault?_toRaw` has a valid service valid in its written form;
* `Merging.serviceOf_toRaw` and `Merging.entryOf_write` take what is written through the stages of
  a merge;
* `Project.printed_configuration_loads_back` puts this together.
-/

namespace ComposeMerge

open Entries (get?)

/-! ### The document -/

/-- The manifest that a state is printed as. -/
def ProjectState.manifest (s : ProjectState) : Manifest where
  version := s.version
  services := s.services.entries.mapValues ServiceConfig.toRaw
  volumes := storedTable VolumeConfig.write s.volumes
  networks := storedTable NetworkConfig.write s.networks

/-- The sections of a printed document, in the order in which they are printed. -/
def ProjectState.sections (s : ProjectState) : Entries Value :=
  Written.field "version" (if s.version.isEmpty then none else some (.string s.version)) ++
    [("services", .mapping (s.services.mapValues fun c => .mapping c.write).entries)] ++
    Written.field "volumes" (Written.table VolumeConfig.write s.volumes) ++
    Written.field "networks" (Written.table NetworkConfig.write s.networks)

theorem ProjectState.write_eq (s : ProjectState) : s.write = .mapping s.sections := rfl

theorem ProjectState.distinct_sections (s : ProjectState) : Entries.Distinct s.sections := by
  unfold sections
  generalize Written.table VolumeConfig.write s.volumes = volumes
  generalize Written.table NetworkConfig.write s.networks = networks
  cases volumes <;> cases networks <;> by_cases h : s.version.isEmpty = true <;>
    simp [h, Written.field, Entries.Distinct]

theorem ProjectState.get?_sections (s : ProjectState) :
    get? "version" s.sections =
      (if s.version.isEmpty then none else some (.string s.version)) ∧
    get? "services" s.sections =
      some (.mapping (s.services.mapValues fun c => .mapping c.write).entries) ∧
    get? "volumes" s.sections = Written.table VolumeConfig.write s.volumes ∧
    get? "networks" s.sections = Written.table NetworkConfig.write s.networks := by
  simp [sections, Entries.get?_append, Component.get?_field, Entries.get?_cons]

/-- The written form of an element. -/
def Element.write : (k : Element) → k.Config → k.Raw
  | .service => ServiceConfig.toRaw
  | .volume => fun v => v.write.canonical
  | .network => fun n => n.write.canonical

theorem ProjectState.get?_manifest (s : ProjectState) (k : Element) (name : String) :
    get? name (s.manifest.entries k) = ((s.table k).get? name).map k.write := by
  cases k with
  | service => exact Entries.get?_mapValues ..
  | volume => exact Entries.get?_mapValues (Element.write .volume) name s.volumes.entries
  | network => exact Entries.get?_mapValues (Element.write .network) name s.networks.entries

theorem ProjectState.ordered_manifest (s : ProjectState) : s.manifest.Ordered := fun
  | .service => s.services.sorted.mapValues _
  | .volume => sorted_storedTable VolumeConfig.write s.volumes
  | .network => sorted_storedTable NetworkConfig.write s.networks

namespace Manifest

open Written

/-- A section is read as it is written, also when nothing is written for it. -/
theorem section?_table {α : Type} {write : α → Value} {root : Entries Value} {name : String}
    (t : Table α) (h : get? name root = (table write t).map Value.canonical) :
    (section? root name) = .ok (storedTable write t) := by
  rw [section?, h, canonical_written_table]
  by_cases hempty : t.isEmpty = true
  · rw [if_pos hempty, (Table.isEmpty_iff t).1 hempty]
    rfl
  · rw [if_neg hempty]
    rfl

theorem serviceEntries_write (services : Services) :
    serviceEntries (storedTable (fun c => .mapping c.write) services) =
      .ok (services.entries.mapValues ServiceConfig.toRaw) := by
  have hfields : ∀ name (c : ServiceConfig),
      serviceFields name (Value.mapping c.write).canonical = .ok c.toRaw := fun _ _ => rfl
  rw [serviceEntries, storedTable, Entries.traverse_mapValues]
  simp only [hfields]
  rw [← Entries.traverse_mapValues (fun _ fields => .ok fields) ServiceConfig.toRaw,
    Entries.traverse_pure]

/-- A printed document is read as a manifest. -/
theorem ofTree_write {s : ProjectState} (hversion : majorVersion s.version = .ok 2)
    (source : Except Error String) : ofTree source s.write.canonical = .ok s.manifest := by
  -- The empty version is version 1, so this one is printed.
  have hne : ¬s.version.isEmpty = true := by
    intro hempty
    rw [majorVersion, if_pos hempty] at hversion
    cases hversion
  have hget := fun name => Value.get?_ofList_canonicalEntries s.distinct_sections name
  obtain ⟨hversion', hservices, hvolumes, hnetworks⟩ := s.get?_sections
  rw [if_neg hne] at hversion'
  rw [s.write_eq, Value.canonical, ofTree, rootEntries, Outcome.bind_ok]
  generalize Entries.ofList (Value.canonicalEntries s.sections) = root at hget
  have hdeclared : declaredVersion source root = .ok s.version := by
    rw [declaredVersion, versionKey, hget, hversion']
    rfl
  have hsection : (section? root "services") =
      .ok (storedTable (fun c => .mapping c.write) s.services) := by
    rw [section?, hget, hservices, Option.map_some, canonical_mapValues]
    rfl
  have hvolumes' := section?_table s.volumes ((hget _).trans (congrArg _ hvolumes))
  have hnetworks' := section?_table s.networks ((hget _).trans (congrArg _ hnetworks))
  rw [hdeclared, Outcome.bind_ok, hversion, Outcome.bind_ok, if_neg (by decide), hsection,
    hvolumes', hnetworks']
  exact congrArg (fun services => services >>= _) (serviceEntries_write s.services)

end Manifest

/-! ### Written services -/

namespace ServiceConfig

variable {c : ServiceConfig} {v : Value}

/-- Inheritance is written in full. -/
theorem extends_toRaw (h : get? extendsField c.toRaw = some v) :
    ∃ e : Extends, v = e.write.canonical := by
  have hwritten : get? extendsField c.toRaw = FieldKind.inheritance.slot.write (c.get .inheritance) :=
    c.get?_toRaw .inheritance
  obtain ⟨w, hw, rfl⟩ := Option.map_eq_some_iff.1 (hwritten.symm.trans h)
  obtain ⟨e, -, rfl⟩ := Option.map_eq_some_iff.1 hw
  exact ⟨e, rfl⟩

/-- A written service has its inheritance in full already. -/
theorem normalizeService_toRaw (c : ServiceConfig) : normalizeService c.toRaw = c.toRaw := by
  have hsame : ∀ e ∈ c.toRaw, (e.1, if e.1 = extendsField then fullExtends e.2 else e.2) = e := by
    rintro ⟨key, v⟩ hv
    by_cases hkey : key = extendsField
    · subst hkey
      obtain ⟨e, rfl⟩ :=
        extends_toRaw ((Entries.get?_eq_some_iff c.canonical_toRaw.sorted.distinct).2 hv)
      rw [if_pos rfl]
      rfl
    · rw [if_neg hkey]
  exact (List.map_congr_left hsame).trans (List.map_id _)

end ServiceConfig

namespace Validation

theorem extendsFault_write (e : Extends) : extendsFault e.write.canonical = none := by
  have hservice : get? "service" (storedExtends e) = some (.string e.service) :=
    (forall_extendsParts_iff.1 (assembled_extends.get?_write e)).1
  have hnames : namesService e.write.canonical = true := by
    rw [Extends.write, Value.canonical, namesService]
    show ((get? "service" (storedExtends e)).bind Value.asString?).isSome = true
    rw [hservice]
    rfl
  exact if_pos hnames

theorem portsFault_strings (l : List String) : portsFault (.strings l) = none := by
  simp [portsFault, Value.strings, portFault, Value.string]

theorem stringsFault_strings (field : String) (l : List String) :
    stringsFault field (.strings l) = none := by
  simp [stringsFault, isStrings, Value.strings, Value.string, Value.asString?]

/-- A valid service is valid as it is written. -/
theorem serviceFault?_toRaw {s : String} {c : ServiceConfig} (h : c.Valid s) :
    serviceFault? s c.toRaw = none := by
  refine serviceFault?_eq_none_iff.2 ⟨h.name, ?_⟩
  simp only [checks, List.forall_mem_cons, List.not_mem_nil, false_imp_iff, implies_true, and_true]
  refine ⟨fun v hv => ?inheritance, fun v hv => ?restart, fun v hv => ?ports, fun v hv => ?links,
    fun v hv => ?volumesFrom, fun v hv => ?dependsOn⟩
  case inheritance =>
    obtain ⟨e, rfl⟩ := ServiceConfig.extends_toRaw hv
    exact extendsFault_write e
  case restart =>
    obtain ⟨w, hw, rfl⟩ := Option.map_eq_some_iff.1 ((c.get?_toRaw .restart).symm.trans hv)
    obtain ⟨policy, hpolicy, rfl⟩ := Option.map_eq_some_iff.1 hw
    exact if_pos (h.restart policy hpolicy).1
  case ports =>
    rw [(isList_list.of_write ((c.get?_toRaw .ports).symm.trans hv)).1]
    exact portsFault_strings _
  case links =>
    rw [(isList_list.of_write ((c.get?_toRaw .links).symm.trans hv)).1]
    exact stringsFault_strings _ _
  case volumesFrom =>
    rw [(isList_list.of_write ((c.get?_toRaw .volumesFrom).symm.trans hv)).1]
    exact stringsFault_strings _ _
  case dependsOn =>
    rw [(isList_dependencies.of_write ((c.get?_toRaw .dependsOn).symm.trans hv)).1]
    exact stringsFault_strings _ _

end Validation

/-! ### Written services and sections in a merge -/

namespace Merging

variable {around : Surroundings} {options : Options} {file : Path} {name : String}

/-- A settled and valid service is made of its written form as it is. -/
theorem serviceOf_toRaw {c : ServiceConfig} (hinterpolate : options.interpolate = false)
    (hsettled : Settled around.resources c) (hvalid : c.Valid name) :
    serviceOf around options file .v2 name none c.toRaw = .ok c := by
  have hchecked : checkedService options name c.toRaw = .ok c.toRaw := by
    unfold checkedService
    split
    · rw [Validation.validateService_eq_ok_iff.2 (Validation.serviceFault?_toRaw hvalid)]
      rfl
    · rfl
  rw [serviceOf, c.normalizeService_toRaw,
    substituteService_of_not_interpolate (by simp [hinterpolate]), Outcome.bind_ok, hchecked,
    Outcome.bind_ok, widened, Outcome.bind_ok, hsettled.mergeOn_toRaw, Outcome.bind_ok,
    hsettled.adjusted]

/-- What is read from its written form is converted from it. -/
theorem entryOf_write {α : Type} {empty a : α} {read : Value → Read α} {write : α → Value}
    {env : Environment} (hinterpolate : options.interpolate = false)
    (hread : read (write a).canonical = .ok a) (hnull : (write a).canonical.isNull = false) :
    entryOf env options empty read name (write a).canonical = .ok a := by
  rw [entryOf, substituteEntry_of_not_interpolate (by simp [hinterpolate]), Outcome.bind_ok,
    convertEntry, hnull, convert, hread]
  rfl

end Merging

namespace Project

open Merging

/-- The printed form of a state whose services are settled and valid is merged to that state. -/
theorem addManifest_manifest {s : ProjectState} {fresh : Project} (hooks : fresh.options.NoHooks)
    (hinterpolate : fresh.options.interpolate = false) (hempty : fresh.state = .empty)
    (hversion : majorVersion s.version = .ok 2)
    (hservices : ∀ {name c}, s.services.get? name = some c →
      Settled fresh.around.resources c ∧ c.Valid name) (file : Path) :
    ∃ r, fresh.addManifest (file, s.manifest) = .ok r ∧ r.state.version = s.version ∧
      ∀ k, r.state.table k = s.table k := by
  have hordered := s.ordered_manifest
  have hschema : s.manifest.schema = .ok .v2 := by
    rw [Manifest.schema, ProjectState.manifest, hversion]
    rfl
  have hwritten : ∀ k name c, (s.table k).get? name = some c →
      elementOf fresh.around fresh.options (file, s.manifest) k name none (k.write c) = .ok c := by
    intro k name c hc
    cases k with
    | service =>
      obtain ⟨hsettled, hvalid⟩ := hservices hc
      rw [elementOf_service hschema]
      exact serviceOf_toRaw hinterpolate hsettled hvalid
    | volume => exact entryOf_write hinterpolate c.read_write rfl
    | network => exact entryOf_write hinterpolate c.read_write rfl
  have hstep : ∀ k name, step fresh.around fresh.options k name
      ((fresh.state.table k).get? name) (file, s.manifest) = .ok ((s.table k).get? name) := by
    intro k name
    have hstart : (fresh.state.table k).get? name = none := by
      rw [hempty]
      cases k <;> rfl
    have hraw := s.get?_manifest k name
    rw [hstart]
    cases hget : (s.table k).get? name with
    | none =>
      rw [hget] at hraw
      exact step_of_none hraw none
    | some c =>
      rw [hget] at hraw
      rw [step_of_some hraw, hwritten k name c hget]
      rfl
  obtain ⟨r, hr⟩ := addManifest_ok hooks hordered ⟨.v2, hschema, by decide⟩
    fun k name => ⟨_, hstep k name⟩
  obtain ⟨-, -, hstep'⟩ := step_of_addManifest hooks hordered hr
  exact ⟨r, hr, version_of_addManifest hooks hordered hr, fun k => Table.ext_get? fun name =>
    Except.ok.inj ((hstep' k name).symm.trans (hstep k name))⟩

/-- **The printed configuration loads back.** After a run without hooks and with validation from an
empty project, with resources that are the same from every manifest, let the version be version 2.
Then what is printed is a document that an empty project with the same resources merges, as its only
manifest and without replacing references, to the same version, services, volumes and networks,
whether it is validated or not. Any bytes that are read as this document are added with this
result. -/
theorem printed_configuration_loads_back {p q : Project}
    {sources : List (Path × Except Error Bytes)} (hooks : p.options.NoHooks)
    (hvalidate : p.options.validate = true) (hempty : p.state = .empty)
    (hsteady : ∀ l ∈ p.around.resources, ResourceLookup.Steady l)
    (hrun : p.addAll sources = (q, .ok ())) (hversion : majorVersion q.state.version = .ok 2)
    (fresh : Project) (hooks' : fresh.options.NoHooks) (hinterpolate : fresh.options.interpolate = false)
    (hempty' : fresh.state = .empty) (hresources : fresh.around.resources = p.around.resources)
    (file : Path) :
    ∃ document m r, Value.ofNode q.state.write.toNode = .ok document ∧
      (∀ versionText, Manifest.ofTree versionText document = .ok m) ∧
      fresh.addManifest (file, m) = .ok r ∧
      (∀ bytes, Yaml.read bytes = some q.state.write.toNode → fresh.add file bytes = .ok r) ∧
      r.state.version = q.state.version ∧ r.state.services = q.state.services ∧
      r.state.volumes = q.state.volumes ∧ r.state.networks = q.state.networks := by
  have hreached : ProjectState.Reached q.state := by
    have h := ProjectState.Reached.addAll (p := p) (hempty ▸ .empty)
      { hooks.hookBefore with validate := hvalidate } sources
    rwa [hrun] at h
  obtain ⟨r, hr, hrversion, htable⟩ :=
    addManifest_manifest hooks' hinterpolate hempty' hversion (fun {name c} hc =>
      ⟨hresources ▸ settled_of_addAll hooks (by rw [hempty]; rfl) hsteady hrun hc,
        hreached.valid hc⟩) file
  have hread : ∀ versionText, Manifest.ofTree versionText q.state.write.canonical =
      .ok q.state.manifest := Manifest.ofTree_write hversion
  refine ⟨_, _, r, Value.ofNode_toNode _, hread, hr, fun bytes hbytes => ?_, hrversion,
    htable .service, htable .volume, htable .network⟩
  have hload : Manifest.load bytes = .ok q.state.manifest := by
    rw [Manifest.load, loadValue, hbytes]
    simp only [Value.ofNode_toNode]
    exact hread _
  rw [add, merge, hload]
  exact hr

/-- An empty project with the same file, in which references are not replaced. -/
def withFileVerbatim : Project :=
  { withFile with options := { Options.standard with interpolate := false } }

/-- The file is read once more, and the service has its variables as before. -/
theorem environment_printed_back :
    ∃ m r, withFileVerbatim.addManifest ("config.yml", m) = .ok r ∧
      r.state.services = (withFile.addAll filedManifest).1.state.services ∧
      (r.state.services.get? "web").map (fun c => (c.get .environment : List String)) =
        some ["A=2", "B=1"] := by
  have hrun : withFile.addAll filedManifest = ((withFile.addAll filedManifest).1, .ok ()) :=
    Prod.ext rfl (by decide +kernel)
  obtain ⟨-, m, r, -, -, hr, -, -, hservices, -, -⟩ :=
    printed_configuration_loads_back ⟨rfl, rfl⟩ rfl rfl
      (fun l hl => by cases hl; exact ResourceLookup.steady_fromMemory _) hrun
      (by decide +kernel) withFileVerbatim ⟨rfl, rfl⟩ rfl rfl rfl "config.yml"
  refine ⟨m, r, hr, hservices, ?_⟩
  rw [hservices]
  decide +kernel

/-- The printed text is read as the printed document. -/
example : (withFileVerbatim.add "config.yml"
      (Report.yaml (withFile.addAll filedManifest).1.state).toUTF8.toList).toOption.map
    (fun r => r.state.services) = some (withFile.addAll filedManifest).1.state.services := by
  decide +kernel

end Project
end ComposeMerge
