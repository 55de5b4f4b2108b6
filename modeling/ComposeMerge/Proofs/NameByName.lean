import ComposeMerge.Proofs.Run

/-!
# Manifests name by name

Without hooks, what becomes of a service depends on its definition in the manifest and on what is
stored under its name, and on nothing else; volumes and networks depend on their definitions alone.

* an `Element` is a kind of thing that a manifest defines under a name;
* `Merging.serviceOf` and `Merging.entryOf` put all stages of a merge together for one name;
* `mergeManifest_eq_ok_iff`: a manifest merges when everything that it defines does;
* `Project.step` is what becomes of one name, and `Project.steps_of_addManifests` and
  `Project.addManifests_ok` say that a run of manifests is such steps, for each name on its own.
-/

namespace ComposeMerge

open Entries (Sorted get?)

/-! ### Elements -/

/-- What a manifest defines under a name. -/
inductive Element where
  | service
  | volume
  | network
  deriving DecidableEq

namespace Element

/-- What an element is in a manifest. -/
abbrev Raw : Element → Type
  | .service => RawService
  | .volume | .network => Value

/-- What an element is in a project. -/
abbrev Config : Element → Type
  | .service => ServiceConfig
  | .volume => VolumeConfig
  | .network => NetworkConfig

end Element

/-- What a manifest defines, by name. -/
def Manifest.entries (m : Manifest) : (k : Element) → Entries k.Raw
  | .service => m.services
  | .volume => m.volumes
  | .network => m.networks

/-- What is stored, by name. -/
def ProjectState.table (s : ProjectState) : (k : Element) → Table k.Config
  | .service => s.services
  | .volume => s.volumes
  | .network => s.networks

/-- The names of a manifest are in order. -/
def Manifest.Ordered (m : Manifest) : Prop := ∀ k, Sorted (m.entries k)

/-- The version of a manifest is one that can be merged. -/
def Manifest.Supported (m : Manifest) : Prop := ∃ schema, m.schema = .ok schema ∧ schema ≠ .v3

namespace Merging

/-! ### One service, one entry of a section -/

/-- The fields of a service with their references replaced, if that is wanted. -/
def substituteService (env : Environment) (options : Options) (name : String)
    (fields : RawService) : Except Error RawService :=
  if options.interpolate then interpolateService env options.undefined name fields else .ok fields

/-- The fields of a service, which are validated if that is wanted. -/
def checkedService (options : Options) (name : String) (fields : RawService) :
    Except Error RawService :=
  if options.validate then (Validation.validateService name fields).map fun _ => fields
  else .ok fields

/-- Raw fields laid over an earlier definition, if there is one. -/
def layOn (earlier : Option ServiceConfig) (fields : RawService) : RawService :=
  match earlier with
  | some earlier => overlayService earlier.toRaw fields
  | none => fields

/-- The service that raw fields make of an earlier definition, if there is one. -/
def mergeOn (earlier : Option ServiceConfig) (lookup : Option ResourceLookup) (file : Path)
    (name : String) (fields : RawService) : Except Error ServiceConfig := do
  let fields ← resolveEnvFiles lookup file (layOn earlier fields)
  convert name (ServiceConfig.read fields)

/-- What the definition of a service makes of an earlier one, through all stages of a merge. -/
def serviceOf (around : Surroundings) (options : Options) (file : Path) (schema : Schema)
    (name : String) (earlier : Option ServiceConfig) (fields : RawService) :
    Except Error ServiceConfig := do
  let fields ← substituteService around.environment options name (normalizeService fields)
  let fields ← checkedService options name fields
  let fields ← widened schema name fields
  let c ← mergeOn earlier around.resources file name fields
  .ok (adjustService c)

/-- An entry of a section with its references replaced, if that is wanted. -/
def substituteEntry (env : Environment) (options : Options) (name : String) (v : Value) :
    Except Error Value :=
  if options.interpolate then interpolate env options.undefined name v else .ok v

/-- What an entry of a section is converted to. -/
def entryOf {α : Type} (env : Environment) (options : Options) (empty : α) (read : Value → Read α)
    (name : String) (v : Value) : Except Error α := do
  let v ← substituteEntry env options name v
  convertEntry empty read name v

/-- A stored service is looked up under its own name only. -/
theorem mergeService_eq_mergeOn (existing : Services) (lookup : Option ResourceLookup)
    (file : Path) (name : String) (fields : RawService) :
    mergeService existing lookup file name fields =
      mergeOn (existing.get? name) lookup file name fields := rfl

/-! ### All stages of a manifest -/

variable {env : Environment} {options : Options} {around : Surroundings} {file : Path}
  {existing : Services} {m m' : Manifest}

theorem substituteService_of_interpolate (h : options.interpolate = true) :
    substituteService env options = interpolateService env options.undefined := by
  funext name fields
  rw [substituteService, if_pos h]

theorem substituteService_of_not_interpolate (h : ¬options.interpolate = true) :
    substituteService env options = fun _ fields => .ok fields := by
  funext name fields
  rw [substituteService, if_neg h]

theorem substituteEntry_of_interpolate (h : options.interpolate = true) :
    substituteEntry env options = interpolate env options.undefined := by
  funext name v
  rw [substituteEntry, if_pos h]

theorem substituteEntry_of_not_interpolate (h : ¬options.interpolate = true) :
    substituteEntry env options = fun _ v => .ok v := by
  funext name v
  rw [substituteEntry, if_neg h]

/-- References are replaced name by name. -/
theorem substitute_eq_ok_iff :
    substitute env options m = .ok m' ↔ m'.version = m.version ∧
      m.services.traverse (substituteService env options) = .ok m'.services ∧
      m.volumes.traverse (substituteEntry env options) = .ok m'.volumes ∧
      m.networks.traverse (substituteEntry env options) = .ok m'.networks := by
  obtain ⟨version', services', volumes', networks'⟩ := m'
  unfold substitute
  by_cases h : options.interpolate = true
  · rw [if_pos h, substituteService_of_interpolate h, substituteEntry_of_interpolate h]
    simp only [Outcome.bind_eq_ok_iff, Except.ok.injEq, Manifest.mk.injEq]
    constructor
    · rintro ⟨services, hservices, volumes, hvolumes, networks, hnetworks, rfl, rfl, rfl, rfl⟩
      exact ⟨rfl, hservices, hvolumes, hnetworks⟩
    · rintro ⟨rfl, hservices, hvolumes, hnetworks⟩
      exact ⟨_, hservices, _, hvolumes, _, hnetworks, rfl, rfl, rfl, rfl⟩
  · obtain ⟨version, services, volumes, networks⟩ := m
    rw [if_neg h, substituteService_of_not_interpolate h, substituteEntry_of_not_interpolate h,
      Entries.traverse_pure, Entries.traverse_pure, Entries.traverse_pure]
    simp only [Except.ok.injEq, Manifest.mk.injEq, eq_comm]

theorem checkedService_of_validate (h : options.validate = true) :
    checkedService options = fun name fields =>
      (Validation.validateService name fields).map fun _ => fields := by
  funext name fields
  rw [checkedService, if_pos h]

theorem checkedService_of_not_validate (h : ¬options.validate = true) :
    checkedService options = fun _ fields => .ok fields := by
  funext name fields
  rw [checkedService, if_neg h]

/-- Services are validated name by name. -/
theorem traverse_checkedService_eq_ok_iff {services checked : RawServices} :
    services.traverse (checkedService options) = .ok checked ↔
      check options services = .ok () ∧ checked = services := by
  unfold check
  by_cases h : options.validate = true
  · rw [if_pos h, checkedService_of_validate h]
    induction services generalizing checked with
    | nil => simp [Entries.traverse, Validation.validate, eq_comm]
    | cons e services ih =>
      obtain ⟨name, fields⟩ := e
      simp only [Entries.traverse, Validation.validate, Outcome.bind_eq_ok_iff,
        Outcome.map_eq_ok_iff, Except.ok.injEq]
      constructor
      · rintro ⟨_, ⟨u, hname, rfl⟩, rest, hrest, rfl⟩
        obtain ⟨hvalid, rfl⟩ := ih.1 hrest
        exact ⟨⟨u, hname, hvalid⟩, rfl⟩
      · rintro ⟨⟨u, hname, hvalid⟩, rfl⟩
        exact ⟨fields, ⟨u, hname, rfl⟩, services, ih.2 ⟨hvalid, rfl⟩, rfl⟩
  · rw [if_neg h, checkedService_of_not_validate h, Entries.traverse_pure]
    simp [eq_comm]

/-- Without a hook, a manifest is prepared name by name. -/
theorem prepare_eq_ok_iff (hook : options.preprocess = none) :
    prepare env options m = .ok m' ↔ m'.version = m.version ∧
      (normalizeExtends m.services).traverse (substituteService env options) = .ok m'.services ∧
      check options m'.services = .ok () ∧
      m.volumes.traverse (substituteEntry env options) = .ok m'.volumes ∧
      m.networks.traverse (substituteEntry env options) = .ok m'.networks := by
  have hrun : ∀ services, runHook options.preprocess services = .ok services := fun services => by
    rw [hook, runHook]
  unfold prepare
  simp only [hrun, Outcome.bind_eq_ok_iff, Outcome.bind_ok]
  constructor
  · rintro ⟨m₁, hm₁, u, hcheck, h⟩
    cases h
    obtain ⟨hversion, hservices, hvolumes, hnetworks⟩ := substitute_eq_ok_iff.1 hm₁
    exact ⟨hversion, hservices, hcheck, hvolumes, hnetworks⟩
  · rintro ⟨hversion, hservices, hcheck, hvolumes, hnetworks⟩
    exact ⟨m', substitute_eq_ok_iff.2 ⟨hversion, hservices, hvolumes, hnetworks⟩, (), hcheck, rfl⟩

/-- The stages that services go through are those of each service. -/
theorem traverse_serviceOf_eq_ok_iff {services : RawServices} {schema : Schema}
    {made : Entries ServiceConfig} :
    services.traverse (fun name =>
        serviceOf around options file schema name (existing.get? name)) = .ok made ↔
      ∃ substituted merged,
        (normalizeExtends services).traverse (substituteService around.environment options) =
          .ok substituted ∧
        check options substituted = .ok () ∧
        substituted.traverse (fun name fields => do
          let fields ← widened schema name fields
          mergeService existing around.resources file name fields) = .ok merged ∧
        made = merged.mapValues adjustService := by
  have hadjust : ∀ {merged : Entries ServiceConfig},
      merged.traverse (fun _ c => (.ok (adjustService c) : Except Error _)) = .ok made ↔
        made = merged.mapValues adjustService := by
    intro merged
    rw [← Entries.traverse_mapValues (fun _ c => .ok c) adjustService, Entries.traverse_pure,
      Except.ok.injEq, eq_comm]
  rw [normalizeExtends, Entries.traverse_mapValues]
  simp only [mergeService_eq_mergeOn]
  unfold serviceOf
  constructor
  · intro h
    obtain ⟨substituted, hsubstituted, hrest⟩ := Entries.traverse_bind_eq_ok_iff.1 h
    obtain ⟨checked, hchecked, hrest'⟩ := Entries.traverse_bind_eq_ok_iff.1 hrest
    obtain ⟨hcheck, rfl⟩ := traverse_checkedService_eq_ok_iff.1 hchecked
    obtain ⟨wide, hwide, hrest''⟩ := Entries.traverse_bind_eq_ok_iff.1 hrest'
    obtain ⟨merged, hmerged, hmade⟩ := Entries.traverse_bind_eq_ok_iff.1 hrest''
    exact ⟨checked, merged, hsubstituted, hcheck,
      Entries.traverse_bind_eq_ok_iff.2 ⟨wide, hwide, hmerged⟩, hadjust.1 hmade⟩
  · rintro ⟨substituted, merged, hsubstituted, hcheck, h, hmade⟩
    obtain ⟨wide, hwide, hmerged⟩ := Entries.traverse_bind_eq_ok_iff.1 h
    refine Entries.traverse_bind_eq_ok_iff.2 ⟨substituted, hsubstituted, ?_⟩
    refine Entries.traverse_bind_eq_ok_iff.2
      ⟨substituted, traverse_checkedService_eq_ok_iff.2 ⟨hcheck, rfl⟩, ?_⟩
    refine Entries.traverse_bind_eq_ok_iff.2 ⟨wide, hwide, ?_⟩
    exact Entries.traverse_bind_eq_ok_iff.2 ⟨merged, hmerged, hadjust.2 hmade⟩

/-- The stages that the entries of a section go through are those of each entry. -/
theorem traverse_entryOf_eq_ok_iff {α : Type} {empty : α} {read : Value → Read α}
    {entries : Entries Value} {made : Entries α} :
    entries.traverse (entryOf env options empty read) = .ok made ↔
      ∃ substituted, entries.traverse (substituteEntry env options) = .ok substituted ∧
        substituted.traverse (convertEntry empty read) = .ok made :=
  Entries.traverse_bind_eq_ok_iff

/-- What an element is made of its definition and of what is stored under its name. -/
def elementOf (around : Surroundings) (options : Options) (source : Path × Manifest) :
    (k : Element) → (name : String) → Option k.Config → k.Raw → Except Error k.Config
  | .service, name, earlier, fields => do
    let schema ← source.2.schema
    serviceOf around options source.1 schema name earlier fields
  | .volume, name, _, v => entryOf around.environment options .empty VolumeConfig.read name v
  | .network, name, _, v => entryOf around.environment options .empty NetworkConfig.read name v

theorem elementOf_service {schema : Schema} (h : m.schema = .ok schema) :
    elementOf around options (file, m) .service = serviceOf around options file schema := by
  funext name earlier fields
  rw [elementOf, h]
  rfl

theorem convertSection_eq_ok_iff {α : Type} {empty : α} {read : Value → Read α}
    {entries : Entries Value} {t : Table α} :
    convertSection empty read entries = .ok t ↔
      ∃ made, entries.traverse (convertEntry empty read) = .ok made ∧ t = .ofList made := by
  rw [convertSection, Outcome.map_eq_ok_iff]
  simp only [eq_comm]

end Merging

/-- What a manifest has been merged to, by name. -/
def Merged.table (merged : Merged) : (k : Element) → Table k.Config
  | .service => merged.services
  | .volume => merged.volumes
  | .network => merged.networks

open Merging in
/-- A manifest merges when everything that it defines does. -/
theorem mergeManifest_eq_ok_iff {s : ProjectState} {around : Surroundings} {options : Options}
    {file : Path} {m : Manifest} {merged : Merged} (hooks : options.NoHooks) (hm : m.Ordered) :
    mergeManifest s.services around options file m = .ok merged ↔
      merged.version = m.version ∧ m.Supported ∧
      ∃ made : (k : Element) → Entries k.Config, ∀ k,
        (m.entries k).traverse (fun name =>
          elementOf around options (file, m) k name ((s.table k).get? name)) = .ok (made k) ∧
        merged.table k = .ofList (made k) := by
  have hadjust : ∀ {merged : Entries ServiceConfig}, Sorted merged →
      adjust (.ofList merged) = .ofList (merged.mapValues adjustService) :=
    fun hmerged => Table.mapValues_ofList _ hmerged.distinct
  have hnormalized : Sorted (normalizeExtends m.services) := (hm .service).mapValues _
  unfold mergeManifest
  simp only [hooks.postprocess, runHook, Outcome.bind_ok, Outcome.bind_eq_ok_iff,
    prepare_eq_ok_iff hooks.preprocess, mergeServices_eq_ok_iff, convertSection_eq_ok_iff]
  constructor
  · rintro ⟨schema, hschema, m', ⟨hversion, hservices, hcheck, hvolumes, hnetworks⟩, merged',
      ⟨hschema', hmerged⟩, volumes, ⟨madeVolumes, hmadeVolumes, rfl⟩, networks,
      ⟨madeNetworks, hmadeNetworks, rfl⟩, h⟩
    cases h
    refine ⟨hversion, ⟨schema, hschema, hschema'⟩, fun
      | .service => merged'.mapValues adjustService
      | .volume => madeVolumes
      | .network => madeNetworks, fun k => ?_⟩
    cases k with
    | service =>
      rw [elementOf_service hschema]
      exact ⟨traverse_serviceOf_eq_ok_iff.2 ⟨_, _, hservices, hcheck, hmerged, rfl⟩,
        hadjust ((hnormalized.traverse hservices).traverse hmerged)⟩
    | volume => exact ⟨traverse_entryOf_eq_ok_iff.2 ⟨_, hvolumes, hmadeVolumes⟩, rfl⟩
    | network => exact ⟨traverse_entryOf_eq_ok_iff.2 ⟨_, hnetworks, hmadeNetworks⟩, rfl⟩
  · rintro ⟨hversion, ⟨schema, hschema, hschema'⟩, made, hmade⟩
    obtain ⟨hservices, hservicesTable⟩ := hmade .service
    obtain ⟨hvolumes, hvolumesTable⟩ := hmade .volume
    obtain ⟨hnetworks, hnetworksTable⟩ := hmade .network
    rw [elementOf_service hschema] at hservices
    obtain ⟨substituted, merged', hsubstituted, hcheck, hmerged, hmadeServices⟩ :=
      traverse_serviceOf_eq_ok_iff.1 hservices
    obtain ⟨volumes, hsubVolumes, hmadeVolumes⟩ := traverse_entryOf_eq_ok_iff.1 hvolumes
    obtain ⟨networks, hsubNetworks, hmadeNetworks⟩ := traverse_entryOf_eq_ok_iff.1 hnetworks
    refine ⟨schema, hschema, ⟨m.version, substituted, volumes, networks⟩,
      ⟨rfl, hsubstituted, hcheck, hsubVolumes, hsubNetworks⟩, merged', ⟨hschema', hmerged⟩,
      _, ⟨_, hmadeVolumes, rfl⟩, _, ⟨_, hmadeNetworks, rfl⟩, ?_⟩
    rw [hadjust ((hnormalized.traverse hsubstituted).traverse hmerged), ← hmadeServices]
    obtain ⟨version, mergedServices, mergedVolumes, mergedNetworks⟩ := merged
    cases hversion
    cases hservicesTable
    cases hvolumesTable
    cases hnetworksTable
    rfl

/-! ### Runs -/

theorem ProjectState.table_commit (s : ProjectState) (file : Path) (merged : Merged)
    (k : Element) :
    (s.commit file merged).table k = (s.table k).insertAll (merged.table k).entries := by
  cases k <;> rfl

namespace Project

open Merging

/-- The project with one more manifest, which has been loaded. -/
def addManifest (p : Project) (source : Path × Manifest) : Except Error Project := do
  let merged ← mergeManifest p.state.services p.around p.options source.1 source.2
  .ok { p with state := p.state.commit source.1 merged }

/-- The project with manifests added one after the other. -/
def addManifests (p : Project) (ms : List (Path × Manifest)) : Except Error Project :=
  ms.foldlM addManifest p

/-- What becomes of what is stored under a name when a manifest is added. -/
def step (around : Surroundings) (options : Options) (k : Element) (name : String)
    (x : Option k.Config) (source : Path × Manifest) : Except Error (Option k.Config) :=
  match get? name (source.2.entries k) with
  | none => .ok x
  | some raw => (elementOf around options source k name x raw).map some

variable {p q : Project} {source : Path × Manifest} {ms : List (Path × Manifest)}

/-- A manifest that is added takes a step for every name. -/
theorem step_of_addManifest (hooks : p.options.NoHooks) (hm : source.2.Ordered)
    (h : p.addManifest source = .ok q) :
    source.2.Supported ∧ (q.around = p.around ∧ q.options = p.options) ∧
      ∀ k name, step p.around p.options k name ((p.state.table k).get? name) source =
        .ok ((q.state.table k).get? name) := by
  obtain ⟨merged, hmerged, h⟩ := Outcome.bind_eq_ok_iff.1 h
  cases h
  obtain ⟨-, hsupported, made, hmade⟩ := (mergeManifest_eq_ok_iff hooks hm).1 hmerged
  refine ⟨hsupported, ⟨rfl, rfl⟩, fun k name => ?_⟩
  obtain ⟨htraverse, htable⟩ := hmade k
  have hsorted := (hm k).traverse htraverse
  have hget : ((p.state.commit source.1 merged).table k).get? name =
      (get? name (made k)).or ((p.state.table k).get? name) := by
    have hlook : get? name (merged.table k).entries = get? name (made k) := by
      rw [htable]
      exact Entries.get?_ofList hsorted.distinct name
    rw [ProjectState.table_commit, Table.get?_insertAll _ (merged.table k).sorted.distinct, hlook]
  rw [hget, step]
  rcases Entries.get?_traverse htraverse name with ⟨hraw, hnone⟩ | ⟨raw, c, hraw, hc, hsome⟩
  · rw [hraw, hnone]
    rfl
  · rw [hraw, hsome]
    dsimp only
    rw [hc]
    rfl

/-- The version is that of the manifest. -/
theorem version_of_addManifest (hooks : p.options.NoHooks) (hm : source.2.Ordered)
    (h : p.addManifest source = .ok q) : q.state.version = source.2.version := by
  obtain ⟨merged, hmerged, h⟩ := Outcome.bind_eq_ok_iff.1 h
  cases h
  exact ((mergeManifest_eq_ok_iff hooks hm).1 hmerged).1

/-- Where every name can take its step, a manifest is added. -/
theorem addManifest_ok (hooks : p.options.NoHooks) (hm : source.2.Ordered)
    (hsupported : source.2.Supported)
    (hstep : ∀ k name, ∃ y,
      step p.around p.options k name ((p.state.table k).get? name) source = .ok y) :
    ∃ q, p.addManifest source = .ok q := by
  have hmade : ∀ k, ∃ made, (source.2.entries k).traverse (fun name =>
      elementOf p.around p.options source k name ((p.state.table k).get? name)) = .ok made := by
    intro k
    refine Entries.traverse_ok fun e he => ?_
    obtain ⟨y, hy⟩ := hstep k e.1
    rw [step, (Entries.get?_eq_some_iff (hm k).distinct).2 he] at hy
    obtain ⟨c, hc, -⟩ := Outcome.map_eq_ok_iff.1 hy
    exact ⟨c, hc⟩
  choose made hmade using hmade
  have hmerged : mergeManifest p.state.services p.around p.options source.1 source.2 =
      .ok ⟨source.2.version, .ofList (made .service), .ofList (made .volume),
        .ofList (made .network)⟩ :=
    (mergeManifest_eq_ok_iff hooks hm).2
      ⟨rfl, hsupported, made, fun k => ⟨hmade k, by cases k <;> rfl⟩⟩
  exact ⟨_, by rw [addManifest, hmerged]; rfl⟩

/-- A run takes its steps for every name on its own. -/
theorem steps_of_addManifests (hooks : p.options.NoHooks) (hms : ∀ source ∈ ms, source.2.Ordered)
    (h : p.addManifests ms = .ok q) :
    (∀ source ∈ ms, source.2.Supported) ∧ (q.around = p.around ∧ q.options = p.options) ∧
      ∀ k name, ms.foldlM (step p.around p.options k name) ((p.state.table k).get? name) =
        .ok ((q.state.table k).get? name) := by
  induction ms generalizing p with
  | nil =>
    cases h
    exact ⟨by simp, ⟨rfl, rfl⟩, fun k name => rfl⟩
  | cons source ms ih =>
    obtain ⟨hm, hms⟩ := List.forall_mem_cons.1 hms
    obtain ⟨p', hp', hrest⟩ := Outcome.bind_eq_ok_iff.1 h
    obtain ⟨hsupported, ⟨haround, hoptions⟩, hstep⟩ := step_of_addManifest hooks hm hp'
    obtain ⟨hsupported', ⟨haround', hoptions'⟩, hsteps⟩ := ih (hoptions ▸ hooks) hms hrest
    refine ⟨List.forall_mem_cons.2 ⟨hsupported, hsupported'⟩,
      ⟨haround'.trans haround, hoptions'.trans hoptions⟩, fun k name => ?_⟩
    rw [List.foldlM_cons, hstep k name, ← haround, ← hoptions]
    exact hsteps k name

/-- Where every name can take its steps, a run succeeds. -/
theorem addManifests_ok (hooks : p.options.NoHooks) (hms : ∀ source ∈ ms, source.2.Ordered)
    (hsupported : ∀ source ∈ ms, source.2.Supported)
    (hsteps : ∀ k name, ∃ y,
      ms.foldlM (step p.around p.options k name) ((p.state.table k).get? name) = .ok y) :
    ∃ q, p.addManifests ms = .ok q := by
  induction ms generalizing p with
  | nil => exact ⟨p, rfl⟩
  | cons source ms ih =>
    obtain ⟨hm, hms⟩ := List.forall_mem_cons.1 hms
    obtain ⟨hsupported, hsupported'⟩ := List.forall_mem_cons.1 hsupported
    obtain ⟨p', hp'⟩ := addManifest_ok hooks hm hsupported fun k name => by
      obtain ⟨y, hy⟩ := hsteps k name
      obtain ⟨x, hx, -⟩ := Outcome.bind_eq_ok_iff.1 hy
      exact ⟨x, hx⟩
    obtain ⟨-, ⟨haround, hoptions⟩, hstep⟩ := step_of_addManifest hooks hm hp'
    obtain ⟨q, hq⟩ := ih (hoptions ▸ hooks) hms hsupported' fun k name => by
      obtain ⟨y, hy⟩ := hsteps k name
      rw [List.foldlM_cons, hstep k name] at hy
      exact ⟨y, by rw [haround, hoptions]; exact hy⟩
    exact ⟨q, Outcome.bind_eq_ok_iff.2 ⟨p', hp', hq⟩⟩

end Project
end ComposeMerge
