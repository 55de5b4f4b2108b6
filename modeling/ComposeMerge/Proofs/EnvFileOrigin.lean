import ComposeMerge.Proofs.Run

/-!
# Where environment files are read

A service keeps the references to its environment files without the manifests that declare them.
When a later manifest is merged, all references in force are looked up again, from that manifest.

* `Reads` says which files a computation reads;
* `declarations` lists the references in force for a service, each with its manifest;
* `Origin.merge` and `origin_addAll` find these references in the stored service;
* `envFiles_read_from_merging_manifest` says which files a merge reads, and when these are the
  files that were declared.
-/

namespace ComposeMerge

open Entries (Sorted get?)
open Merging

/-! ### Which files are read -/

/-- A computation reads the files at some paths: no other file counts, and without one of them
there is no result. -/
structure Reads {α : Type} (run : FileSystem → Except Error α) (paths : List Path) : Prop where
  only : ∀ {files files'}, (∀ path ∈ paths, files.read path = files'.read path) →
    run files = run files'
  all : ∀ {files : FileSystem} {path failure}, path ∈ paths → files.read path = .error failure →
    ∃ e, run files = .error e

namespace Reads

variable {α : Type} {run : FileSystem → Except Error α} {paths paths' : List Path}

/-- A path whose file is needed is one of those that count. -/
theorem subset (h : Reads run paths) (h' : Reads run paths')
    (hok : ∃ files a, run files = .ok a) : ∀ path ∈ paths, path ∈ paths' := by
  obtain ⟨files, a, ha⟩ := hok
  intro path hpath
  by_contra hnot
  -- The files with this one taken away give the same result, and none.
  let without : FileSystem := { files with read := Function.update files.read path (.error .notFound) }
  have hsame : run without = run files := h'.only fun other hother => by
    refine Function.update_of_ne ?_ _ _
    rintro rfl
    exact hnot hother
  obtain ⟨e, he⟩ := h.all hpath (show without.read path = _ from Function.update_self ..)
  rw [hsame, ha] at he
  cases he

theorem of_mem_iff (h : Reads run paths) (hmem : ∀ path, path ∈ paths ↔ path ∈ paths') :
    Reads run paths' where
  only hagree := h.only fun path hpath => hagree path ((hmem path).1 hpath)
  all hpath := h.all ((hmem _).2 hpath)

/-- Where there is a result, the paths that are read are determined. -/
theorem iff_mem_iff (h : Reads run paths) (hok : ∃ files a, run files = .ok a) :
    Reads run paths' ↔ ∀ path, path ∈ paths ↔ path ∈ paths' :=
  ⟨fun h' path => ⟨h.subset h' hok path, h'.subset h hok path⟩, h.of_mem_iff⟩

end Reads

/-! ### Reading references -/

namespace EnvFile

/-- The references of a service. -/
def references (service : RawService) : Except Error (List String) :=
  match get? filesField service with
  | none => .ok []
  | some v => texts filesField v

variable {lookup lookup' : ResourceLookup} {file : Path}

theorem addFiles_congr {entries references : List String}
    (h : ∀ r ∈ references, lookup r file = lookup' r file) :
    addFiles lookup file entries references = addFiles lookup' file entries references := by
  induction references generalizing entries with
  | nil => rfl
  | cons r rest ih =>
    have hread : readFile lookup file r = readFile lookup' file r := by
      rw [readFile, readFile, h r (by simp)]
    rw [addFiles, addFiles, hread]
    cases readFile lookup' file r with
    | error e => rfl
    | ok content => exact ih fun r' hr' => h r' (by simp [hr'])

/-- Every reference that lines are added from was read. -/
theorem readFile_of_addFiles {entries references result : List String}
    (h : addFiles lookup file entries references = .ok result) :
    ∀ r ∈ references, ∃ content, readFile lookup file r = .ok content := by
  induction references generalizing entries with
  | nil => simp
  | cons r rest ih =>
    obtain ⟨content, hcontent, h⟩ := Outcome.bind_eq_ok_iff.1 h
    exact List.forall_mem_cons.2 ⟨⟨content, hcontent⟩, ih h⟩

/-- What is read for a reference is the file at the path that it leads to. -/
theorem readText_of_readFile {files : FileSystem} {env : Environment} {r : String}
    {content : List Char} (h : readFile (.fromFiles files env) file r = .ok content) :
    files.readText (ResourceLookup.resolve env r file) = .ok content := by
  obtain ⟨⟨bytes, path⟩, hbytes, h⟩ := Outcome.bind_eq_ok_iff.1 h
  rw [Outcome.mapError_eq_ok_iff] at h
  unfold ResourceLookup.fromFiles at hbytes
  dsimp only at hbytes
  split at hbytes
  · next bytes' hread =>
    cases hbytes
    rw [FileSystem.readText, hread]
    exact Outcome.mapError_eq_ok_iff.2 h
  · cases hbytes

/-- Reading files leaves a service without references alone, and otherwise sets its environment. -/
theorem resolveEnvFiles_eq (lookup : Option ResourceLookup) (service : RawService) :
    resolveEnvFiles lookup file service =
      (references service).bind fun refs =>
        if refs.isEmpty then .ok service
        else lookup.elim (.error (.resource file .noLookup)) fun lookup =>
          (ownEntries service).bind fun own =>
            (addFiles lookup file own refs.reverse).map fun entries =>
              service.insert environmentField (.strings entries) := by
  unfold resolveEnvFiles references
  cases get? filesField service <;> cases lookup <;> rfl

theorem resolveEnvFiles_some (service : RawService) :
    resolveEnvFiles (some lookup) file service =
      (references service).bind fun refs =>
        if refs.isEmpty then .ok service
        else (ownEntries service).bind fun own =>
          (addFiles lookup file own refs.reverse).map fun entries =>
            service.insert environmentField (.strings entries) :=
  resolveEnvFiles_eq (some lookup) service

/-- A service whose files were read has a file at the path of every reference. -/
theorem readText_of_resolveEnvFiles {files : FileSystem} {env : Environment}
    {service result : RawService}
    (h : resolveEnvFiles (some (.fromFiles files env)) file service = .ok result) :
    ∃ refs, references service = .ok refs ∧ ∀ r ∈ refs,
      ∃ content, files.readText (ResourceLookup.resolve env r file) = .ok content := by
  rw [resolveEnvFiles_some] at h
  obtain ⟨refs, hrefs, h⟩ := Outcome.bind_eq_ok_iff.1 h
  refine ⟨refs, hrefs, fun r hr => ?_⟩
  rw [if_neg (by simpa using List.ne_nil_of_mem hr)] at h
  obtain ⟨own, -, h⟩ := Outcome.bind_eq_ok_iff.1 h
  obtain ⟨entries, hentries, -⟩ := Outcome.map_eq_ok_iff.1 h
  obtain ⟨content, hcontent⟩ := readFile_of_addFiles hentries r (by simpa using hr)
  exact ⟨content, readText_of_readFile hcontent⟩

end EnvFile

/-- A reference leads to the same path from all manifests of a directory. -/
theorem ResourceLookup.resolve_congr (env : Environment) (reference : String) {m m' : Path}
    (h : Path.parent? m = Path.parent? m') : resolve env reference m = resolve env reference m' := by
  unfold resolve resolveBeside
  rw [h]

/-! ### Declarations -/

/-- A reference with the manifest that declares it. -/
structure EnvFileDeclaration where
  reference : String
  manifest : Path

/-- The path that a reference leads to from the manifest that declares it. -/
def EnvFileDeclaration.path (env : Environment) (d : EnvFileDeclaration) : Path :=
  ResourceLookup.resolve env d.reference d.manifest

/-- The declarations in force after a manifest has laid fields over a service: a list of files is
added to the ones before, and any other value takes their place. -/
def declare (declared : List EnvFileDeclaration) (manifest : Path) (fields : RawService) :
    List EnvFileDeclaration :=
  match get? EnvFile.filesField fields with
  | none => declared
  | some v =>
    let own := ((EnvFile.texts EnvFile.filesField v).toOption.getD []).map
      (EnvFileDeclaration.mk · manifest)
    if v.isSequence then declared ++ own else own

section Declare

variable {declared : List EnvFileDeclaration} {manifest : Path} {fields : RawService}

theorem declare_of_none (h : get? EnvFile.filesField fields = none) :
    declare declared manifest fields = declared := by
  rw [declare, h]

/-- A single value takes the place of all declarations. -/
theorem declare_of_scalar {x : Scalar} (h : get? EnvFile.filesField fields = some (.scalar x))
    {refs : List String} (hrefs : EnvFile.texts EnvFile.filesField (.scalar x) = .ok refs) :
    declare declared manifest fields = refs.map (EnvFileDeclaration.mk · manifest) := by
  rw [declare, h]
  dsimp only
  rw [hrefs]
  rfl

/-- A list of files adds to the declarations. -/
theorem declare_of_sequence {vs : List Value}
    (h : get? EnvFile.filesField fields = some (.sequence vs)) {refs : List String}
    (hrefs : EnvFile.texts EnvFile.filesField (.sequence vs) = .ok refs) :
    declare declared manifest fields = declared ++ refs.map (EnvFileDeclaration.mk · manifest) := by
  rw [declare, h]
  dsimp only
  rw [hrefs]
  rfl

/-- Each declaration is an earlier one, or one of the manifest. -/
theorem mem_declare {d : EnvFileDeclaration} (h : d ∈ declare declared manifest fields) :
    d ∈ declared ∨ d.manifest = manifest := by
  unfold declare at h
  split at h
  · exact .inl h
  · next v _ =>
    have hown : ∀ l : List String, d ∈ l.map (EnvFileDeclaration.mk · manifest) →
        d.manifest = manifest := by
      intro l hd
      obtain ⟨r, -, rfl⟩ := List.mem_map.1 hd
      rfl
    dsimp only at h
    split at h
    · exact (List.mem_append.1 h).imp_right (hown _)
    · exact .inr (hown _ h)

end Declare

/-- The declarations in force after some definitions. -/
def declarations (definitions : List (Path × RawService)) : List EnvFileDeclaration :=
  definitions.foldl (fun declared d => declare declared d.1 d.2) []

theorem declarations_concat (done : List (Path × RawService)) (path : Path)
    (fields : RawService) :
    declarations (done ++ [(path, fields)]) = declare (declarations done) path fields := by
  simp [declarations]

/-- The references of a list of files as it is stored. -/
theorem texts_strings (l : List String) :
    EnvFile.texts EnvFile.filesField (.strings l) = .ok l := by
  show (l.map Value.string).mapM (EnvFile.itemText EnvFile.filesField) = .ok l
  exact Slot.mapM_strings (fun _ => rfl) l

/-- A list of files that can be read as a setting has these references. -/
theorem texts_of_read {v : Value} {l : List String}
    (h : FieldKind.list.slot.read (some v) = .ok l) :
    EnvFile.texts EnvFile.filesField v = .ok l := by
  cases v with
  | scalar x => cases x <;> cases h <;> rfl
  | mapping es => cases h
  | sequence vs =>
    refine Outcome.mapM_eq_ok_of_imp (fun {v t} hv => ?_) (isList_list.read_sequence.1 h)
    cases v with
    | scalar x => cases x <;> cases hv <;> rfl
    | _ => cases hv

/-- The references of a service are those that it is read to have. -/
theorem references_of_read {fields : RawService} {l : List String}
    (h : FieldKind.list.slot.read (get? EnvFile.filesField fields) = .ok l) :
    EnvFile.references fields = .ok l := by
  unfold EnvFile.references
  cases hget : get? EnvFile.filesField fields with
  | none =>
    rw [hget] at h
    exact congrArg Except.ok (Except.ok.inj h)
  | some v =>
    rw [hget] at h
    exact texts_of_read h

/-- The references in force are those of the declarations in force. -/
theorem references_overlay {x : ServiceConfig} {fields : RawService} (hfields : Sorted fields)
    {declared : List EnvFileDeclaration}
    (hx : x.get .envFile = declared.map EnvFileDeclaration.reference) {refs : List String}
    (h : EnvFile.references (overlayService x.toRaw fields) = .ok refs) (manifest : Path) :
    (declare declared manifest fields).map EnvFileDeclaration.reference = refs := by
  have hslot : get? EnvFile.filesField (overlayService x.toRaw fields) =
      overlaySlot EnvFile.filesField
        (FieldKind.list.slot.write (declared.map EnvFileDeclaration.reference))
        (get? EnvFile.filesField fields) := by
    rw [← hx]
    exact get?_overlayService_toRaw x hfields .envFile
  have hown : ∀ l : List String,
      (l.map (EnvFileDeclaration.mk · manifest)).map EnvFileDeclaration.reference = l := by
    intro l
    simp [Function.comp_def]
  rw [EnvFile.references, hslot] at h
  generalize hl : declared.map EnvFileDeclaration.reference = l at h
  -- The cases are those of `declare`: no value, a value that takes over, and a list that is added.
  cases hget : get? EnvFile.filesField fields with
  | none =>
    rw [hget, overlaySlot_none_right] at h
    rw [declare_of_none hget, hl]
    rcases isList_list.write_eq l with ⟨rfl, hw⟩ | hw
    · rw [hw] at h
      cases h
      rfl
    · rw [hw] at h
      exact Except.ok.inj ((texts_strings l).symm.trans h)
  | some v =>
    rw [hget] at h
    cases v with
    | mapping es =>
      rw [isList_list.overlay_of_replaces l (.inr (by simp))] at h
      cases h
    | scalar x =>
      rw [isList_list.overlay_of_replaces l (.inr (by simp))] at h
      rw [declare_of_scalar hget h, hown]
    | sequence vs =>
      rcases isList_list.write_eq l with ⟨rfl, hw⟩ | hw
      · rw [hw, overlaySlot_none_left] at h
        rw [declare_of_sequence hget h, List.map_append, hl, hown, List.nil_append]
      · rw [hw, overlaySlot_some, Value.strings, overlay_sequence] at h
        obtain ⟨l', own, hl', hown', rfl⟩ := Outcome.mapM_append_eq_ok_iff.1
          (show (l.map Value.string ++ vs).mapM (EnvFile.itemText EnvFile.filesField) = .ok refs
            from h)
        rw [declare_of_sequence hget hown', List.map_append, hl, hown,
          Except.ok.inj ((texts_strings l).symm.trans hl')]

/-! ### Merges and runs -/

section Merge

variable {x c : ServiceConfig} {fields : RawService} {declared : List EnvFileDeclaration}
  {env : Environment} {file : Path} {name : String}

/-- After a merge there is a file at the path of every reference in force, seen from the manifest
that is merged. -/
theorem readText_of_mergeOnto {files : FileSystem} (hfields : Sorted fields)
    (hx : x.get .envFile = declared.map EnvFileDeclaration.reference)
    (hc : mergeOnto x (some (.fromFiles files env)) file name fields = .ok c) :
    ∀ d ∈ declare declared file fields, ∃ content,
      files.readText (ResourceLookup.resolve env d.reference file) = .ok content := by
  obtain ⟨resolved, hresolved, -⟩ := Outcome.bind_eq_ok_iff.1 hc
  obtain ⟨refs, hrefs, hread⟩ := EnvFile.readText_of_resolveEnvFiles hresolved
  intro d hd
  refine hread d.reference ?_
  rw [← references_overlay hfields hx hrefs file]
  exact List.mem_map_of_mem hd

/-- A merge reads all references in force from the manifest that is merged. -/
theorem reads_mergeOnto (hfields : Sorted fields)
    (hx : x.get .envFile = declared.map EnvFileDeclaration.reference) :
    Reads (fun files => mergeOnto x (some (.fromFiles files env)) file name fields)
      ((declare declared file fields).map fun d =>
        ResourceLookup.resolve env d.reference file) where
  only {files files'} hagree := by
    have hresolve : resolveEnvFiles (some (.fromFiles files env)) file
        (overlayService x.toRaw fields) =
          resolveEnvFiles (some (.fromFiles files' env)) file (overlayService x.toRaw fields) := by
      rw [EnvFile.resolveEnvFiles_some, EnvFile.resolveEnvFiles_some]
      cases hrefs : EnvFile.references (overlayService x.toRaw fields) with
      | error e => rfl
      | ok refs =>
        have hforce := references_overlay hfields hx hrefs file
        have hadd : ∀ own, EnvFile.addFiles (.fromFiles files env) file own refs.reverse =
            EnvFile.addFiles (.fromFiles files' env) file own refs.reverse := by
          refine fun own => EnvFile.addFiles_congr fun r hr => ?_
          rw [List.mem_reverse, ← hforce] at hr
          obtain ⟨d, hd, rfl⟩ := List.mem_map.1 hr
          simp only [ResourceLookup.fromFiles, hagree _ (List.mem_map.2 ⟨d, hd, rfl⟩)]
        simp only [Except.bind, hadd]
    show mergeOnto x _ file name fields = mergeOnto x _ file name fields
    rw [mergeOnto, mergeOnto, hresolve]
  all {files path failure} hpath hfailure := by
    obtain ⟨d, hd, rfl⟩ := List.mem_map.1 hpath
    cases hc : mergeOnto x (some (.fromFiles files env)) file name fields with
    | error e => exact ⟨e, rfl⟩
    | ok c =>
      obtain ⟨content, hcontent⟩ := readText_of_mergeOnto hfields hx hc d hd
      rw [FileSystem.readText, hfailure] at hcontent
      cases hcontent

/-- After a merge the service keeps the references in force. -/
theorem envFile_mergeOnto {lookup : Option ResourceLookup} (hfields : Sorted fields)
    (hx : x.get .envFile = declared.map EnvFileDeclaration.reference)
    (hc : mergeOnto x lookup file name fields = .ok c) :
    c.get .envFile = (declare declared file fields).map EnvFileDeclaration.reference := by
  have hread := get_mergeOnto hfields hc (f := .envFile) (by decide)
  rw [← get?_overlayService_toRaw x hfields] at hread
  exact (references_overlay hfields hx (references_of_read hread) file).symm

end Merge

/-- The references in force for a stored service: they are the ones it keeps, and there is a file
at the path of each, seen from the manifest that declares it. -/
structure Origin (host : Host) (definitions : List (Path × RawService)) (x : ServiceConfig) :
    Prop where
  references : x.get .envFile = (declarations definitions).map EnvFileDeclaration.reference
  readable : ∀ d ∈ declarations definitions,
    ∃ content, host.files.readText (d.path host.environment) = .ok content

namespace Origin

variable {host : Host} {done : List (Path × RawService)} {x c : ServiceConfig} {path : Path}
  {name : String} {fields : RawService}

theorem empty (host : Host) : Origin host [] .empty where
  references := rfl
  readable := by simp [declarations]

/-- One more merge keeps track of the declarations. -/
theorem merge (h : Origin host done x) (hfields : Sorted fields)
    (hc : mergeOnto x (some (Project.fileLookup host)) path name fields = .ok c) :
    Origin host (done ++ [(path, fields)]) (adjustService c) where
  references := by
    rw [declarations_concat, get_adjustService_of_ne c (by decide)]
    exact envFile_mergeOnto hfields h.references hc
  readable d hd := by
    rw [declarations_concat] at hd
    rcases mem_declare hd with hd' | hpath
    · exact h.readable d hd'
    · rw [EnvFileDeclaration.path, hpath]
      exact readText_of_mergeOnto hfields h.references hc d hd

end Origin

/-- After a run the references of every service are known, with their manifests. -/
theorem origin_addAll {host : Host} {p q : Project} {sources : List (Path × Except Error Bytes)}
    (hooks : p.options.NoHooks) (hempty : p.state.services = .empty)
    (hfiles : p.around.resources = some (Project.fileLookup host))
    (hrun : p.addAll sources = (q, .ok ())) (s : String) :
    Origin host (p.definitions s sources) ((q.state.services.get? s).getD .empty) := by
  have hstart : Origin host [] ((p.state.services.get? s).getD .empty) := by
    rw [hempty]
    exact Origin.empty host
  refine Project.addAll_service hooks hrun s (fun done x => Origin host done (x.getD .empty))
    (fun {done x path fields c} h hfields hc => ?_) [] hstart
  rw [hfiles] at hc
  exact h.merge hfields.sorted hc

/-- **Where environment files are read.** In a run with files of the host, let a manifest `file`
define a service. The merge reads all references in force for the service, seen from `file`. So it
reads the files that were declared just when these are the same paths, for instance when all the
manifests lie in one directory; then no earlier reference is in its way. -/
theorem envFiles_read_from_merging_manifest {host : Host} {p q : Project}
    {sources : List (Path × Except Error Bytes)} {content : Except Error Bytes}
    {s : String} {fields : RawService} (hooks : p.options.NoHooks)
    (hempty : p.state.services = .empty)
    (hfiles : p.around.resources = some (Project.fileLookup host))
    (hrun : p.addAll sources = (q, .ok ()))
    (hdef : definition p.around.environment p.options s content = .ok (some fields))
    (file : Path) :
    let earlier := declarations (p.definitions s sources)
    let inForce := declarations (p.definitions s sources ++ [(file, fields)])
    let seenFrom := fun (manifest : Path) (d : EnvFileDeclaration) =>
      ResourceLookup.resolve host.environment d.reference manifest
    let merge := fun files : FileSystem =>
      mergeService q.state.services (some (.fromFiles files host.environment)) file s fields
    Reads merge (inForce.map (seenFrom file)) ∧
      ((∃ files c, merge files = .ok c) →
        (Reads merge (inForce.map (·.path host.environment)) ↔ ∀ path,
          path ∈ inForce.map (seenFrom file) ↔ path ∈ inForce.map (·.path host.environment))) ∧
      ((∀ d ∈ inForce, Path.parent? d.manifest = Path.parent? file) →
        Reads merge (inForce.map (·.path host.environment))) ∧
      ∀ d ∈ earlier, seenFrom file d = d.path host.environment →
        ∃ text, host.files.readText (seenFrom file d) = .ok text := by
  intro earlier inForce seenFrom merge
  have hcanonical := canonical_definition hooks.preprocess hdef
  have horigin := origin_addAll hooks hempty hfiles hrun s
  have hreads : Reads merge (inForce.map (seenFrom file)) := by
    have hforce : inForce = declare earlier file fields := declarations_concat ..
    have hmerge : merge = fun files => mergeOnto ((q.state.services.get? s).getD .empty)
        (some (.fromFiles files host.environment)) file s fields :=
      funext fun files => mergeService_eq_mergeOnto _ _ _ _ hcanonical.sorted
    rw [hforce, hmerge]
    exact reads_mergeOnto hcanonical.sorted horigin.references
  -- In one directory the paths seen from `file` and from the declaring manifests are the same.
  refine ⟨hreads, fun hok => hreads.iff_mem_iff hok, fun hparent => ?_, fun d hd hsame => ?_⟩
  · have hpaths : inForce.map (seenFrom file) = inForce.map (·.path host.environment) := by
      refine List.map_congr_left fun d hd => ?_
      exact ResourceLookup.resolve_congr _ _ (hparent d hd).symm
    rwa [hpaths] at hreads
  · rw [hsame]
    exact horigin.readable d hd

/-- A host with one file of variables. -/
def hostWithVariables : Host :=
  ⟨.empty, FileTree.fileSystem
    ⟨.directory [("a", .directory [("web.env", .file "A=1\n".toUTF8.toList)])], []⟩⟩

/-- A manifest that declares the file of variables, beside it. -/
def declaringManifest : Path × Except Error Bytes :=
  ("a/one.yml", .ok "version: \"2\"\nservices:\n  web:\n    env_file: web.env\n".toUTF8.toList)

/-- A manifest that defines the same service without a file of variables. -/
def redefiningManifest : Except Error Bytes :=
  .ok "version: \"2\"\nservices:\n  web:\n    image: app\n".toUTF8.toList

/-- From the directory of the declaring manifest, the declared file is read. -/
theorem envFile_read_in_one_directory :
    let p := Project.ofName hostWithVariables "demo"
    ∃ q fields, p.addAll [declaringManifest] = (q, .ok ()) ∧
      definition p.around.environment p.options "web" redefiningManifest = .ok (some fields) ∧
      Reads (fun files => mergeService q.state.services
        (some (.fromFiles files hostWithVariables.environment)) "a/two.yml" "web" fields)
        ["a/web.env"] := by
  intro p
  have hrun : p.addAll [declaringManifest] = ((p.addAll [declaringManifest]).1, .ok ()) :=
    Prod.ext rfl (by decide +kernel)
  have hdefined : (definition p.around.environment p.options "web"
      redefiningManifest).toOption.join.isSome = true := by decide +kernel
  have hdef := Outcome.eq_ok_some_of_isSome hdefined []
  have h := envFiles_read_from_merging_manifest ⟨rfl, rfl⟩ rfl rfl hrun hdef "a/two.yml"
  refine ⟨_, _, hrun, hdef, ?_⟩
  convert h.1 using 1
  decide +kernel

/-- From another directory, the declared file is not found and the run fails. -/
theorem envFile_lost_in_other_directory :
    ((Project.ofName hostWithVariables "demo").addAll
      [declaringManifest, ("b/two.yml", redefiningManifest)]).2 =
        .error (.resource "b/two.yml" (.unreadable "b/web.env" .notFound)) := by
  decide +kernel

end ComposeMerge
