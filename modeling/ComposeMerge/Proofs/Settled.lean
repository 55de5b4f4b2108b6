import ComposeMerge.Proofs.EnvFileOrigin
import ComposeMerge.Proofs.NameByName

/-!
# Settled services

A service that is stored has been merged to the end: merging it once more, with nothing new, gives
the same service. All its environment files are read once more then, on top of the entries that
came from them before.

* `EnvFile.addFiles_again`: reading files a second time adds nothing, since every line of them is
  claimed by then;
* `FilesRead` says so of a service, and `filesRead_mergeOnto` has it after every merge;
* `Settled.mergeOn_nil` and `Settled.mergeOn_toRaw` say that a settled service stays when nothing
  is laid over it, and that it is read from its raw form;
* `settled_of_addAll`: a run leaves settled services behind.
-/

namespace ComposeMerge

open Entries (Sorted get?)

/-! ### Claimed lines -/

namespace EnvFile

variable {entries entries' : List String} {line : List Char}

theorem keyPart_isPrefix (line : List Char) : keyPart line <+: line := by
  unfold keyPart
  split
  · next key value h =>
    rw [(Text.splitFirst_eq_some_iff.1 h).2]
    exact ⟨value, by simp⟩
  · exact List.prefix_refl line

theorem isClaimed_iff :
    isClaimed entries line = true ↔ ∃ entry ∈ entries, keyPart line <+: entry.toList := by
  simp only [isClaimed, List.any_eq_true, Text.startsWith_iff]

/-- A claim stays when entries are added. -/
theorem isClaimed_extend (h : entries <+: entries') (hline : isClaimed entries line = true) :
    isClaimed entries' line = true := by
  obtain ⟨entry, hentry, hkey⟩ := isClaimed_iff.1 hline
  exact isClaimed_iff.2 ⟨entry, h.subset hentry, hkey⟩

theorem addLine_of_isClaimed (h : isClaimed entries line = true) : addLine entries line = entries :=
  if_pos h

theorem prefix_addLine (entries : List String) (line : List Char) :
    entries <+: addLine entries line := by
  unfold addLine
  split
  · exact List.prefix_refl entries
  · exact List.prefix_append entries _

/-- A line that is added claims its own key. -/
theorem isClaimed_addLine (entries : List String) (line : List Char) :
    isClaimed (addLine entries line) line = true := by
  unfold addLine
  split
  · assumption
  · exact isClaimed_iff.2 ⟨String.ofList line, by simp, by simpa using keyPart_isPrefix line⟩

/-- Every line of a file is claimed. -/
def Claimed (entries : List String) (content : List Char) : Prop :=
  ∀ line ∈ entryLines content, isClaimed entries line = true

theorem foldl_addLine (entries : List String) (lines : List (List Char)) :
    entries <+: lines.foldl addLine entries ∧
      ∀ line ∈ lines, isClaimed (lines.foldl addLine entries) line = true := by
  induction lines generalizing entries with
  | nil => simp
  | cons line lines ih =>
    obtain ⟨hkept, hclaimed⟩ := ih (addLine entries line)
    exact ⟨(prefix_addLine entries line).trans hkept,
      List.forall_mem_cons.2 ⟨isClaimed_extend hkept (isClaimed_addLine entries line), hclaimed⟩⟩

theorem foldl_addLine_of_isClaimed {lines : List (List Char)}
    (h : ∀ line ∈ lines, isClaimed entries line = true) : lines.foldl addLine entries = entries := by
  induction lines with
  | nil => rfl
  | cons line lines ih =>
    obtain ⟨hline, hlines⟩ := List.forall_mem_cons.1 h
    rw [List.foldl_cons, addLine_of_isClaimed hline, ih hlines]

variable {lookup : ResourceLookup} {file file' : Path} {references : List String}

/-- Reading files adds to the entries, and claims every line of the files. -/
theorem claimed_addFiles (h : addFiles lookup file entries references = .ok entries') :
    entries <+: entries' ∧ ∀ r ∈ references, ∀ content,
      readFile lookup file r = .ok content → Claimed entries' content := by
  induction references generalizing entries with
  | nil =>
    cases h
    simp
  | cons r references ih =>
    obtain ⟨content, hcontent, h⟩ := Outcome.bind_eq_ok_iff.1 h
    obtain ⟨hadded, hclaimed⟩ := foldl_addLine entries (entryLines content)
    obtain ⟨hkept, hrest⟩ := ih h
    refine ⟨hadded.trans hkept, List.forall_mem_cons.2 ⟨fun content' hcontent' => ?_, hrest⟩⟩
    cases hcontent.symm.trans hcontent'
    exact fun line hline => isClaimed_extend hkept (hclaimed line hline)

/-- Files whose lines are all claimed add nothing. -/
theorem addFiles_of_claimed
    (h : ∀ r ∈ references, ∃ content, readFile lookup file r = .ok content ∧
      Claimed entries content) : addFiles lookup file entries references = .ok entries := by
  induction references with
  | nil => rfl
  | cons r references ih =>
    obtain ⟨⟨content, hcontent, hclaimed⟩, hrest⟩ := List.forall_mem_cons.1 h
    rw [addFiles, hcontent, Outcome.bind_ok, addLines, foldl_addLine_of_isClaimed hclaimed]
    exact ih hrest

/-- Read a second time, files with the same content add nothing. -/
theorem addFiles_again (hsame : ∀ r ∈ references, ∀ content,
      readFile lookup file r = .ok content → readFile lookup file' r = .ok content)
    (h : addFiles lookup file entries references = .ok entries') :
    addFiles lookup file' entries' references = .ok entries' := by
  refine addFiles_of_claimed fun r hr => ?_
  obtain ⟨content, hcontent⟩ := readFile_of_addFiles h r hr
  exact ⟨content, hsame r hr content hcontent, (claimed_addFiles h).2 r hr content hcontent⟩

end EnvFile

/-! ### Services whose files have been read -/

/-- What is found for a reference in one manifest is found for it in every manifest. -/
def ResourceLookup.Steady (lookup : ResourceLookup) : Prop :=
  ∀ ⦃reference manifest content path⦄, lookup reference manifest = .ok (content, path) →
    ∀ manifest', ∃ path', lookup reference manifest' = .ok (content, path')

theorem ResourceLookup.steady_fromMemory (contents : Entries Bytes) :
    (fromMemory contents).Steady := by
  intro reference manifest content path h manifest'
  unfold fromMemory at h
  split at h
  · next hcontent =>
    cases h
    exact ⟨reference, by rw [fromMemory, hcontent]⟩
  · cases h

theorem EnvFile.readFile_of_steady {lookup : ResourceLookup} (hsteady : lookup.Steady)
    {file : Path} {reference : String} {content : List Char}
    (h : readFile lookup file reference = .ok content) (file' : Path) :
    readFile lookup file' reference = .ok content := by
  obtain ⟨⟨bytes, path⟩, hbytes, h⟩ := Outcome.bind_eq_ok_iff.1 h
  obtain ⟨path', hpath'⟩ := hsteady hbytes file'
  rw [Outcome.mapError_eq_ok_iff] at h
  exact Outcome.bind_eq_ok_iff.2 ⟨(bytes, path'), hpath', Outcome.mapError_eq_ok_iff.2 h⟩

/-- Reading the environment files of a service adds nothing to its environment. -/
def FilesRead (lookup : Option ResourceLookup) (c : ServiceConfig) : Prop :=
  c.get .envFile = [] ∨ ∃ l ∈ lookup, ∀ file,
    EnvFile.addFiles l file (c.get .environment) (c.get .envFile).reverse =
      .ok (c.get .environment)

open Merging

variable {lookup : Option ResourceLookup} {x c : ServiceConfig} {file : Path} {name : String}
  {fields : RawService}

theorem EnvFile.references_toRaw (c : ServiceConfig) : references c.toRaw = .ok (c.get .envFile) := by
  refine ComposeMerge.references_of_read ?_
  rw [show filesField = ServiceField.envFile.key from rfl, c.get?_toRaw]
  exact isList_list.sound.read_write _

/-- The entries of a list of texts are the texts. -/
theorem EnvFile.ownEntries_toRaw (c : ServiceConfig) :
    ownEntries c.toRaw = .ok (c.get .environment) := by
  have hwritten : get? environmentField c.toRaw =
      FieldKind.pairs.slot.write (c.get .environment) := c.get?_toRaw .environment
  unfold ownEntries
  rcases isList_pairs.write_eq (c.get .environment) with ⟨hnil, hw⟩ | hw
  · rw [hwritten, hw]
    exact congrArg Except.ok hnil.symm
  · rw [hwritten, hw]
    exact Slot.mapM_strings (fun _ => rfl) (c.get .environment)

theorem EnvFile.resolveEnvFiles_eq_ok_iff {result : RawService} :
    resolveEnvFiles lookup file fields = .ok result ↔
      ∃ refs, references fields = .ok refs ∧
        (refs = [] ∧ result = fields ∨
          refs ≠ [] ∧ ∃ l ∈ lookup, ∃ own entries, ownEntries fields = .ok own ∧
            addFiles l file own refs.reverse = .ok entries ∧
            result = fields.insert environmentField (.strings entries)) := by
  rw [resolveEnvFiles_eq]
  refine Outcome.bind_eq_ok_iff.trans (exists_congr fun refs => and_congr_right fun _ => ?_)
  cases refs with
  | nil => simp [eq_comm]
  | cons r refs =>
    cases lookup with
    | none => simp
    | some l =>
      constructor
      · intro h
        obtain ⟨own, hown, h⟩ := Outcome.bind_eq_ok_iff.1 h
        obtain ⟨entries, hentries, rfl⟩ := Outcome.map_eq_ok_iff.1 h
        exact .inr ⟨List.cons_ne_nil r refs, l, rfl, own, entries, hown, hentries, rfl⟩
      · rintro (⟨hnil, -⟩ | ⟨-, _, ⟨⟩, own, entries, hown, hentries, rfl⟩)
        · cases hnil
        · exact Outcome.bind_eq_ok_iff.2
            ⟨own, hown, Outcome.map_eq_ok_iff.2 ⟨entries, hentries, rfl⟩⟩

/-- The environment that is set is read again. -/
theorem EnvFile.environment_of_read {entries : List String} {fields : RawService}
    (hfields : Sorted fields)
    (h : ServiceConfig.read (fields.insert environmentField (.strings entries)) = .ok c) :
    c.get .environment = entries := by
  have hread := (ServiceConfig.read_eq_ok_iff (hfields.insert _ _)).1 h .environment
  rw [show environmentField = ServiceField.environment.key from rfl, Entries.get?_insert_self]
    at hread
  refine Except.ok.inj (hread.symm.trans ?_)
  exact isList_pairs.read_strings entries

/-- A service with its environment written out, perhaps as an empty list, is the same service. -/
theorem ServiceConfig.read_insert_environment (c : ServiceConfig) :
    read (c.toRaw.insert EnvFile.environmentField (.strings (c.get .environment))) = .ok c := by
  refine (read_eq_ok_iff (c.canonical_toRaw.sorted.insert _ _)).2 fun f => ?_
  by_cases hf : f = .environment
  · subst hf
    rw [show EnvFile.environmentField = ServiceField.environment.key from rfl,
      Entries.get?_insert_self]
    exact isList_pairs.read_strings _
  · have hkey : f.key ≠ EnvFile.environmentField :=
      fun hkey => hf (ServiceField.key_injective (g := .environment) hkey)
    rw [Entries.get?_insert_of_ne hkey, c.get?_toRaw]
    exact f.kind.sound_slot.read_write _

/-- Where the files of a service have been read, reading them gives the service again. -/
theorem FilesRead.read_again (h : FilesRead lookup c) (file : Path) :
    ∃ fields, resolveEnvFiles lookup file c.toRaw = .ok fields ∧
      ServiceConfig.read fields = .ok c := by
  by_cases hnil : c.get .envFile = []
  · exact ⟨c.toRaw, EnvFile.resolveEnvFiles_eq_ok_iff.2
      ⟨_, EnvFile.references_toRaw c, .inl ⟨hnil, rfl⟩⟩, c.read_toRaw⟩
  · obtain ⟨l, hl, hadd⟩ := h.resolve_left hnil
    exact ⟨_, EnvFile.resolveEnvFiles_eq_ok_iff.2 ⟨_, EnvFile.references_toRaw c,
      .inr ⟨hnil, l, hl, _, _, EnvFile.ownEntries_toRaw c, hadd file, rfl⟩⟩,
      c.read_insert_environment⟩

/-- A merge reads all files of the service. -/
theorem filesRead_mergeOnto (hsteady : ∀ l ∈ lookup, ResourceLookup.Steady l)
    (hfields : Sorted fields) (hc : mergeOnto x lookup file name fields = .ok c) :
    FilesRead lookup c := by
  have hfiles := get_mergeOnto hfields hc (f := .envFile) (by decide)
  rw [← get?_overlayService_toRaw x hfields] at hfiles
  obtain ⟨resolved, hresolved, hread⟩ := Outcome.bind_eq_ok_iff.1 hc
  rw [convert, Outcome.mapError_eq_ok_iff] at hread
  obtain ⟨refs, hrefs, ⟨hnil, -⟩ | ⟨-, l, hl, own, entries, -, hadd, rfl⟩⟩ :=
    EnvFile.resolveEnvFiles_eq_ok_iff.1 hresolved
  · cases hrefs.symm.trans (references_of_read hfiles)
    exact .inl hnil
  · cases hrefs.symm.trans (references_of_read hfiles)
    have henvironment := EnvFile.environment_of_read (sorted_overlayService_toRaw x fields) hread
    refine .inr ⟨l, hl, fun file' => ?_⟩
    rw [henvironment]
    exact EnvFile.addFiles_again
      (fun r _ content hcontent => EnvFile.readFile_of_steady (hsteady l hl) hcontent file') hadd

/-! ### Settled services -/

/-- Nothing is left to do for a service: its files have been read and its values are adjusted. -/
structure Settled (lookup : Option ResourceLookup) (c : ServiceConfig) : Prop where
  filesRead : FilesRead lookup c
  adjusted : adjustService c = c

theorem adjustService_adjustService (c : ServiceConfig) :
    adjustService (adjustService c) = adjustService c := by
  refine ServiceConfig.ext fun f => ?_
  by_cases hf : f = .restart
  · subst hf
    exact (restart_adjustService _).trans
      ((congrArg adjustPolicy (restart_adjustService c)).trans
        ((adjustPolicy_adjustPolicy _).trans (restart_adjustService c).symm))
  · rw [get_adjustService_of_ne _ hf]

/-- What is stored after a merge is settled. -/
theorem settled_mergeOnto (hsteady : ∀ l ∈ lookup, ResourceLookup.Steady l)
    (hfields : Sorted fields) (hc : mergeOnto x lookup file name fields = .ok c) :
    Settled lookup (adjustService c) where
  filesRead := by
    have h := filesRead_mergeOnto hsteady hfields hc
    unfold FilesRead at h ⊢
    rwa [get_adjustService_of_ne c (by decide), get_adjustService_of_ne c (by decide)]
  adjusted := adjustService_adjustService c

/-- A settled service stays when nothing is laid over it. -/
theorem Settled.mergeOn_nil (h : Settled lookup c) (file : Path) (name : String) :
    mergeOn (some c) lookup file name [] = .ok c := by
  obtain ⟨fields, hfields, hread⟩ := h.filesRead.read_again file
  rw [mergeOn, layOn, overlayService, overlayEntries, hfields, Outcome.bind_ok, convert, hread]
  rfl

/-- A settled service is read from its raw form. -/
theorem Settled.mergeOn_toRaw (h : Settled lookup c) (file : Path) (name : String) :
    mergeOn none lookup file name c.toRaw = .ok c := by
  obtain ⟨fields, hfields, hread⟩ := h.filesRead.read_again file
  rw [mergeOn, layOn, hfields, Outcome.bind_ok, convert, hread]
  rfl

/-- After a run every stored service is settled. -/
theorem settled_of_addAll {p q : Project} {sources : List (Path × Except Error Bytes)}
    (hooks : p.options.NoHooks) (hempty : p.state.services = .empty)
    (hsteady : ∀ l ∈ p.around.resources, ResourceLookup.Steady l)
    (hrun : p.addAll sources = (q, .ok ())) {s : String} (hc : q.state.services.get? s = some c) :
    Settled p.around.resources c := by
  refine Project.addAll_service hooks hrun s (fun _ x => ∀ c ∈ x, Settled p.around.resources c)
    (fun _ hfields hmerge c hadjusted => ?_) [] (fun c h => ?_) c hc
  · cases hadjusted
    exact settled_mergeOnto hsteady hfields.sorted hmerge
  · rw [hempty] at h
    cases h

namespace Project

/-- A project with a file in memory. -/
def withFile : Project :=
  { bare with around := ⟨.empty, some (.fromMemory [("app.env", "A=1\nB=1\n".toUTF8.toList)])⟩ }

/-- Two services, one of which has the variables of the file. -/
def filedManifest : List (Path × Except Error Bytes) :=
  [("one.yml", .ok ("version: '2'\nservices:\n  web:\n    env_file: app.env\n" ++
      "    environment: [A=2]\n    restart: 'false'\n  cache:\n    image: store\n").toUTF8.toList)]

end Project
end ComposeMerge
