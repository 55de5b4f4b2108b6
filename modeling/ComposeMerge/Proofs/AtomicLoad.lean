import ComposeMerge.Project
import ComposeMerge.Proofs.Outcome

/-!
# Loading is atomic

A project takes each manifest whole or not at all.

* `Project.fold` adds the contents of manifests one after the other; `files_of_fold` says what such
  a run leaves alone, and which files it lists;
* `addAll_eq_ok_iff` and `addAll_eq_error_iff` tell the two ways in which a run ends: all contents
  are there and have been added, or those before the one that fails have;
* `load_is_atomic_fold` puts this together for all manifests of a project.
-/

namespace ComposeMerge
namespace Project

/-- The project with the contents of manifests added, one after the other. -/
def fold (p : Project) (ms : List (Path × Bytes)) : Except Error Project :=
  ms.foldlM (fun p m => p.add m.1 m.2) p

/-- Manifests whose contents are at hand. -/
def atHand (ms : List (Path × Bytes)) : List (Path × Except Error Bytes) :=
  ms.map fun m => (m.1, .ok m.2)

variable {p q : Project} {path : Path} {content : Except Error Bytes} {bytes : Bytes}
  {sources : List (Path × Except Error Bytes)} {e : Error}

theorem fold_cons (p : Project) (m : Path × Bytes) (ms : List (Path × Bytes)) :
    p.fold (m :: ms) = p.add m.1 m.2 >>= fun q => q.fold ms := rfl

/-- Contents are at hand when the first one is, and the others are. -/
theorem cons_eq_atHand_iff {ms : List (Path × Bytes)} :
    (path, content) :: sources = atHand ms ↔
      ∃ bytes rest, content = .ok bytes ∧ sources = atHand rest ∧ ms = (path, bytes) :: rest := by
  cases ms with
  | nil => simp [atHand]
  | cons m ms =>
    obtain ⟨path', bytes'⟩ := m
    simp only [atHand, List.map_cons, List.cons.injEq, Prod.mk.injEq]
    constructor
    · rintro ⟨⟨rfl, rfl⟩, rfl⟩
      exact ⟨bytes', ms, rfl, rfl, ⟨rfl, rfl⟩, rfl⟩
    · rintro ⟨bytes, rest, rfl, rfl, ⟨rfl, rfl⟩, rfl⟩
      exact ⟨⟨rfl, rfl⟩, rfl⟩

/-! ### One manifest -/

/-- A manifest that is added has been merged as a whole, and what it changes is the state. -/
theorem add_eq_ok_iff :
    p.add path bytes = .ok q ↔
      ∃ merged, p.merge path bytes = .ok merged ∧
        { p with state := p.state.commit path merged } = q := by
  rw [add, Outcome.bind_eq_ok_iff]
  simp only [Except.ok.injEq]

theorem addAll_cons_of_ok (h : content.bind (p.add path) = .ok q) :
    p.addAll ((path, content) :: sources) = q.addAll sources := by
  rw [addAll, h]

theorem addAll_cons_of_error (h : content.bind (p.add path) = .error e) :
    p.addAll ((path, content) :: sources) = (p, .error e) := by
  rw [addAll, h]

/-- A manifest that fails leaves the project as it is. -/
theorem addAll_singleton_eq_error_iff :
    p.addAll [(path, content)] = (q, .error e) ↔
      q = p ∧ content.bind (p.add path) = .error e := by
  cases hadd : content.bind (p.add path) with
  | error e' =>
    rw [addAll_cons_of_error hadd]
    simp [eq_comm]
  | ok p' =>
    rw [addAll_cons_of_ok hadd, addAll]
    simp

/-! ### Runs -/

/-- A run changes nothing but the state, wherever it stops. -/
theorem fst_addAll (p : Project) (sources : List (Path × Except Error Bytes)) :
    (p.addAll sources).1 = { p with state := (p.addAll sources).1.state } := by
  induction sources generalizing p with
  | nil => rfl
  | cons source sources ih =>
    obtain ⟨path, content⟩ := source
    cases hadd : content.bind (p.add path) with
    | error e => rw [addAll_cons_of_error hadd]
    | ok p' =>
      obtain ⟨bytes, rfl, hp'⟩ := Outcome.bind_eq_ok_iff.1 hadd
      obtain ⟨merged, -, rfl⟩ := add_eq_ok_iff.1 hp'
      rw [addAll_cons_of_ok hadd]
      exact ih _

/-- A run changes nothing but the state, and lists the manifests that it adds, in order. -/
theorem files_of_fold {ms : List (Path × Bytes)} (h : p.fold ms = .ok q) :
    q = { p with state := q.state } ∧ q.state.files = p.state.files ++ ms.map Prod.fst := by
  induction ms generalizing p with
  | nil =>
    cases h
    simp
  | cons m ms ih =>
    rw [fold_cons] at h
    obtain ⟨p', hadd, hrest⟩ := Outcome.bind_eq_ok_iff.1 h
    obtain ⟨merged, -, rfl⟩ := add_eq_ok_iff.1 hadd
    obtain ⟨hframe, hfiles⟩ := ih hrest
    refine ⟨hframe, ?_⟩
    rw [hfiles]
    simp [ProjectState.commit]

/-- A run succeeds when all contents are at hand and are added. -/
theorem addAll_eq_ok_iff :
    p.addAll sources = (q, .ok ()) ↔ ∃ ms, sources = atHand ms ∧ p.fold ms = .ok q := by
  induction sources generalizing p with
  | nil =>
    constructor
    · rintro ⟨⟩
      exact ⟨[], rfl, rfl⟩
    · rintro ⟨ms, hms, hfold⟩
      cases List.map_eq_nil_iff.1 hms.symm
      cases hfold
      rfl
  | cons source sources ih =>
    obtain ⟨path, content⟩ := source
    cases hadd : content.bind (p.add path) with
    | error e =>
      rw [addAll_cons_of_error hadd]
      refine iff_of_false (by simp) ?_
      rintro ⟨ms, hms, hfold⟩
      obtain ⟨bytes, rest, rfl, -, rfl⟩ := cons_eq_atHand_iff.1 hms
      obtain ⟨p', hp', -⟩ := Outcome.bind_eq_ok_iff.1 hfold
      cases hadd.symm.trans hp'
    | ok p' =>
      obtain ⟨bytes, rfl, hp'⟩ := Outcome.bind_eq_ok_iff.1 hadd
      rw [addAll_cons_of_ok hadd, ih]
      constructor
      · rintro ⟨ms, rfl, hfold⟩
        exact ⟨(path, bytes) :: ms, rfl, Outcome.bind_eq_ok_iff.2 ⟨p', hp', hfold⟩⟩
      · rintro ⟨ms, hms, hfold⟩
        obtain ⟨bytes', rest, hbytes, hrest, rfl⟩ := cons_eq_atHand_iff.1 hms
        cases hbytes
        obtain ⟨p'', hp'', hfold⟩ := Outcome.bind_eq_ok_iff.1 hfold
        cases hp'.symm.trans hp''
        exact ⟨rest, hrest, hfold⟩

/-- A run stops at the first manifest whose content is not at hand or is not added, and keeps what
the manifests before it gave. -/
theorem addAll_eq_error_iff :
    p.addAll sources = (q, .error e) ↔
      ∃ done path content rest, sources = atHand done ++ (path, content) :: rest ∧
        p.fold done = .ok q ∧ content.bind (q.add path) = .error e := by
  induction sources generalizing p with
  | nil => simp [addAll]
  | cons source sources ih =>
    obtain ⟨path, content⟩ := source
    cases hadd : content.bind (p.add path) with
    | error e' =>
      rw [addAll_cons_of_error hadd]
      constructor
      · rintro ⟨⟩
        exact ⟨[], path, content, sources, rfl, rfl, hadd⟩
      · rintro ⟨done, path', content', rest, hsplit, hfold, hfail⟩
        cases done with
        | nil =>
          cases hsplit
          cases hfold
          cases hadd.symm.trans hfail
          rfl
        | cons m done =>
          cases hsplit
          obtain ⟨p', hp', -⟩ := Outcome.bind_eq_ok_iff.1 hfold
          cases hadd.symm.trans hp'
    | ok p' =>
      rw [addAll_cons_of_ok hadd, ih]
      constructor
      · rintro ⟨done, path', content', rest, rfl, hfold, hfail⟩
        obtain ⟨bytes, rfl, hp'⟩ := Outcome.bind_eq_ok_iff.1 hadd
        exact ⟨(path, bytes) :: done, path', content', rest, rfl,
          Outcome.bind_eq_ok_iff.2 ⟨p', hp', hfold⟩, hfail⟩
      · rintro ⟨done, path', content', rest, hsplit, hfold, hfail⟩
        cases done with
        | nil =>
          cases hsplit
          cases hfold
          cases hadd.symm.trans hfail
        | cons m done =>
          cases hsplit
          obtain ⟨p'', hp'', hfold⟩ := Outcome.bind_eq_ok_iff.1 hfold
          cases hadd.symm.trans hp''
          exact ⟨done, path', content', rest, rfl, hfold, hfail⟩

/-! ### All manifests of a project -/

theorem readManifest_eq_ok_iff {files : FileSystem} :
    readManifest files path = .ok bytes ↔ files.read path = .ok bytes := by
  rw [readManifest, Outcome.mapError_eq_ok_iff]

/-- The contents of manifest files are at hand when all of them can be read. -/
theorem files_eq_atHand_iff {files : FileSystem} {paths : List Path}
    {ms : List (Path × Bytes)} :
    paths.map (fun path => (path, readManifest files path)) = atHand ms ↔
      ∃ contents, paths.mapM files.read = .ok contents ∧ ms = paths.zip contents := by
  induction paths generalizing ms with
  | nil =>
    constructor
    · intro h
      cases List.map_eq_nil_iff.1 h.symm
      exact ⟨[], rfl, rfl⟩
    · rintro ⟨contents, -, rfl⟩
      rfl
  | cons path paths ih =>
    rw [List.map_cons, cons_eq_atHand_iff]
    simp only [ih, readManifest_eq_ok_iff, Outcome.mapM_cons_eq_ok_iff]
    constructor
    · rintro ⟨bytes, rest, hbytes, ⟨contents, hcontents, rfl⟩, rfl⟩
      exact ⟨bytes :: contents, ⟨bytes, contents, hbytes, hcontents, rfl⟩, rfl⟩
    · rintro ⟨_, ⟨bytes, contents, hbytes, hcontents, rfl⟩, rfl⟩
      exact ⟨bytes, paths.zip contents, hbytes, ⟨contents, hcontents, rfl⟩, rfl⟩

/-- All contents of a project are at hand when its files can be read. -/
theorem sources_eq_atHand_iff {files : FileSystem} {ms : List (Path × Bytes)} :
    p.sources files = atHand ms ↔
      ∃ contents, p.manifests.mapM files.read = .ok contents ∧
        ms = p.manifests.zip contents ++ p.inlineManifests := by
  have hinj : Function.Injective fun m : Path × Bytes => (m.1, (.ok m.2 : Except Error Bytes)) := by
    rintro ⟨a, b⟩ ⟨a', b'⟩ h
    cases h
    rfl
  have hinline : p.sources files =
      p.manifests.map (fun path => (path, readManifest files path)) ++
        atHand p.inlineManifests := rfl
  rw [hinline]
  constructor
  · intro h
    obtain ⟨ms₁, ms₂, rfl, h₁, h₂⟩ := List.map_eq_append_iff.1 h.symm
    obtain ⟨contents, hcontents, rfl⟩ := files_eq_atHand_iff.1 h₁.symm
    cases List.map_injective_iff.2 hinj h₂
    exact ⟨contents, hcontents, rfl⟩
  · rintro ⟨contents, hcontents, rfl⟩
    rw [files_eq_atHand_iff.2 ⟨contents, hcontents, rfl⟩]
    simp [atHand]

theorem sources_eq_nil_iff {files : FileSystem} :
    p.sources files = [] ↔ p.manifests = [] ∧ p.inlineManifests = [] := by
  simp [sources]

theorem load_of_no_sources {files : FileSystem} (h : p.sources files = []) :
    p.load files = (p, .error (.project .noManifest)) := by
  rw [load, h]

theorem load_of_sources {files : FileSystem} (h : p.sources files ≠ []) :
    p.load files = p.addAll (p.sources files) := by
  rw [load]
  split
  · next hnil => exact absurd hnil h
  · rfl

/-- **Loading is an atomic left fold.** It succeeds when there are manifests, their contents can be
read, and adding them one after the other gives the project. When it fails, the manifests before
the one that cannot be read or added have been added, they are the ones that are listed, and
nothing of the failing one shows. -/
theorem load_is_atomic_fold (files : FileSystem) (p q : Project) :
    (p.load files = (q, .ok ()) ↔
      ¬(p.manifests = [] ∧ p.inlineManifests = []) ∧
        ∃ contents, p.manifests.mapM files.read = .ok contents ∧
          p.fold (p.manifests.zip contents ++ p.inlineManifests) = .ok q) ∧
    (∀ e, p.load files = (q, .error e) ↔
      ((p.manifests = [] ∧ p.inlineManifests = []) ∧ q = p ∧ e = .project .noManifest) ∨
        ∃ done path content rest, p.sources files = atHand done ++ (path, content) :: rest ∧
          p.fold done = .ok q ∧ content.bind (q.add path) = .error e) ∧
    (∀ done, p.fold done = .ok q →
      q = { p with state := q.state } ∧ q.state.files = p.state.files ++ done.map Prod.fst) ∧
    ∀ path bytes e, p.addAll [(path, .ok bytes)] = (q, .error e) ↔
      q = p ∧ p.add path bytes = .error e := by
  refine ⟨?_, fun e => ?_, fun done => files_of_fold, fun path bytes e =>
    addAll_singleton_eq_error_iff⟩
  · by_cases hnil : p.sources files = []
    · rw [load_of_no_sources hnil]
      refine iff_of_false (by simp) fun h => h.1 (sources_eq_nil_iff.1 hnil)
    · rw [load_of_sources hnil, addAll_eq_ok_iff]
      have hsome : ¬(p.manifests = [] ∧ p.inlineManifests = []) :=
        fun h => hnil (sources_eq_nil_iff.2 h)
      constructor
      · rintro ⟨ms, hms, hfold⟩
        obtain ⟨contents, hcontents, rfl⟩ := sources_eq_atHand_iff.1 hms
        exact ⟨hsome, contents, hcontents, hfold⟩
      · rintro ⟨-, contents, hcontents, hfold⟩
        exact ⟨_, sources_eq_atHand_iff.2 ⟨contents, hcontents, rfl⟩, hfold⟩
  · by_cases hnil : p.sources files = []
    · rw [load_of_no_sources hnil, hnil]
      constructor
      · rintro ⟨⟩
        exact .inl ⟨sources_eq_nil_iff.1 hnil, rfl, rfl⟩
      · rintro (⟨-, rfl, rfl⟩ | ⟨done, path, content, rest, hsplit, -⟩)
        · rfl
        · exact absurd hsplit (by simp)
    · rw [load_of_sources hnil, addAll_eq_error_iff]
      refine (or_iff_right ?_).symm
      rintro ⟨h, -⟩
      exact hnil (sources_eq_nil_iff.2 h)

/-- The services of the second manifest merge before its network turns out not to be one. -/
example : ((Project.ofName ⟨.empty, FileTree.fileSystem ⟨.directory [], []⟩⟩ "demo").addAll
    [("one.yml", .ok "web: {image: app}\n".toUTF8.toList),
     ("two.yml", .ok ("version: '2'\nservices: {web: {image: other}, db: {image: base}}\n" ++
       "networks: {front: 5}\n").toUTF8.toList)]).1.state =
    ⟨"", .ofList [("web", ServiceConfig.empty.set .image (some "app"))], .empty, .empty,
      ["one.yml"]⟩ := by
  decide +kernel

end Project
end ComposeMerge
