import ComposeMerge.Loading
import ComposeMerge.Proofs.DocumentTrees
import ComposeMerge.Proofs.VersionText

/-!
# Shapes of manifests

Which documents are manifests, and what is in them. Below version 2 the top-level entries are
services, from version 2 on there are sections.

* `Value.IsTable` says that a value is a mapping or null, and `Value.entriesOf` are its entries;
* `Manifest.Declares` says which version top-level entries declare;
* `Manifest.WellShaped` are the documents that are manifests, `Manifest.flat` and
  `Manifest.sectioned` the manifests of the two shapes;
* `Manifest.ofTree_eq_ok_iff` says when a document is read, and as which manifest;
* `Manifest.well_shaped_documents_load` puts this together for documents with string keys.
-/

namespace ComposeMerge

open Entries (get?)
open Yaml (Node)

/-! ### Errors of format -/

/-- An outcome that can only fail with an error of format. -/
def FormatOnly {α : Type} (x : Except Error α) : Prop := ∀ e, x = .error e → e.kind = .format

namespace FormatOnly

variable {α β : Type}

theorem ok (a : α) : FormatOnly (.ok a) := by
  intro e h
  cases h

theorem error (fault : FormatFault) : FormatOnly (.error (.format fault) : Except Error α) := by
  intro e h
  cases h
  rfl

theorem bind {x : Except Error α} {f : α → Except Error β} (hx : FormatOnly x)
    (hf : ∀ a, FormatOnly (f a)) : FormatOnly (x >>= f) := by
  intro e h
  obtain h | ⟨a, -, h⟩ := Outcome.bind_eq_error_iff.1 h
  · exact hx e h
  · exact hf a e h

end FormatOnly

theorem formatOnly_majorVersion (version : String) : FormatOnly (majorVersion version) := by
  intro e h
  rw [eq_of_majorVersion_eq_error h]
  rfl

/-! ### Mappings that may be null -/

namespace Value

/-- A value is a mapping or null. -/
def IsTable (v : Value) : Prop := v = .null ∨ ∃ es, v = .mapping es

/-- The entries of a value. -/
def entriesOf : Value → Entries Value
  | .mapping es => es
  | _ => []

/-- The entries of a mapping; null has none, and everything else has a fault. -/
def tableOr (fault : FormatFault) : Value → Except Error (Entries Value)
  | .mapping es => .ok es
  | .scalar .null => .ok []
  | _ => .error (.format fault)

variable {fault : FormatFault} {v : Value}

theorem tableOr_eq_ok_iff {es : Entries Value} :
    tableOr fault v = .ok es ↔ v.IsTable ∧ es = v.entriesOf := by
  constructor
  · intro h
    unfold tableOr at h
    split at h
    · cases h
      exact ⟨.inr ⟨_, rfl⟩, rfl⟩
    · cases h
      exact ⟨.inl rfl, rfl⟩
    · cases h
  · rintro ⟨rfl | ⟨fs, rfl⟩, rfl⟩
    · rfl
    · rfl

theorem formatOnly_tableOr : FormatOnly (tableOr fault v) := by
  unfold tableOr
  split
  · exact .ok _
  · exact .ok _
  · exact .error _

end Value

namespace Manifest

open Value (tableOr tableOr_eq_ok_iff formatOnly_tableOr)

theorem rootEntries_eq (v : Value) :
    rootEntries v = tableOr (.document v.kindName) v := by
  cases v with
  | scalar s => cases s <;> rfl
  | sequence | mapping => rfl

theorem sectionEntries_eq (name : String) (v : Value) :
    sectionEntries name v = tableOr (.sectionKind name v.kindName) v := by
  cases v with
  | scalar s => cases s <;> rfl
  | sequence | mapping => rfl

theorem serviceFields_eq (name : String) (v : Value) :
    serviceFields name v = tableOr (.serviceKind name v.kindName) v := by
  cases v with
  | scalar s => cases s <;> rfl
  | sequence | mapping => rfl

/-! ### Sections and services -/

/-- The entries of a section; a section that is missing has none. -/
def sectionOf (root : Entries Value) (name : String) : Entries Value :=
  (get? name root).elim [] Value.entriesOf

theorem section?_eq_ok_iff {root es : Entries Value} {name : String} :
    (section? root name) = .ok es ↔
      (∀ v, get? name root = some v → v.IsTable) ∧ es = sectionOf root name := by
  unfold section? sectionOf
  cases get? name root with
  | none => simp [eq_comm]
  | some v => simp [sectionEntries_eq, tableOr_eq_ok_iff]

theorem formatOnly_section? (root : Entries Value) (name : String) :
    FormatOnly (section? root name) := by
  unfold section?
  split
  · rw [sectionEntries_eq]
    exact formatOnly_tableOr
  · exact .ok _

theorem serviceEntries_cons (name : String) (v : Value) (es : Entries Value) :
    serviceEntries ((name, v) :: es) = serviceFields name v >>= fun fields =>
      serviceEntries es >>= fun rest => .ok ((name, fields) :: rest) := rfl

/-- Services are read when each of them is a mapping or null. -/
theorem serviceEntries_eq_ok_iff {es : Entries Value} {services : RawServices} :
    serviceEntries es = .ok services ↔
      (∀ e ∈ es, e.2.IsTable) ∧ services = es.mapValues Value.entriesOf := by
  induction es generalizing services with
  | nil => simp [serviceEntries, Entries.traverse, Entries.mapValues, eq_comm]
  | cons e es ih =>
    obtain ⟨name, v⟩ := e
    simp only [serviceEntries_cons, Outcome.bind_eq_ok_iff, serviceFields_eq, tableOr_eq_ok_iff, ih,
      List.forall_mem_cons]
    constructor
    · rintro ⟨fields, ⟨hv, rfl⟩, rest, ⟨hes, rfl⟩, hservices⟩
      cases hservices
      exact ⟨⟨hv, hes⟩, rfl⟩
    · rintro ⟨⟨hv, hes⟩, rfl⟩
      exact ⟨_, ⟨hv, rfl⟩, _, ⟨hes, rfl⟩, rfl⟩

theorem formatOnly_serviceEntries (es : Entries Value) : FormatOnly (serviceEntries es) := by
  induction es with
  | nil => exact .ok _
  | cons e es ih =>
    obtain ⟨name, v⟩ := e
    rw [serviceEntries_cons, serviceFields_eq]
    exact formatOnly_tableOr.bind fun fields => ih.bind fun rest => .ok _

/-! ### Declared versions -/

/-- The version that top-level entries declare. A number declares the text `number`. -/
inductive Declares (number : String) (root : Entries Value) : String → Prop where
  | absent (h : get? versionKey root = none) : Declares number root ""
  | null (h : get? versionKey root = some .null) : Declares number root ""
  | text {s : String} (h : get? versionKey root = some (.string s)) : Declares number root s
  | bool {b : Bool} (h : get? versionKey root = some (.scalar (.bool b))) :
      Declares number root (boolText b)
  | int {n : Int64} (h : get? versionKey root = some (.scalar (.int n))) :
      Declares number root number
  | float {x : Double} (h : get? versionKey root = some (.scalar (.float x))) :
      Declares number root number

/-- The version is declared by a number. -/
def DeclaresNumber (root : Entries Value) : Prop :=
  (∃ n, get? versionKey root = some (.scalar (.int n))) ∨
    ∃ x, get? versionKey root = some (.scalar (.float x))

theorem declaredVersion_eq_ok_iff {number version : String} {root : Entries Value} :
    declaredVersion (.ok number) root = .ok version ↔ Declares number root version := by
  constructor
  · intro h
    rw [declaredVersion] at h
    cases hget : get? versionKey root with
    | none =>
      rw [hget] at h
      cases h
      exact .absent hget
    | some v =>
      rw [hget] at h
      cases v with
      | sequence | mapping => cases h
      | scalar s =>
        cases s with
        | null =>
          cases h
          exact .null hget
        | bool =>
          cases h
          exact .bool hget
        | int =>
          cases h
          exact .int hget
        | float =>
          cases h
          exact .float hget
        | text =>
          cases h
          exact .text hget
  · intro h
    cases h with
    | absent h | int h | float h => rw [declaredVersion, h]
    | null h | text h | bool h =>
      rw [declaredVersion, h]
      rfl

/-- Only one version is declared. -/
theorem Declares.eq {number v w : String} {root : Entries Value} (hv : Declares number root v)
    (hw : Declares number root w) : v = w :=
  Except.ok.inj
    ((declaredVersion_eq_ok_iff.2 hv).symm.trans (declaredVersion_eq_ok_iff.2 hw))

theorem formatOnly_declaredVersion (number : String) (root : Entries Value) :
    FormatOnly (declaredVersion (.ok number) root) := by
  unfold declaredVersion
  split
  · exact .ok _
  · exact .ok _
  · exact .ok _
  · exact .ok _
  · exact .ok _
  · exact .error _

/-- Where no number declares the version, nothing else is asked for it. -/
theorem declaredVersion_congr {source : Except Error String} {number : String}
    {root : Entries Value} (h : DeclaresNumber root → source = .ok number) :
    declaredVersion source root = declaredVersion (.ok number) root := by
  unfold declaredVersion
  split
  · rfl
  · rfl
  · next n hn => exact h (.inl ⟨n, hn⟩)
  · next x hx => exact h (.inr ⟨x, hx⟩)
  · rfl
  · rfl

/-! ### Two shapes -/

/-- All top-level entries other than the version are services. -/
def IsFlat (root : Entries Value) : Prop := ∀ e ∈ root, e.1 ≠ versionKey → e.2.IsTable

/-- The sections are mappings, or null or missing, and so are the services in them. -/
structure IsSectioned (root : Entries Value) : Prop where
  sections : ∀ name ∈ ["services", "volumes", "networks"], ∀ v,
    get? name root = some v → v.IsTable
  services : ∀ e ∈ sectionOf root "services", e.2.IsTable

/-- The manifest of services at the top level. -/
def flat (version : String) (root : Entries Value) : Manifest :=
  ⟨version, (root.erase versionKey).mapValues Value.entriesOf, [], []⟩

/-- The manifest of sections. -/
def sectioned (version : String) (root : Entries Value) : Manifest :=
  ⟨version, (sectionOf root "services").mapValues Value.entriesOf, sectionOf root "volumes",
    sectionOf root "networks"⟩

/-- The manifest of top-level entries that are services. -/
def readFlat (version : String) (root : Entries Value) : Except Error Manifest := do
  let services ← serviceEntries (root.erase versionKey)
  .ok ⟨version, services, [], []⟩

/-- The manifest of top-level entries that are sections. -/
def readSectioned (version : String) (root : Entries Value) : Except Error Manifest := do
  let services ← (section? root "services").bind serviceEntries
  let volumes ← section? root "volumes"
  let networks ← section? root "networks"
  .ok ⟨version, services, volumes, networks⟩

theorem ofTree_eq (source : Except Error String) (document : Value) :
    ofTree source document = rootEntries document >>= fun root =>
      declaredVersion source root >>= fun version => majorVersion version >>= fun major =>
        if major < 2 then readFlat version root else readSectioned version root := rfl

variable {version : String} {root : Entries Value} {m : Manifest}

theorem isFlat_iff : IsFlat root ↔ ∀ e ∈ root.erase versionKey, e.2.IsTable := by
  unfold IsFlat Entries.erase
  simp only [List.mem_filter, decide_eq_true_eq, and_imp]

theorem readFlat_eq_ok_iff :
    readFlat version root = .ok m ↔ IsFlat root ∧ m = flat version root := by
  rw [readFlat, Outcome.bind_eq_ok_iff, isFlat_iff]
  simp only [serviceEntries_eq_ok_iff, Except.ok.injEq]
  constructor
  · rintro ⟨services, ⟨hservices, rfl⟩, rfl⟩
    exact ⟨hservices, rfl⟩
  · rintro ⟨hservices, rfl⟩
    exact ⟨_, ⟨hservices, rfl⟩, rfl⟩

theorem formatOnly_readFlat (version : String) (root : Entries Value) :
    FormatOnly (readFlat version root) :=
  (formatOnly_serviceEntries _).bind fun _ => .ok _

theorem readSectioned_eq_ok_iff :
    readSectioned version root = .ok m ↔ IsSectioned root ∧ m = sectioned version root := by
  constructor
  · intro h
    obtain ⟨services, hservices, h⟩ := Outcome.bind_eq_ok_iff.1 h
    obtain ⟨volumes, hvolumes, h⟩ := Outcome.bind_eq_ok_iff.1 h
    obtain ⟨networks, hnetworks, h⟩ := Outcome.bind_eq_ok_iff.1 h
    cases h
    obtain ⟨entries, hentries, hservices⟩ := Outcome.bind_eq_ok_iff.1 hservices
    obtain ⟨hservicesTable, rfl⟩ := section?_eq_ok_iff.1 hentries
    obtain ⟨hbodies, rfl⟩ := serviceEntries_eq_ok_iff.1 hservices
    obtain ⟨hvolumesTable, rfl⟩ := section?_eq_ok_iff.1 hvolumes
    obtain ⟨hnetworksTable, rfl⟩ := section?_eq_ok_iff.1 hnetworks
    refine ⟨⟨?_, hbodies⟩, rfl⟩
    simp only [List.forall_mem_cons]
    exact ⟨hservicesTable, hvolumesTable, hnetworksTable, by simp⟩
  · rintro ⟨⟨hsections, hbodies⟩, rfl⟩
    have hsection : ∀ name ∈ ["services", "volumes", "networks"],
        (section? root name) = .ok (sectionOf root name) :=
      fun name hname => section?_eq_ok_iff.2 ⟨hsections name hname, rfl⟩
    have hservices : (section? root "services").bind serviceEntries =
        .ok ((sectionOf root "services").mapValues Value.entriesOf) := by
      rw [hsection _ (by simp)]
      exact serviceEntries_eq_ok_iff.2 ⟨hbodies, rfl⟩
    rw [readSectioned, hservices, hsection _ (by simp), hsection _ (by simp)]
    rfl

theorem formatOnly_readSectioned (version : String) (root : Entries Value) :
    FormatOnly (readSectioned version root) := by
  have hservices : FormatOnly ((section? root "services").bind serviceEntries) :=
    (formatOnly_section? root "services").bind formatOnly_serviceEntries
  exact hservices.bind fun services => (formatOnly_section? root "volumes").bind fun volumes =>
    (formatOnly_section? root "networks").bind fun networks => .ok _

/-! ### Documents -/

/-- The documents that are manifests. -/
structure WellShaped (number : String) (document : Value) : Prop where
  table : document.IsTable
  shape : ∃ version major, Declares number document.entriesOf version ∧
    majorVersion version = .ok major ∧
      (major < 2 ∧ IsFlat document.entriesOf ∨ 2 ≤ major ∧ IsSectioned document.entriesOf)

variable {number : String} {document : Value}

/-- A document is read when its version is, as a manifest of the shape that the version asks for. -/
theorem ofTree_eq_ok_iff : ofTree (.ok number) document = .ok m ↔
    document.IsTable ∧ ∃ version major, Declares number document.entriesOf version ∧
      majorVersion version = .ok major ∧
      (major < 2 ∧ IsFlat document.entriesOf ∧ m = flat version document.entriesOf ∨
        2 ≤ major ∧ IsSectioned document.entriesOf ∧
          m = sectioned version document.entriesOf) := by
  -- What is read once the version is known.
  have hshape : ∀ (version : String) (major : Nat) (root : Entries Value),
      (if major < 2 then readFlat version root else readSectioned version root) = .ok m ↔
        (major < 2 ∧ IsFlat root ∧ m = flat version root ∨
          2 ≤ major ∧ IsSectioned root ∧ m = sectioned version root) := by
    intro version major root
    by_cases hmajor : major < 2
    · rw [if_pos hmajor, readFlat_eq_ok_iff]
      simp [hmajor]
    · rw [if_neg hmajor, readSectioned_eq_ok_iff]
      simp [hmajor, Nat.le_of_not_lt hmajor]
  rw [ofTree_eq]
  simp only [Outcome.bind_eq_ok_iff, rootEntries_eq, tableOr_eq_ok_iff, declaredVersion_eq_ok_iff,
    hshape]
  constructor
  · rintro ⟨root, ⟨htable, rfl⟩, version, hversion, major, hmajor, h⟩
    exact ⟨htable, version, major, hversion, hmajor, h⟩
  · rintro ⟨htable, version, major, hversion, hmajor, h⟩
    exact ⟨_, ⟨htable, rfl⟩, version, hversion, major, hmajor, h⟩

theorem exists_ofTree_iff :
    (∃ m, ofTree (.ok number) document = .ok m) ↔ WellShaped number document := by
  simp only [ofTree_eq_ok_iff]
  constructor
  · rintro ⟨m, htable, version, major, hversion, hmajor, h⟩
    refine ⟨htable, version, major, hversion, hmajor, ?_⟩
    exact h.imp (And.imp_right And.left) (And.imp_right And.left)
  · rintro ⟨htable, version, major, hversion, hmajor, ⟨hlegacy, h⟩ | ⟨hmodern, h⟩⟩
    · exact ⟨_, htable, version, major, hversion, hmajor, .inl ⟨hlegacy, h, rfl⟩⟩
    · exact ⟨_, htable, version, major, hversion, hmajor, .inr ⟨hmodern, h, rfl⟩⟩

theorem formatOnly_ofTree (number : String) (document : Value) :
    FormatOnly (ofTree (.ok number) document) := by
  rw [ofTree_eq, rootEntries_eq]
  refine formatOnly_tableOr.bind fun root => (formatOnly_declaredVersion number root).bind
    fun version => (formatOnly_majorVersion version).bind fun major => ?_
  split
  · exact formatOnly_readFlat version root
  · exact formatOnly_readSectioned version root

/-- Only a version that is declared by a number is read in another way. -/
theorem ofTree_congr {source : Except Error String}
    (h : DeclaresNumber document.entriesOf → source = .ok number) :
    ofTree source document = ofTree (.ok number) document := by
  rw [ofTree_eq, ofTree_eq]
  cases hroot : rootEntries document with
  | error e => rfl
  | ok root =>
    rw [rootEntries_eq, tableOr_eq_ok_iff] at hroot
    obtain ⟨-, rfl⟩ := hroot
    rw [Outcome.bind_ok, Outcome.bind_ok, declaredVersion_congr h]

theorem load_eq {bytes : Bytes} {node : Node} (hread : Yaml.read bytes = some node)
    (hvalue : Value.ofNode node = .ok document) :
    load bytes = ofTree (versionText bytes) document := by
  rw [load, loadValue, hread]
  simp only [hvalue]
  rfl

/-- **Manifests have one of two shapes.** A document with string keys is read just when it is well
shaped, and everything else is an error of format; `number` is the text of a version that is a
number. The version is the declared one and stands for a known shape. Below version 2 all other
top-level entries are services, from version 2 on services, volumes and networks are the entries of
their sections. -/
theorem well_shaped_documents_load {node : Node} (hkeys : node.TextKeys) (number : String) :
    ∃ document, Value.ofNode node = .ok document ∧
      (∀ bytes, Yaml.read bytes = some node →
        (DeclaresNumber document.entriesOf → versionText bytes = .ok number) →
          load bytes = ofTree (.ok number) document) ∧
      ((∃ m, ofTree (.ok number) document = .ok m) ↔ WellShaped number document) ∧
      (∀ e, ofTree (.ok number) document = .error e → e.kind = .format) ∧
      ∀ m, ofTree (.ok number) document = .ok m →
        Declares number document.entriesOf m.version ∧
        ∃ major, majorVersion m.version = .ok major ∧ m.schema = .ok (Schema.ofMajor major) ∧
          (major < 2 → m = flat m.version document.entriesOf) ∧
          (2 ≤ major → m = sectioned m.version document.entriesOf) := by
  obtain ⟨document, hdocument⟩ := (Value.exists_ofNode_iff node).2 hkeys.scalarKeys
  refine ⟨document, hdocument, fun bytes hread hnumber => ?_, exists_ofTree_iff,
    formatOnly_ofTree number document, fun m hm => ?_⟩
  · rw [load_eq hread hdocument, ofTree_congr hnumber]
  · obtain ⟨-, version, major, hversion, hmajor, h⟩ := ofTree_eq_ok_iff.1 hm
    have hm : m.version = version ∧ (major < 2 → m = flat version document.entriesOf) ∧
        (2 ≤ major → m = sectioned version document.entriesOf) := by
      rcases h with ⟨hlegacy, -, rfl⟩ | ⟨hmodern, -, rfl⟩
      · exact ⟨rfl, fun _ => rfl, fun h => by omega⟩
      · exact ⟨rfl, fun h => by omega, fun _ => rfl⟩
    obtain ⟨rfl, hflat, hsectioned⟩ := hm
    refine ⟨hversion, major, hmajor, ?_, hflat, hsectioned⟩
    rw [schema, hmajor]
    rfl

/-- A manifest whose version is a number that ends in a zero. -/
def pointTen : Bytes := "version: 2.10\nservices:\n  web:\n".toUTF8.toList

def pointTenTree : Node :=
  .mapping [(.text "version", .float (.ofDecimal false 210 (-2))),
    (.text "services", .mapping [(.text "web", .null)])]

/-- Whether a tree is that of `pointTen`. -/
def isPointTenTree : Node → Bool
  | .mapping [(.text a, .float x), (.text b, .mapping [(.text c, .null)])] =>
    (a, x, b, c) = ("version", .ofDecimal false 210 (-2), "services", "web")
  | _ => false

theorem eq_of_isPointTenTree {node : Node} (h : isPointTenTree node = true) :
    node = pointTenTree := by
  unfold isPointTenTree at h
  split at h
  · cases of_decide_eq_true h
    rfl
  · cases h

theorem read_pointTen : Yaml.read pointTen = some pointTenTree := by
  have h : (Yaml.read pointTen).any isPointTenTree = true := by decide +kernel
  cases hread : Yaml.read pointTen with
  | none =>
    rw [hread] at h
    cases h
  | some node =>
    rw [hread] at h
    rw [eq_of_isPointTenTree h]

theorem textKeys_pointTenTree : pointTenTree.TextKeys := by
  intro es hes
  cases hes with
  | self => simp
  | entry he hes =>
    rcases List.mem_pair.1 he with rfl | rfl
    · cases hes
    · cases hes with
      | self => simp
      | entry he hes =>
        cases List.mem_singleton.1 he
        cases hes

/-- The version is kept as it is written. -/
theorem pointTen_loads :
    pointTenTree.TextKeys ∧ versionText pointTen = .ok "2.10" ∧
      load pointTen = .ok ⟨"2.10", [("web", [])], [], []⟩ := by
  have hversion : versionText pointTen = .ok "2.10" := by decide +kernel
  obtain ⟨document, hdocument, hload, hshaped, -, hmanifest⟩ :=
    well_shaped_documents_load textKeys_pointTenTree "2.10"
  have hmajor : majorVersion "2.10" = .ok 2 := by decide +kernel
  have hvalue : document = .mapping [("services", .mapping [("web", .null)]),
      ("version", .scalar (.float (.ofDecimal false 210 (-2))))] := by
    cases hdocument
    rfl
  subst hvalue
  have hsectioned : IsSectioned [("services", .mapping [("web", .null)]),
      ("version", .scalar (.float (.ofDecimal false 210 (-2))))] := by
    constructor
    case sections =>
      simp only [List.forall_mem_cons]
      refine ⟨fun v hv => ?_, fun v hv => ?_, fun v hv => ?_, by simp⟩
      · cases hv
        exact .inr ⟨_, rfl⟩
      · cases hv
      · cases hv
    case services =>
      intro e he
      cases List.mem_singleton.1 he
      exact .inl rfl
  obtain ⟨m, hm⟩ := hshaped.2
    ⟨.inr ⟨_, rfl⟩, "2.10", 2, .float rfl, hmajor, .inr ⟨le_rfl, hsectioned⟩⟩
  obtain ⟨hdeclared, major, hread, -, -, hshape⟩ := hmanifest m hm
  have htext : m.version = "2.10" := hdeclared.eq (.float rfl)
  rw [htext, hmajor] at hread
  cases hread
  rw [hload pointTen read_pointTen fun _ => hversion, hm, hshape le_rfl, htext]
  exact ⟨textKeys_pointTenTree, hversion, rfl⟩

end Manifest
end ComposeMerge
