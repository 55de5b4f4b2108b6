import ComposeMerge.Proofs.InterpolatedLeaves
import ComposeMerge.Proofs.NameByName
import ComposeMerge.Proofs.Validated

/-!
# Unsupported versions

A manifest of version 3 or above is never merged. Its version is looked at after its references are
replaced and its services are validated, so it is the error of a manifest that has no other fault.

* `Manifest.fieldTexts` is the list of the strings of a manifest, each with the name of its field;
* `Merging.substitute_eq` replaces the references of a manifest string by string;
* `Manifest.Fault` is the fault of a manifest that is found before its services are merged, and
  `Merging.prepare_eq_error_iff` shows that it is;
* `unsupported_version_refused` is about the manifests of these versions.
-/

namespace ComposeMerge

open Value

/-! ### Strings and their fields -/

/-- The strings inside entries, each with a name for its field. -/
def fieldTextsOf (field : String → String) (entries : Entries Value) : List (String × String) :=
  entries.flatMap fun e => e.2.texts.map fun s => (field e.1, s)

/-- The strings inside services, each with the name of its field. -/
def fieldTextsOfServices (services : RawServices) : List (String × String) :=
  services.flatMap fun e => fieldTextsOf (fun key => e.1 ++ "." ++ key) e.2

/-- The strings of a manifest in the order in which their references are replaced, each with the
name of its field. -/
def Manifest.fieldTexts (m : Manifest) : List (String × String) :=
  fieldTextsOfServices m.services ++ (fieldTextsOf id m.volumes ++ fieldTextsOf id m.networks)

theorem fieldTextsOfServices_normalizeExtends (services : RawServices) :
    fieldTextsOfServices (normalizeExtends services) = fieldTextsOfServices services := by
  have hservice : ∀ (field : String → String) (fields : RawService),
      fieldTextsOf field (normalizeService fields) = fieldTextsOf field fields := by
    intro field fields
    rw [fieldTextsOf, fieldTextsOf, normalizeService, List.flatMap_map]
    refine List.flatMap_congr fun e _ => ?_
    dsimp only
    split
    · rw [texts_fullExtends]
    · rfl
  rw [fieldTextsOfServices, normalizeExtends, Entries.mapValues, List.flatMap_map]
  exact List.flatMap_congr fun e _ => hservice _ e.2

theorem fieldTexts_normalizeExtends (m : Manifest) :
    { m with services := normalizeExtends m.services }.fieldTexts = m.fieldTexts := by
  rw [Manifest.fieldTexts, Manifest.fieldTexts, fieldTextsOfServices_normalizeExtends]

variable {env : Environment} {policy : UndefinedPolicy} {options : Options}

/-- What becomes of a string of a field. -/
def replaceText (env : Environment) (policy : UndefinedPolicy) (t : String × String) :
    Except Error String :=
  interpolateText env policy t.1 t.2

theorem exists_replaceText_iff {t : String × String} :
    (∃ text, replaceText env policy t = .ok text) ↔
      ∃ text, Reference.substitute env policy t.2 = .ok text :=
  exists_interpolateText_iff

theorem replaceText_eq_error_iff {t : String × String} {e : Error} :
    replaceText env policy t = .error e ↔ ∃ fault,
      Reference.substitute env policy t.2 = .error fault ∧ e = .interpolation t.1 fault := by
  rw [replaceText, interpolateText, Outcome.mapError_eq_error_iff]
  simp only [eq_comm]

theorem interpolate_eq_texts (field : String) (v : Value) :
    interpolate env policy field v =
      ((v.texts.map fun s => (field, s)).mapM (replaceText env policy)).map
        fun _ => v.mapTexts (replacement env policy) := by
  rw [interpolate_eq_leaves, texts_eq_leaves, List.map_map, List.mapM_map]
  rfl

/-- A traversal of entries goes through their strings. -/
theorem traverse_interpolate_eq (field : String → String) (entries : Entries Value) :
    entries.traverse (fun key => interpolate env policy (field key)) =
      ((fieldTextsOf field entries).mapM (replaceText env policy)).map
        fun _ => entries.mapValues (mapTexts (replacement env policy)) :=
  Entries.traverse_eq_mapM fun e _ => interpolate_eq_texts (field e.1) e.2

theorem interpolateServices_eq_texts (services : RawServices) :
    interpolateServices env policy services =
      ((fieldTextsOfServices services).mapM (replaceText env policy)).map
        fun _ => services.mapValues fun fields =>
          fields.mapValues (mapTexts (replacement env policy)) :=
  Entries.traverse_eq_mapM fun e _ => traverse_interpolate_eq (fun key => e.1 ++ "." ++ key) e.2

namespace Manifest

/-- A manifest with its references replaced, where they can be. -/
def replaced (env : Environment) (policy : UndefinedPolicy) (m : Manifest) : Manifest where
  version := m.version
  services := m.services.mapValues fun fields => fields.mapValues (mapTexts (replacement env policy))
  volumes := m.volumes.mapValues (mapTexts (replacement env policy))
  networks := m.networks.mapValues (mapTexts (replacement env policy))

end Manifest

namespace Merging

variable {m : Manifest}

/-- References are replaced string by string. -/
theorem substitute_eq (h : options.interpolate = true) (m : Manifest) :
    substitute env options m =
      (m.fieldTexts.mapM (replaceText env options.undefined)).map
        fun _ => m.replaced env options.undefined := by
  have hsection : ∀ entries, interpolateSection env options.undefined entries =
      ((fieldTextsOf id entries).mapM (replaceText env options.undefined)).map
        fun _ => entries.mapValues (mapTexts (replacement env options.undefined)) :=
    fun entries => traverse_interpolate_eq id entries
  rw [substitute, if_pos h, interpolateServices_eq_texts, hsection, hsection, Manifest.fieldTexts,
    List.mapM_append, List.mapM_append]
  cases (fieldTextsOfServices m.services).mapM (replaceText env options.undefined) with
  | error e => rfl
  | ok _ =>
    cases (fieldTextsOf id m.volumes).mapM (replaceText env options.undefined) with
    | error e => rfl
    | ok _ =>
      cases (fieldTextsOf id m.networks).mapM (replaceText env options.undefined) <;> rfl

end Merging

/-! ### The error of a manifest -/

namespace Manifest

/-- A manifest in the form in which it is validated. -/
def substituted (env : Environment) (options : Options) (m : Manifest) : Manifest :=
  let full := { m with services := normalizeExtends m.services }
  if options.interpolate then full.replaced env options.undefined else full

/-- Whether the references of a manifest can be replaced, if that is wanted. -/
def Replaceable (env : Environment) (options : Options) (m : Manifest) : Prop :=
  options.interpolate = true → ∀ t ∈ m.fieldTexts,
    ∃ text, Reference.substitute env options.undefined t.2 = .ok text

/-- The fault of a manifest that is found before its services are merged: the first string with a
reference that cannot be replaced, or else the first service that is refused. -/
inductive Fault (env : Environment) (options : Options) (m : Manifest) : Error → Prop where
  | reference {before after : List (String × String)} {field s : String} {fault : ReferenceFault}
      (hinterpolate : options.interpolate = true)
      (htexts : m.fieldTexts = before ++ (field, s) :: after)
      (hbefore : ∀ t ∈ before, ∃ text, Reference.substitute env options.undefined t.2 = .ok text)
      (hfault : Reference.substitute env options.undefined s = .error fault) :
      Fault env options m (.interpolation field fault)
  | service {before after : RawServices} {name : String} {fields : RawService}
      {fault : ServiceFault}
      (htexts : m.Replaceable env options)
      (hvalidate : options.validate = true)
      (hservices : (m.substituted env options).services = before ++ (name, fields) :: after)
      (hbefore : ∀ e ∈ before, Validation.serviceFault? e.1 e.2 = none)
      (hfault : Validation.serviceFault? name fields = some fault) :
      Fault env options m (.service name fault)

end Manifest

namespace Merging

variable {m m' : Manifest} {e : Error}

theorem substitute_normalizeExtends_eq_ok_iff :
    substitute env options { m with services := normalizeExtends m.services } = .ok m' ↔
      m.Replaceable env options ∧ m' = m.substituted env options := by
  unfold Manifest.Replaceable
  by_cases hinterpolate : options.interpolate = true
  · rw [substitute_eq hinterpolate, Outcome.map_eq_ok_iff, exists_and_right,
      Outcome.exists_mapM_eq_ok_iff, fieldTexts_normalizeExtends, Manifest.substituted,
      if_pos hinterpolate]
    simp only [hinterpolate, true_implies, exists_replaceText_iff, eq_comm]
  · rw [substitute, if_neg hinterpolate, Manifest.substituted, if_neg hinterpolate]
    simp [hinterpolate, eq_comm]

theorem substitute_normalizeExtends_eq_error_iff :
    substitute env options { m with services := normalizeExtends m.services } = .error e ↔
      options.interpolate = true ∧ ∃ before field s after fault,
        m.fieldTexts = before ++ (field, s) :: after ∧
        (∀ t ∈ before, ∃ text, Reference.substitute env options.undefined t.2 = .ok text) ∧
        Reference.substitute env options.undefined s = .error fault ∧
        e = .interpolation field fault := by
  by_cases hinterpolate : options.interpolate = true
  · rw [substitute_eq hinterpolate, Outcome.map_eq_error_iff, Outcome.mapM_eq_error_iff_append,
      fieldTexts_normalizeExtends]
    simp only [hinterpolate, true_and, exists_replaceText_iff, replaceText_eq_error_iff,
      Prod.exists, exists_and_left]
  · rw [substitute, if_neg hinterpolate]
    simp [hinterpolate]

/-- Without a hook, a manifest cannot be prepared when it has a fault. -/
theorem prepare_eq_error_iff (hook : options.preprocess = none) :
    prepare env options m = .error e ↔ m.Fault env options e := by
  have hrun : ∀ services, runHook options.preprocess services = .ok services := fun services => by
    rw [hook, runHook]
  simp only [prepare, hrun, Outcome.bind_ok, Outcome.bind_eq_error_iff, reduceCtorEq, and_false,
    exists_const, or_false, substitute_normalizeExtends_eq_error_iff,
    substitute_normalizeExtends_eq_ok_iff, check]
  constructor
  · rintro (⟨hinterpolate, before, field, s, after, fault, htexts, hbefore, hfault, rfl⟩ |
      ⟨_, ⟨htexts, rfl⟩, h⟩)
    · exact .reference hinterpolate htexts hbefore hfault
    · split at h
      · next hvalidate =>
        obtain ⟨before, name, fields, after, fault, hservices, hbefore, hfault, rfl⟩ :=
          Validation.validate_eq_error_iff.1 h
        exact .service htexts hvalidate hservices hbefore hfault
      · cases h
  · rintro (⟨hinterpolate, htexts, hbefore, hfault⟩ |
      ⟨htexts, hvalidate, hservices, hbefore, hfault⟩)
    · exact .inl ⟨hinterpolate, _, _, _, _, _, htexts, hbefore, hfault, rfl⟩
    · refine .inr ⟨_, ⟨htexts, rfl⟩, ?_⟩
      rw [if_pos hvalidate, Validation.validate_eq_error_iff]
      exact ⟨_, _, _, _, _, hservices, hbefore, hfault, rfl⟩

end Merging

open Merging

/-- **Unsupported versions are refused.** A manifest of version 3 or above is an error, whatever
is stored and whatever its files are: the first fault that is found before its services are merged,
and the declared version where there is none. -/
theorem unsupported_version_refused {m : Manifest} {major : Nat}
    (hversion : majorVersion m.version = .ok major) (hmajor : 3 ≤ major)
    (hook : options.preprocess = none) (existing : Services) (resources : Option ResourceLookup)
    (file : Path) :
    (∃ e, mergeManifest existing ⟨env, resources⟩ options file m = .error e) ∧
      ∀ e, mergeManifest existing ⟨env, resources⟩ options file m = .error e ↔
        m.Fault env options e ∨
          (∀ e', ¬m.Fault env options e') ∧ e = .unsupportedVersion m.version := by
  have hschema : m.schema = .ok .v3 := by
    rw [Manifest.schema, hversion]
    simp [Schema.ofMajor, show ¬major < 2 by omega, show major ≠ 2 by omega]
  have hmerge : mergeManifest existing ⟨env, resources⟩ options file m =
      prepare env options m >>= fun m' => .error (.unsupportedVersion m'.version) := by
    rw [mergeManifest, hschema]
    rfl
  simp only [hmerge, ← prepare_eq_error_iff hook]
  cases hprepare : prepare env options m with
  | error e => simp
  | ok m' => simp [(prepare_eq_ok_iff hook).1 hprepare, eq_comm]

/-- A manifest of a later version whose volume refers to a variable. -/
def laterManifest : Manifest where
  version := "3.8"
  services := [("web", [("extends", .string "base"), ("image", .string "app:$TAG")])]
  volumes := [("data", .mapping [("driver", .string "$DRIVER")])]
  networks := []

/-- Where unset variables are errors, the variable of the volume comes before the version. -/
theorem refusals_of_laterManifest :
    mergeManifest .empty ⟨.ofEntries [("DRIVER", "local"), ("TAG", "1")], none⟩
        { Options.standard with undefined := .fail } "one.yml" laterManifest =
      .error (.unsupportedVersion "3.8") ∧
    mergeManifest .empty ⟨.ofEntries [("TAG", "1")], none⟩
        { Options.standard with undefined := .fail } "one.yml" laterManifest =
      .error (.interpolation "data" (.unset "DRIVER")) := by
  have hversion : majorVersion laterManifest.version = .ok 3 := by decide +kernel
  constructor
  · refine ((unsupported_version_refused hversion le_rfl rfl _ _ _).2 _).2
      (.inr ⟨fun e h => ?_, rfl⟩)
    have hprepared : (prepare (.ofEntries [("DRIVER", "local"), ("TAG", "1")])
        { Options.standard with undefined := .fail } laterManifest).toOption.isSome = true := by
      decide +kernel
    rw [(prepare_eq_error_iff rfl).2 h] at hprepared
    cases hprepared
  · have htexts : laterManifest.fieldTexts =
        [("web.extends", "base"), ("web.image", "app:$TAG")] ++ [("data", "$DRIVER")] := by
      decide +kernel
    have hbefore : ∀ t ∈ [("web.extends", "base"), ("web.image", "app:$TAG")], ∃ text,
        Reference.substitute (.ofEntries [("TAG", "1")]) .fail t.2 = .ok text :=
      Outcome.exists_mapM_eq_ok_iff.1 ⟨["base", "app:1"], by decide +kernel⟩
    exact ((unsupported_version_refused hversion le_rfl rfl _ _ _).2 _).2
      (.inl (.reference rfl htexts hbefore (by decide +kernel)))

/-- A document of version 3 with a port in the form of that version. -/
def portMapping : Bytes :=
  "version: \"3\"\nservices:\n  web:\n    ports:\n    - target: 80\n".toUTF8.toList

/-- The port is refused before the version is looked at. -/
theorem portMapping_refused_for_port :
    (Manifest.load portMapping >>= fun m => majorVersion m.version) = .ok 3 ∧
      (Manifest.load portMapping >>= mergeManifest .empty ⟨.empty, none⟩ .standard "one.yml") =
        .error (.service "web" (.portKind "mapping")) ∧
      Error.service "web" (.portKind "mapping") ≠ .unsupportedVersion "3" := by
  decide +kernel

end ComposeMerge
