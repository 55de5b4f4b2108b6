import ComposeMerge.Proofs.Settled

/-!
# Two readers of an environment

The `environment` of a service is read as a setting. When the service has environment files, it is
first written out as a list of texts by a second reader, and the list is read as the setting.

* `EnvFile.environmentTexts_of_pairs`: the second reader takes what the first one takes, and reads
  the same texts;
* `Value.isMisread_iff` and `Value.hasNullItem_iff`: what only the second reader takes, as an
  environment and as a list of files;
* `exists_mergeService_iff` and `exists_convert_iff` say when a service is merged with its files,
  and without them;
* `sameButFiles_mergeService_iff`: when files without a line of their own make no difference.
-/

namespace ComposeMerge

open Entries (Sorted get?)
open Merging

/-! ### Shapes -/

namespace Value

/-- Whether a value is a scalar. -/
def isScalar : Value → Bool
  | .scalar _ => true
  | _ => false

/-- Whether a value is a list of scalars, null among them. -/
def hasNullItem : Value → Bool
  | .sequence vs => vs.all isScalar && vs.any isNull
  | _ => false

/-- Whether a value, as an environment, is taken only in a service with environment files: a scalar
alone that is not null, a list of scalars with null among them, or a mapping with a nested value. -/
def isMisread : Value → Bool
  | .scalar s => s ≠ .null
  | .sequence vs => hasNullItem (.sequence vs)
  | .mapping es => es.any fun e => !e.2.isScalar

end Value

/-! ### What each reader takes -/

namespace EnvFile

section Items

variable {field : String} {v : Value} {vs : List Value} {es : Entries Value}

theorem exists_scalarText_iff :
    (∃ t, Shape.scalarText v = .ok t) ↔ v.isScalar = true ∧ v.isNull = false := by
  cases v with
  | scalar s => cases s <;> simp [Shape.scalarText, Shape.mismatch, Value.isScalar, Value.isNull]
  | sequence vs => simp [Shape.scalarText, Shape.mismatch, Value.isScalar]
  | mapping es => simp [Shape.scalarText, Shape.mismatch, Value.isScalar]

theorem exists_itemText_iff : (∃ t, itemText field v = .ok t) ↔ v.isScalar = true := by
  cases v <;> simp [itemText, Value.isScalar]

theorem itemText_of_scalarText {t : String} (h : Shape.scalarText v = .ok t) :
    itemText field v = .ok t := by
  cases v with
  | scalar s => cases s <;> cases h <;> rfl
  | sequence vs => cases h
  | mapping es => cases h

theorem exists_text_iff : (∃ o, Spelling.text v = .ok o) ↔ v.isScalar = true := by
  cases v with
  | scalar s => cases s <;> simp [Spelling.text, Shape.optional, Shape.scalarText, Value.isScalar]
  | sequence vs =>
    simp [Spelling.text, Shape.optional, Shape.scalarText, Shape.mismatch, Value.isScalar]
  | mapping es =>
    simp [Spelling.text, Shape.optional, Shape.scalarText, Shape.mismatch, Value.isScalar]

/-- The text of an entry is the same for both readers. -/
theorem entryText_of_text {key : String} {o : Option String} (h : Spelling.text v = .ok o) :
    entryText key v = Spelling.pairText (key, o) := by
  cases v with
  | scalar s => cases s <;> cases h <;> rfl
  | sequence vs => cases h
  | mapping es => cases h

theorem map_entryText_of_traverse {rs : Entries (Option String)}
    (h : Entries.traverse (fun _ v => Spelling.text v) es = .ok rs) :
    (es.map fun e => entryText e.1 e.2) = rs.map Spelling.pairText := by
  induction es generalizing rs with
  | nil =>
    cases h
    rfl
  | cons e es ih =>
    obtain ⟨k, v⟩ := e
    obtain ⟨o, ho, h⟩ := Outcome.bind_eq_ok_iff.1 h
    obtain ⟨rest, hrest, h⟩ := Outcome.bind_eq_ok_iff.1 h
    cases h
    rw [List.map_cons, List.map_cons, entryText_of_text ho, ih hrest]

/-! ### Sequences and mappings -/

theorem exists_texts_sequence_iff :
    (∃ l, texts field (.sequence vs) = .ok l) ↔ ∀ v ∈ vs, v.isScalar = true := by
  simp only [texts, Outcome.exists_mapM_eq_ok_iff, exists_itemText_iff]

theorem exists_settings_iff {choice : Choice} :
    (∃ l, Spelling.texts choice vs = .ok l) ↔ ∀ v ∈ vs, v.isScalar = true ∧ v.isNull = false := by
  simp only [texts_eq_ok_iff, Outcome.exists_mapM_eq_ok_iff, exists_scalarText_iff]

theorem exists_optionalTexts_iff :
    (∃ rs, Spelling.optionalTexts es = .ok rs) ↔ ∀ e ∈ es, e.2.isScalar = true := by
  simp only [Spelling.optionalTexts, Shape.oneOf, Outcome.mapError_eq_ok_iff,
    Entries.exists_traverse_eq_ok_iff, exists_text_iff]

end Items

/-- What the first reader takes as an environment, the second reads to the same texts. -/
theorem environmentTexts_of_pairs {v : Value} {l : List String} (h : Spelling.pairs v = .ok l) :
    environmentTexts v = .ok l := by
  cases v with
  | scalar s =>
    cases s with
    | null => cases h; rfl
    | _ => cases h
  | sequence vs =>
    exact Outcome.mapM_eq_ok_of_imp itemText_of_scalarText (texts_eq_ok_iff.1 h)
  | mapping es =>
    obtain ⟨rs, hrs, rfl⟩ := Outcome.map_eq_ok_iff.1 h
    rw [Spelling.optionalTexts, Shape.oneOf, Outcome.mapError_eq_ok_iff] at hrs
    exact congrArg Except.ok (map_entryText_of_traverse hrs)

end EnvFile

namespace Value

theorem hasNullItem_sequence_iff {vs : List Value} :
    hasNullItem (.sequence vs) = true ↔
      (∀ v ∈ vs, v.isScalar = true) ∧ ¬ ∀ v ∈ vs, v.isScalar = true ∧ v.isNull = false := by
  simp only [hasNullItem, Bool.and_eq_true, List.all_eq_true, List.any_eq_true]
  refine and_congr_right fun hvs => ?_
  push Not
  refine exists_congr fun v => and_congr_right fun hv => ?_
  simp [hvs v hv]

/-- What only the second reader takes as an environment. -/
theorem isMisread_iff {v : Value} :
    v.isMisread = true ↔
      (∃ l, EnvFile.environmentTexts v = .ok l) ∧ ¬ ∃ l, Spelling.pairs v = .ok l := by
  cases v with
  | scalar s =>
    cases s <;> simp [isMisread, EnvFile.environmentTexts, EnvFile.texts, Spelling.pairs]
  | sequence vs =>
    rw [isMisread, hasNullItem_sequence_iff]
    exact and_congr EnvFile.exists_texts_sequence_iff.symm
      (not_congr EnvFile.exists_settings_iff.symm)
  | mapping es =>
    have hpairs : (∃ l, Spelling.pairs (.mapping es) = .ok l) ↔ ∀ e ∈ es, e.2.isScalar = true := by
      rw [← EnvFile.exists_optionalTexts_iff]
      simp [Spelling.pairs, Outcome.map_eq_ok_iff]
    rw [hpairs, and_iff_right ⟨_, rfl⟩]
    simp [isMisread]

/-- What only the second reader takes as a list of files. -/
theorem hasNullItem_iff {v : Value} :
    v.hasNullItem = true ↔
      (∃ l, EnvFile.texts EnvFile.filesField v = .ok l) ∧ ¬ ∃ l, Spelling.list v = .ok l := by
  cases v with
  | scalar s => cases s <;> simp [hasNullItem, EnvFile.texts, Spelling.list]
  | mapping es => simp [hasNullItem, EnvFile.texts, Spelling.list]
  | sequence vs =>
    rw [hasNullItem_sequence_iff]
    exact and_congr EnvFile.exists_texts_sequence_iff.symm
      (not_congr EnvFile.exists_settings_iff.symm)

end Value

/-! ### Services -/

/-- The value of a field, which may be missing, can be read as its setting. -/
def ServiceField.Readable (f : ServiceField) (fields : RawService) : Prop :=
  ∃ a, f.kind.slot.read (get? f.key fields) = .ok a

section Readable

variable {fields : RawService}

theorem exists_read_iff (hfields : Sorted fields) :
    (∃ c, ServiceConfig.read fields = .ok c) ↔ ∀ f : ServiceField, f.Readable fields := by
  constructor
  · rintro ⟨c, hc⟩ f
    exact ⟨c.get f, (ServiceConfig.read_eq_ok_iff hfields).1 hc f⟩
  · intro h
    refine ServiceConfig.assembled.read_ok hfields ?_
    rintro _ ⟨f, rfl⟩
    exact h f

/-- The entries of a service are those that its environment is read to have. -/
theorem ownEntries_of_read {l : List String}
    (h : FieldKind.pairs.slot.read (get? EnvFile.environmentField fields) = .ok l) :
    EnvFile.ownEntries fields = .ok l := by
  unfold EnvFile.ownEntries
  cases hget : get? EnvFile.environmentField fields with
  | none =>
    rw [hget] at h
    exact congrArg Except.ok (Except.ok.inj h)
  | some v =>
    rw [hget] at h
    exact EnvFile.environmentTexts_of_pairs h

theorem isMisread_environment_iff :
    (get? EnvFile.environmentField fields).any Value.isMisread = true ↔
      (∃ own, EnvFile.ownEntries fields = .ok own) ∧
        ¬ ServiceField.environment.Readable fields := by
  unfold EnvFile.ownEntries ServiceField.Readable
  rw [show ServiceField.environment.key = EnvFile.environmentField from rfl]
  cases get? EnvFile.environmentField fields with
  | none => exact iff_of_false (by simp) fun h => h.2 ⟨_, rfl⟩
  | some v => exact Value.isMisread_iff

theorem hasNullItem_envFile_iff :
    (get? EnvFile.filesField fields).any Value.hasNullItem = true ↔
      (∃ refs, EnvFile.references fields = .ok refs) ∧
        ¬ ServiceField.envFile.Readable fields := by
  unfold EnvFile.references ServiceField.Readable
  rw [show ServiceField.envFile.key = EnvFile.filesField from rfl]
  cases get? EnvFile.filesField fields with
  | none => exact iff_of_false (by simp) fun h => h.2 ⟨_, rfl⟩
  | some v => exact Value.hasNullItem_iff

end Readable

/-! ### Merges with and without files -/

/-- Two merges give the same service but for its files, or both find a value of a wrong shape. -/
def SameButFiles : Except Error ServiceConfig → Except Error ServiceConfig → Prop
  | .ok c, .ok c' => c' = c.set .envFile (FieldKind.unset _)
  | .error e, .error e' => e.kind = .conversion ∧ e'.kind = .conversion
  | _, _ => False

/-- The files can be read, and every line of them is claimed by an entry of the service. -/
def EnvFile.Idle (lookup : ResourceLookup) (file : Path) (fields : RawService)
    (references : List String) : Prop :=
  ∀ r ∈ references, ∃ content, readFile lookup file r = .ok content ∧
    ∀ own, ownEntries fields = .ok own → Claimed own content

theorem ServiceField.key_ne {f g : ServiceField} (h : f ≠ g) : f.key ≠ g.key := mt key_injective h

section Fields

variable {fields : RawService} {own : List String}

theorem readable_insert_iff (f : ServiceField) :
    f.Readable (fields.insert EnvFile.environmentField (.strings own)) ↔
      f ≠ .environment → f.Readable fields := by
  unfold ServiceField.Readable
  by_cases hf : f = .environment
  · subst hf
    rw [show EnvFile.environmentField = ServiceField.environment.key from rfl,
      Entries.get?_insert_self]
    refine iff_of_true ⟨own, ?_⟩ fun h => absurd rfl h
    exact isList_pairs.read_strings own
  · have hkey : f.key ≠ EnvFile.environmentField := ServiceField.key_ne hf
    simp only [Entries.get?_insert_of_ne hkey, ne_eq, hf, not_false_iff, forall_const]

theorem readable_erase_iff (f : ServiceField) :
    f.Readable (fields.erase EnvFile.filesField) ↔ f ≠ .envFile → f.Readable fields := by
  unfold ServiceField.Readable
  rw [Entries.get?_erase]
  by_cases hf : f = .envFile
  · subst hf
    exact iff_of_true ⟨[], rfl⟩ fun h => absurd rfl h
  · have hkey : f.key ≠ EnvFile.filesField := ServiceField.key_ne hf
    simp only [hkey, if_false, ne_eq, hf, not_false_iff, forall_const]

/-- A service read with its environment written out, and without its files. -/
theorem eq_set_of_read (hfields : Sorted fields) (hown : EnvFile.ownEntries fields = .ok own)
    {c c' : ServiceConfig}
    (hc : ServiceConfig.read (fields.insert EnvFile.environmentField (.strings own)) = .ok c)
    (hc' : ServiceConfig.read (fields.erase EnvFile.filesField) = .ok c') :
    c' = c.set .envFile (FieldKind.unset _) := by
  have henvironment := EnvFile.environment_of_read hfields hc
  rw [ServiceConfig.read_eq_ok_iff (hfields.insert _ _)] at hc
  rw [ServiceConfig.read_eq_ok_iff (hfields.erase _)] at hc'
  refine ServiceConfig.ext fun f => ?_
  have hf' := hc' f
  rw [Entries.get?_erase] at hf'
  by_cases hfile : f = .envFile
  · subst hfile
    rw [ServiceConfig.get_set_self]
    exact (Except.ok.inj hf').symm
  · have hkey : f.key ≠ EnvFile.filesField := ServiceField.key_ne hfile
    rw [if_neg hkey] at hf'
    rw [ServiceConfig.get_set_of_ne c (Ne.symm hfile)]
    by_cases henv : f = .environment
    · subst henv
      rw [henvironment]
      exact Except.ok.inj ((ownEntries_of_read hf').symm.trans hown)
    · have hkey' : f.key ≠ EnvFile.environmentField := ServiceField.key_ne henv
      have hf := hc f
      rw [Entries.get?_insert_of_ne hkey'] at hf
      exact Except.ok.inj (hf'.symm.trans hf)

end Fields

section Outcomes

variable {lookup : ResourceLookup} {file : Path} {name : String} {fields : RawService}
  {refs own : List String}

theorem kind_of_convert {e : Error} (h : convert name (ServiceConfig.read fields) = .error e) :
    e.kind = .conversion := by
  unfold convert at h
  cases hread : ServiceConfig.read fields with
  | ok c =>
    rw [hread] at h
    cases h
  | error mismatch =>
    rw [hread] at h
    cases h
    rfl

theorem kind_of_texts {field : String} {v : Value} {e : Error}
    (h : EnvFile.texts field v = .error e) : e.kind = .conversion := by
  cases v with
  | scalar s => cases s <;> cases h
  | mapping es =>
    cases h
    rfl
  | sequence vs =>
    obtain ⟨v, -, hv⟩ := Outcome.exists_of_mapM_eq_error h
    cases v with
    | scalar s => cases hv
    | sequence us =>
      cases hv
      rfl
    | mapping es =>
      cases hv
      rfl

theorem kind_of_ownEntries {e : Error} (h : EnvFile.ownEntries fields = .error e) :
    e.kind = .conversion := by
  unfold EnvFile.ownEntries EnvFile.environmentTexts at h
  split at h
  · split at h
    · cases h
    · exact kind_of_texts h
  · cases h

/-- Without files, a service is read as it is. -/
theorem mergeService_erase (lookup : ResourceLookup) (file : Path) (name : String)
    (fields : RawService) :
    mergeService .empty (some lookup) file name (fields.erase EnvFile.filesField) =
      convert name (ServiceConfig.read (fields.erase EnvFile.filesField)) := by
  have hresolve : resolveEnvFiles (some lookup) file (fields.erase EnvFile.filesField) =
      .ok (fields.erase EnvFile.filesField) := by
    unfold resolveEnvFiles
    rw [Entries.get?_erase, if_pos rfl]
  rw [mergeService, show layOver .empty name (fields.erase EnvFile.filesField) =
    fields.erase EnvFile.filesField from rfl, hresolve, Outcome.bind_ok]

/-- Where the entries of a service cannot be read, no file is. -/
theorem mergeService_of_ownEntries_error (hrefs : EnvFile.references fields = .ok refs)
    (hne : refs ≠ []) {e : Error} (hown : EnvFile.ownEntries fields = .error e) :
    mergeService .empty (some lookup) file name fields = .error e := by
  have hresolve : resolveEnvFiles (some lookup) file fields = .error e := by
    rw [EnvFile.resolveEnvFiles_some, hrefs]
    simp [Except.bind, hne, hown]
  rw [mergeService, show layOver .empty name fields = fields from rfl, hresolve,
    Outcome.bind_error]

/-- With files that add nothing, a service is read with its environment written out. -/
theorem mergeService_of_idle (hrefs : EnvFile.references fields = .ok refs) (hne : refs ≠ [])
    (hidle : EnvFile.Idle lookup file fields refs) (hown : EnvFile.ownEntries fields = .ok own) :
    mergeService .empty (some lookup) file name fields =
      convert name (ServiceConfig.read
        (fields.insert EnvFile.environmentField (.strings own))) := by
  have hadd : EnvFile.addFiles lookup file own refs.reverse = .ok own := by
    refine EnvFile.addFiles_of_claimed fun r hr => ?_
    obtain ⟨content, hcontent, hclaimed⟩ := hidle r (List.mem_reverse.1 hr)
    exact ⟨content, hcontent, hclaimed own hown⟩
  have hresolve : resolveEnvFiles (some lookup) file fields =
      .ok (fields.insert EnvFile.environmentField (.strings own)) :=
    EnvFile.resolveEnvFiles_eq_ok_iff.2
      ⟨refs, hrefs, .inr ⟨hne, lookup, rfl, own, own, hown, hadd, rfl⟩⟩
  rw [mergeService, show layOver .empty name fields = fields from rfl, hresolve, Outcome.bind_ok]

theorem exists_convert_iff (hfields : Sorted fields) :
    (∃ c, convert name (ServiceConfig.read fields) = .ok c) ↔
      ∀ f : ServiceField, f.Readable fields := by
  simp only [convert, Outcome.mapError_eq_ok_iff]
  exact exists_read_iff hfields

section WithFiles

variable (hfields : Sorted fields) (hrefs : EnvFile.references fields = .ok refs) (hne : refs ≠ [])
  (hidle : EnvFile.Idle lookup file fields refs)

include hrefs hne hidle

theorem kind_of_mergeService {e : Error}
    (h : mergeService .empty (some lookup) file name fields = .error e) : e.kind = .conversion := by
  cases hown : EnvFile.ownEntries fields with
  | error e' =>
    rw [mergeService_of_ownEntries_error hrefs hne hown] at h
    cases h
    exact kind_of_ownEntries hown
  | ok own =>
    rw [mergeService_of_idle hrefs hne hidle hown] at h
    exact kind_of_convert h

include hfields

theorem exists_mergeService_iff :
    (∃ c, mergeService .empty (some lookup) file name fields = .ok c) ↔
      (∃ own, EnvFile.ownEntries fields = .ok own) ∧
        ∀ f : ServiceField, f ≠ .environment → f.Readable fields := by
  cases hown : EnvFile.ownEntries fields with
  | error e => simp [mergeService_of_ownEntries_error hrefs hne hown]
  | ok own =>
    rw [mergeService_of_idle hrefs hne hidle hown, exists_convert_iff (hfields.insert _ _),
      and_iff_right ⟨own, rfl⟩]
    exact forall_congr' readable_insert_iff

theorem eq_set_of_mergeService {c c' : ServiceConfig}
    (hc : mergeService .empty (some lookup) file name fields = .ok c)
    (hc' : convert name (ServiceConfig.read (fields.erase EnvFile.filesField)) = .ok c') :
    c' = c.set .envFile (FieldKind.unset _) := by
  obtain ⟨own, hown⟩ := ((exists_mergeService_iff hfields hrefs hne hidle).1 ⟨c, hc⟩).1
  rw [mergeService_of_idle hrefs hne hidle hown] at hc
  exact eq_set_of_read hfields hown (Outcome.mapError_eq_ok_iff.1 hc)
    (Outcome.mapError_eq_ok_iff.1 hc')

end WithFiles

end Outcomes

theorem sameButFiles_iff {x y : Except Error ServiceConfig}
    (hx : ∀ {e}, x = .error e → e.kind = .conversion)
    (hy : ∀ {e}, y = .error e → e.kind = .conversion)
    (hxy : ∀ {c c'}, x = .ok c → y = .ok c' → c' = c.set .envFile (FieldKind.unset _)) :
    SameButFiles x y ↔ ((∃ c, x = .ok c) ↔ ∃ c', y = .ok c') := by
  cases x with
  | error e =>
    cases y with
    | error e' => exact iff_of_true ⟨hx rfl, hy rfl⟩ (by simp)
    | ok c' => exact iff_of_false id (by simp)
  | ok c =>
    cases y with
    | error e' => exact iff_of_false id (by simp)
    | ok c' => exact iff_of_true (hxy rfl rfl) (by simp)

theorem ServiceField.forall_ne_iff {P : ServiceField → Prop} {g h : ServiceField} (hne : h ≠ g) :
    (∀ f, f ≠ g → P f) ↔ (∀ f, f ≠ g → f ≠ h → P f) ∧ P h :=
  ⟨fun hall => ⟨fun f hf _ => hall f hf, hall h hne⟩, fun hall f hf =>
    if hfh : f = h then hfh ▸ hall.2 else hall.1 f hf hfh⟩

/-- **Files without a line of their own.** Let the files of a service exist, and let no line of them
add to its environment. Without its files, the service is merged to the same result, or fails on
both ways on a value of a wrong shape, just when some other field is misspelt, or neither the list
of files nor the environment has a shape that one of the two readers takes and the other does not,
or the list of files has such a shape while the environment cannot be read at all. -/
theorem sameButFiles_mergeService_iff {lookup : ResourceLookup} {file : Path} {name : String}
    {fields : RawService} {refs : List String} (hfields : Sorted fields)
    (hrefs : EnvFile.references fields = .ok refs) (hne : refs ≠ [])
    (hidle : EnvFile.Idle lookup file fields refs) :
    SameButFiles (mergeService .empty (some lookup) file name fields)
        (mergeService .empty (some lookup) file name (fields.erase EnvFile.filesField)) ↔
      (∃ f : ServiceField, f ≠ .environment ∧ f ≠ .envFile ∧ ¬ f.Readable fields) ∨
      ((get? EnvFile.filesField fields).any Value.hasNullItem = false ∧
        (get? EnvFile.environmentField fields).any Value.isMisread = false) ∨
      ((get? EnvFile.filesField fields).any Value.hasNullItem = true ∧
        ¬ ServiceField.environment.Readable fields) := by
  have hnull : (get? EnvFile.filesField fields).any Value.hasNullItem = true ↔
      ¬ ServiceField.envFile.Readable fields := by
    rw [hasNullItem_envFile_iff, and_iff_right ⟨refs, hrefs⟩]
  have hown : ServiceField.environment.Readable fields →
      ∃ own, EnvFile.ownEntries fields = .ok own := fun ⟨l, hl⟩ => ⟨l, ownEntries_of_read hl⟩
  -- All fields but one are those that both merges need, and the other one of the two.
  have hwith := ServiceField.forall_ne_iff (P := fun f => f.Readable fields)
    (show ServiceField.envFile ≠ .environment by decide)
  have hwithout : (∀ f : ServiceField, f ≠ .envFile → f.Readable fields) ↔
      (∀ f : ServiceField, f ≠ .environment → f ≠ .envFile → f.Readable fields) ∧
        ServiceField.environment.Readable fields :=
    (ServiceField.forall_ne_iff (by decide)).trans
      (and_congr_left' (forall_congr' fun _ => imp.swap))
  rw [mergeService_erase, sameButFiles_iff (kind_of_mergeService hrefs hne hidle) kind_of_convert
    (eq_set_of_mergeService hfields hrefs hne hidle), exists_mergeService_iff hfields hrefs hne hidle,
    exists_convert_iff (hfields.erase _), hwith, forall_congr' readable_erase_iff, hwithout,
    ← Bool.not_eq_true, ← Bool.not_eq_true, hnull, isMisread_environment_iff]
  by_cases hothers : ∀ f : ServiceField, f ≠ .environment → f ≠ .envFile → f.Readable fields
  · have hnone : ¬ ∃ f : ServiceField, f ≠ .environment ∧ f ≠ .envFile ∧ ¬ f.Readable fields := by
      push Not
      exact hothers
    rw [and_iff_right hothers, and_iff_right hothers, or_iff_right hnone, not_not]
    by_cases henv : ServiceField.environment.Readable fields
    · simp [henv, hown henv]
    · by_cases hfiles : ServiceField.envFile.Readable fields <;> simp [henv, hfiles]
  · -- Neither merge gives a service.
    have hsome : ∃ f : ServiceField, f ≠ .environment ∧ f ≠ .envFile ∧ ¬ f.Readable fields := by
      push Not at hothers
      exact hothers
    exact iff_of_true (iff_of_false (fun h => hothers h.2.1) fun h => hothers h.1) (.inl hsome)

/-- A file of comments. -/
def commentFile : ResourceLookup := .fromMemory [("app.env", "# none\n".toUTF8.toList)]

/-- A service with a file and an environment. -/
def filedService (environment : Value) : RawService :=
  [("env_file", .string "app.env"), ("environment", environment)]

theorem sorted_filedService (environment : Value) : Sorted (filedService environment) :=
  List.pairwise_pair.2 (show "env_file" < "environment" by decide)

theorem idle_commentFile (fields : RawService) :
    EnvFile.Idle commentFile "one.yml" fields ["app.env"] := by
  intro r hr
  cases List.mem_singleton.1 hr
  have hlines : EnvFile.entryLines "# none\n".toList = [] := by decide +kernel
  have hread : EnvFile.readFile commentFile "one.yml" "app.env" = .ok "# none\n".toList := by
    decide +kernel
  refine ⟨_, hread, fun own _ line hline => ?_⟩
  rw [hlines] at hline
  cases hline

/-- An environment of scalars is the same with the file and without it. -/
theorem sameButFiles_of_scalars :
    let fields := filedService (.mapping [("A", .scalar (.int 1)), ("B", .null)])
    Sorted fields ∧ EnvFile.references fields = .ok ["app.env"] ∧
      EnvFile.Idle commentFile "one.yml" fields ["app.env"] ∧
      SameButFiles (mergeService .empty (some commentFile) "one.yml" "web" fields)
        (mergeService .empty (some commentFile) "one.yml" "web"
          (fields.erase EnvFile.filesField)) := by
  intro fields
  have hrefs : EnvFile.references fields = .ok ["app.env"] := rfl
  have hidle := idle_commentFile fields
  exact ⟨sorted_filedService _, hrefs, hidle,
    (sameButFiles_mergeService_iff (sorted_filedService _) hrefs (by simp) hidle).2
      (.inr (.inl ⟨rfl, rfl⟩))⟩

/-- A nested value is taken, as the name of its kind, in a service with the file only. -/
theorem nested_environment_misread :
    let fields := filedService (.mapping [("A", .sequence [.scalar (.int 1)])])
    EnvFile.references fields = .ok ["app.env"] ∧
      EnvFile.Idle commentFile "one.yml" fields ["app.env"] ∧
      (mergeService .empty (some commentFile) "one.yml" "web" fields).map (·.get .environment) =
        .ok ["A=sequence"] ∧
      mergeService .empty (some commentFile) "one.yml" "web" (fields.erase EnvFile.filesField) =
        .error (.conversion "web" (.noVariant .mapOrList)) ∧
      ¬ SameButFiles (mergeService .empty (some commentFile) "one.yml" "web" fields)
        (mergeService .empty (some commentFile) "one.yml" "web"
          (fields.erase EnvFile.filesField)) := by
  intro fields
  have hwith : (mergeService .empty (some commentFile) "one.yml" "web" fields).map
      (·.get .environment) = .ok ["A=sequence"] := by decide +kernel
  have hwithout : mergeService .empty (some commentFile) "one.yml" "web"
      (fields.erase EnvFile.filesField) = .error (.conversion "web" (.noVariant .mapOrList)) := by
    decide +kernel
  refine ⟨rfl, idle_commentFile fields, hwith, hwithout, ?_⟩
  obtain ⟨c, hc, -⟩ := Outcome.map_eq_ok_iff.1 hwith
  rw [hwithout, hc]
  exact id

end ComposeMerge
