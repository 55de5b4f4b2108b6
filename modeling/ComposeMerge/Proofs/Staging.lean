import ComposeMerge.Proofs.Merge

/-!
# Merging in stages

An earlier definition is kept as a typed service and written again before a later one is laid over
it, while a raw definition keeps the spelling of its manifest. The two ways of merging agree on a
field when the later value meets what is written in the same way as the raw value before it.

* `ServiceField.meets` says so of the values of a field in two raw definitions;
* `FieldKind.keeps_of_meets`: where values meet, merging in stages means the same;
* `mergeServices_of_meets` puts this together for a service.
-/

namespace ComposeMerge

open Entries (Sorted get?)
open Slot (IsList IsMapping Sound DropsVoid)
open Merging

/-! ### How values meet -/

/-- A later value, the last argument, joins an earlier one just when it joins a list. -/
def listMeets (key : String) (v : Value) : Value → Bool
  | .scalar _ => true
  | .sequence _ => v.isVoid || isReplaced key || v.isSequence
  | .mapping _ => v.isVoid || !v.isMapping

/-- A later value, the last argument, joins an earlier one just when it joins a mapping; of two
mappings `inner` decides. -/
def mappingMeets (inner : Entries Value → Entries Value → Bool) (v : Value) : Value → Bool
  | .scalar _ => true
  | .sequence _ => v.isVoid || !v.isSequence
  | .mapping fs =>
    v.isVoid || match v with
      | .mapping es => inner es fs
      | _ => false

/-- Texts by name. -/
def labelsMeet : Value → Value → Bool := mappingMeets fun _ _ => true

/-- Records that hold texts by name in one field. -/
def recordMeets (key : String) : Value → Value → Bool :=
  mappingMeets fun es fs => slotMeets labelsMeet (get? key es) (get? key fs)

/-- Parts in one network. -/
def networkMeets : Value → Value → Bool :=
  mappingMeets fun es fs => slotMeets (listMeets "aliases") (get? "aliases" es) (get? "aliases" fs)

/-- Networks by name. -/
def networksMeet : Value → Value → Bool :=
  mappingMeets fun es fs => fs.all fun e => slotMeets networkMeets (get? e.1 es) (some e.2)

/-- Values of a field of some kind. -/
def FieldKind.meets (key : String) : FieldKind → Value → Value → Bool
  | .list | .command | .pairs | .dependencies => listMeets key
  | .labels => labelsMeet
  | .build => recordMeets "args"
  | .logging => recordMeets "options"
  | .networks => networksMeet
  | .text | .count | .size | .flag | .inheritance | .ulimits => fun _ _ => true

/-- The values of a field in two raw definitions. -/
def ServiceField.meets (f : ServiceField) (base incoming : RawService) : Bool :=
  slotMeets (f.kind.meets f.key) (get? f.key base) (get? f.key incoming)

/-! ### Values that hold nothing -/

theorem dropsVoid_labelsSlot : labelsSlot.DropsVoid := by
  intro v a hv h
  rcases Value.eq_of_isVoid hv with rfl | rfl | rfl <;> cases h <;> exact .inl rfl

theorem dropsVoid_aliases : (Slot.of [] (Shape.items .chosen Shape.string) Written.texts).DropsVoid := by
  intro v a hv h
  rcases Value.eq_of_isVoid hv with rfl | rfl | rfl <;> cases h
  exact .inl rfl

theorem dropsVoid_networkEntry : networkEntry.DropsVoid := by
  intro v a hv h
  rcases Value.eq_of_isVoid hv with rfl | rfl | rfl <;> cases h <;> exact .inr rfl

/-- In every field, what holds nothing is written as nothing. -/
theorem FieldKind.dropsVoid_slot (k : FieldKind) : k.slot.DropsVoid := by
  intro v a hv h
  rcases Value.eq_of_isVoid hv with rfl | rfl | rfl
  · cases k <;> cases h <;> exact .inl rfl
  · cases k <;> cases h <;> first | exact .inl rfl | exact .inr rfl
  · cases k <;> cases h <;> first | exact .inl rfl | exact .inr rfl

/-! ### Merging values in stages -/

section Keeps

variable {α β : Type} {key : String}

theorem keeps_of_slotMeets {s : Slot α} (hs : s.Sound) {meets : Value → Value → Bool}
    (hmeets : ∀ {v u}, v.Canonical → u.Canonical → meets v u = true → s.Keeps key (some v) (some u))
    {v u : Option Value} (hv : ∀ w ∈ v, Value.Canonical w) (hu : ∀ w ∈ u, Value.Canonical w)
    (h : slotMeets meets v u = true) : s.Keeps key v u := by
  cases v with
  | none => exact hs.keeps_none_left u
  | some v =>
    cases u with
    | none => exact hs.keeps_none_right _
    | some u => exact hmeets (hv v rfl) (hu u rfl) h

theorem keeps_of_listMeets {s : Slot (List String)} {item : Value → Read String}
    (hs : s.IsList item) (hvoid : s.DropsVoid) {v u : Value} (hu : u.Canonical)
    (h : listMeets key v u = true) : s.Keeps key (some v) (some u) := by
  by_cases hv : v.isVoid = true
  · refine hvoid.keeps hs.sound hv fun w hw => ?_
    cases hw
    exact hu
  · refine hs.keeps (fun us hus => ?_) fun es hes fs hfs => ?_
    · subst hus
      simp only [listMeets, hv, Bool.false_or, Bool.or_eq_true] at h
      refine h.imp_right fun hseq => ?_
      cases v with
      | sequence vs => exact ⟨vs, rfl⟩
      | _ => cases hseq
    · subst hes hfs
      simp [listMeets, hv, Value.isMapping] at h

theorem keeps_of_mappingMeets {s : Slot α} {embed : β → α} {read : Entries Value → Read β}
    {write : β → Entries Value} {parts : Part β → Prop} (hs : s.IsMapping embed read write)
    (hasm : Assembled parts read write) (hvoid : s.DropsVoid)
    {inner : Entries Value → Entries Value → Bool}
    (hinner : ∀ {es fs}, (Value.mapping es).Canonical → (Value.mapping fs).Canonical →
      inner es fs = true → ∀ p, parts p → p.slot.Keeps p.name (get? p.name es) (get? p.name fs))
    {v u : Value} (hv : v.Canonical) (hu : u.Canonical) (h : mappingMeets inner v u = true) :
    s.Keeps key (some v) (some u) := by
  by_cases hempty : v.isVoid = true
  · refine hvoid.keeps hs.sound hempty fun w hw => ?_
    cases hw
    exact hu
  · refine hs.keeps hasm hv hu (fun us hus vs hvs => ?_) fun fs hfs => ?_
    · subst hus hvs
      simp [mappingMeets, hempty, Value.isSequence] at h
    · subst hfs
      cases v with
      | scalar x => simp [mappingMeets, hempty] at h
      | sequence vs => simp [mappingMeets, hempty] at h
      | mapping es =>
        simp only [mappingMeets, hempty, Bool.false_or] at h
        exact ⟨es, rfl, hinner hv hu h⟩

end Keeps

theorem keeps_of_labelsMeet {key : String} {v u : Value} (hv : v.Canonical) (hu : u.Canonical)
    (h : labelsMeet v u = true) : labelsSlot.Keeps key (some v) (some u) := by
  refine keeps_of_mappingMeets isMapping_labels assembled_labels dropsVoid_labelsSlot ?_ hv hu h
  rintro es fs - - - _ ⟨name, rfl⟩
  exact isScalar_labelEntry.keeps _ _

/-- Texts by name in one field of two records. -/
theorem keeps_labels {key : String} {es fs : Entries Value} (hes : (Value.mapping es).Canonical)
    (hfs : (Value.mapping fs).Canonical)
    (h : slotMeets labelsMeet (get? key es) (get? key fs) = true) :
    labelsSlot.Keeps key (get? key es) (get? key fs) :=
  keeps_of_slotMeets isMapping_labels.sound keeps_of_labelsMeet (fun _ hw => hes.get? hw)
    (fun _ hw => hfs.get? hw) h

theorem keeps_of_networkMeets {key : String} {v u : Value} (hv : v.Canonical) (hu : u.Canonical)
    (h : networkMeets v u = true) : networkEntry.Keeps key (some v) (some u) := by
  refine keeps_of_mappingMeets isMapping_networkEntry networkLaws.assembled dropsVoid_networkEntry
    (fun {es fs} hes hfs h => ?_) hv hu h
  rw [forall_part_iff]
  simp only [networkComponents, List.forall_mem_cons]
  refine ⟨?_, isScalar_string.keeps _ _, isScalar_string.keeps _ _, by simp⟩
  exact keeps_of_slotMeets isList_aliases.sound
    (fun _ hu h => keeps_of_listMeets isList_aliases dropsVoid_aliases hu h)
    (fun w hw => hes.get? hw) (fun w hw => hfs.get? hw) h

theorem keeps_ulimitParts (es fs : Entries Value) : ∀ p, p ∈ ulimitParts →
    p.slot.Keeps p.name (get? p.name es) (get? p.name fs) :=
  forall_ulimitParts_iff.2 ⟨isScalar_limitSlot.keeps _ _, isScalar_limitSlot.keeps _ _⟩

theorem keeps_ulimitEntry {key : String} {v u : Option Value} (hv : ∀ w ∈ v, Value.Canonical w)
    (hu : ∀ w ∈ u, Value.Canonical w) : ulimitEntry.Keeps key v u := by
  cases v with
  | none => exact isMapping_ulimitEntry.sound.keeps_none_left u
  | some v =>
    cases u with
    | none => exact isMapping_ulimitEntry.sound.keeps_none_right _
    | some u =>
      have hcanonical : u.Canonical := hu u rfl
      cases v with
      | sequence vs => intro a b ha; cases ha
      | mapping es =>
        exact isMapping_ulimitEntry.keeps assembled_ulimit (hv _ rfl) hcanonical (by simp)
          fun fs _ => ⟨es, rfl, keeps_ulimitParts es fs⟩
      | scalar x =>
        cases u with
        | scalar y => exact Slot.keeps_scalar_right _ y
        | sequence us => intro a b _ hb; cases hb
        | mapping fs =>
          -- A number is written as a mapping, but one that can be read gives both limits anew.
          intro a b ha hb
          obtain ⟨limit, -, hlimit⟩ := Outcome.map_eq_ok_iff.1 ha
          replace hlimit : some limit = a := hlimit
          subst hlimit
          rw [overlaySlot_some, overlay_scalar_left] at hb
          obtain ⟨b', hb', rfl⟩ := (isMapping_ulimitEntry.read_mapping hcanonical.sorted).1 hb
          rw [isMapping_ulimitEntry.overlay_embed limit hcanonical.sorted]
          exact (isMapping_ulimitEntry.read_mapping
            (assembled_ulimit.sorted_overlay_write limit fs)).2
            ⟨b', readUlimit_overlay limit hcanonical.sorted hb', rfl⟩

/-- Limits are merged the same way in stages. -/
theorem keeps_ulimits {key : String} {v u : Value} (hv : v.Canonical) (hu : u.Canonical) :
    FieldKind.ulimits.slot.Keeps key (some v) (some u) := by
  by_cases hvoid : v.isVoid = true
  · refine FieldKind.ulimits.dropsVoid_slot.keeps FieldKind.ulimits.sound_slot hvoid fun w hw => ?_
    cases hw
    exact hu
  · cases v with
    | scalar x =>
      intro a b ha
      cases x with
      | null => exact absurd rfl hvoid
      | _ => cases ha
    | sequence vs => intro a b ha; cases ha
    | mapping es =>
      refine (isMapping_ulimits .direct).keeps assembled_ulimits hv hu (by simp)
        fun fs hfs => ⟨es, rfl, ?_⟩
      subst hfs
      rintro _ ⟨name, rfl⟩
      exact keeps_ulimitEntry (fun w hw => hv.get? hw) (fun w hw => hu.get? hw)

/-- Inheritance declarations are merged the same way in stages. -/
theorem keeps_inheritance {key : String} {v u : Value} (hv : v.Canonical) (hu : u.Canonical) :
    FieldKind.inheritance.slot.Keeps key (some v) (some u) := by
  cases v with
  | scalar x =>
    intro a b ha
    cases x with
    | null =>
      refine FieldKind.inheritance.dropsVoid_slot.keeps FieldKind.inheritance.sound_slot rfl
        (fun w hw => ?_) ha
      cases hw
      exact hu
    | _ => cases ha
  | sequence vs => intro a b ha; cases ha
  | mapping es =>
    refine (isMapping_inheritance .direct).keeps assembled_extends hv hu (by simp)
      fun fs _ => ⟨es, rfl, forall_extendsParts_iff.2 ⟨?_, ?_⟩⟩
    · exact isScalar_serviceSlot.keeps _ _
    · exact isScalar_string.keeps _ _

/-- Where values meet, merging in stages means the same. -/
theorem FieldKind.keeps_of_meets (k : FieldKind) {key : String} {v u : Value} (hv : v.Canonical)
    (hu : u.Canonical) (h : k.meets key v u = true) : k.slot.Keeps key (some v) (some u) := by
  have hvoid := k.dropsVoid_slot
  cases k with
  | text => exact isScalar_text.keeps _ _
  | count => exact (isScalar_number _).keeps _ _
  | size => exact (isScalar_number _).keeps _ _
  | flag => exact isScalar_flag.keeps _ _
  | list => exact keeps_of_listMeets isList_list hvoid hu h
  | command => exact keeps_of_listMeets isList_command hvoid hu h
  | pairs => exact keeps_of_listMeets isList_pairs hvoid hu h
  | dependencies => exact keeps_of_listMeets isList_dependencies hvoid hu h
  | labels => exact keeps_of_labelsMeet hv hu h
  | build =>
    refine keeps_of_mappingMeets isMapping_build buildLaws.assembled hvoid
      (fun {es fs} hes hfs h => ?_) hv hu h
    rw [forall_part_iff]
    simp only [buildComponents, List.forall_mem_cons]
    exact ⟨isScalar_string.keeps _ _, isScalar_string.keeps _ _, keeps_labels hes hfs h, by simp⟩
  | inheritance => exact keeps_inheritance hv hu
  | logging =>
    refine keeps_of_mappingMeets (isMapping_logging .direct) loggingLaws.assembled hvoid
      (fun {es fs} hes hfs h => ?_) hv hu h
    rw [forall_part_iff]
    simp only [loggingComponents, List.forall_mem_cons]
    exact ⟨isScalar_string.keeps _ _, keeps_labels hes hfs h, by simp⟩
  | networks =>
    refine keeps_of_mappingMeets isMapping_networks assembled_networks hvoid
      (fun {es fs} hes hfs h => ?_) hv hu h
    rintro _ ⟨name, rfl⟩
    refine keeps_of_slotMeets isMapping_networkEntry.sound keeps_of_networkMeets
      (fun w hw => hes.get? hw) (fun w hw => hfs.get? hw) ?_
    show slotMeets networkMeets (get? name es) (get? name fs) = true
    cases hget : get? name fs with
    | none => cases get? name es <;> rfl
    | some u => exact List.all_eq_true.1 h (name, u) (Entries.mem_of_get? hget)
  | ulimits => exact keeps_ulimits hv hu

/-! ### Merging services in stages -/

/-- A field of a service that is laid over what another one is written as. -/
theorem ServiceField.read_of_meets {f : ServiceField} {base incoming : RawService}
    (hbase : (Value.mapping base).Canonical) (hincoming : (Value.mapping incoming).Canonical)
    {a b : f.kind.Setting} (ha : f.kind.slot.read (get? f.key base) = .ok a)
    (hb : f.kind.slot.read (overlaySlot f.key (get? f.key base) (get? f.key incoming)) = .ok b)
    (h : f.meets base incoming = true) :
    f.kind.slot.read (overlaySlot f.key (f.kind.slot.write a) (get? f.key incoming)) = .ok b :=
  keeps_of_slotMeets f.kind.sound_slot (fun hv hu h => f.kind.keeps_of_meets hv hu h)
    (fun _ hw => hbase.get? hw) (fun _ hw => hincoming.get? hw) h ha hb

/-- Without environment files, everything that can be converted can be merged onto a service. -/
theorem mergeOnto_ok {x x₂ : ServiceConfig} {incoming : RawService}
    (hincoming : (Value.mapping incoming).Canonical) (hx : x.get .envFile = [])
    (hfiles : get? EnvFile.filesField incoming = none)
    (hx₂ : ServiceConfig.read incoming = .ok x₂) (lookup : Option ResourceLookup) (file : Path)
    (name : String) : ∃ z, mergeOnto x lookup file name incoming = .ok z := by
  have hsorted := sorted_overlayService_toRaw x incoming
  obtain ⟨z, hz⟩ := ServiceConfig.assembled.accepts
    (by rintro _ ⟨f, rfl⟩; exact f.kind.accepts_slot f.key) x hincoming hx₂
  refine ⟨z, (mergeOnto_eq_ok_iff hincoming.sorted hx hfiles).2 fun f => ?_⟩
  rw [← get?_overlayService_toRaw x hincoming.sorted]
  exact (ServiceConfig.read_eq_ok_iff hsorted).1 hz f

/-- The variables of a service. -/
def ServiceConfig.environment (c : ServiceConfig) : List String := c.get .environment

/-- The labels of a service. -/
def ServiceConfig.labels (c : ServiceConfig) : Table String := c.get .labels

/-- Texts by name, laid over what texts by name are written as, add to them. -/
theorem labels_overlay_mapping {t u w : Table String} {fs : Entries Value} (hfs : Sorted fs)
    (hu : labelsSlot.read (some (.mapping fs)) = .ok u) {key : String}
    (hw : labelsSlot.read (overlaySlot key (labelsSlot.write t) (some (.mapping fs))) = .ok w)
    (name : String) : w.get? name = (u.get? name).or (t.get? name) := by
  obtain ⟨u', hu', rfl⟩ := (isMapping_labels.read_mapping hfs).1 hu
  rw [show labelsSlot.write t = labelsSlot.write (id t) from rfl,
    isMapping_labels.overlay_embed t hfs] at hw
  obtain ⟨w', hw', rfl⟩ :=
    (isMapping_labels.read_mapping (assembled_labels.sorted_overlay_write t fs)).1 hw
  have huname : labelEntry.read (get? name fs) = .ok (u'.get? name) :=
    (assembled_labels.read_iff hfs).1 hu' _ ⟨name, rfl⟩
  have hwname := (assembled_labels.read_iff (assembled_labels.sorted_overlay_write t fs)).1 hw' _
    ⟨name, rfl⟩
  rw [assembled_labels.get?_overlay_write t hfs ⟨name, rfl⟩] at hwname
  replace hwname : labelEntry.read (overlaySlot name (labelEntry.write (t.get? name))
      (get? name fs)) = .ok (w'.get? name) := hwname
  show w'.get? name = (u'.get? name).or (t.get? name)
  cases hget : get? name fs with
  | none =>
    rw [hget] at huname hwname
    rw [overlaySlot_none_right, isScalar_labelEntry.sound.read_write] at hwname
    rw [← Except.ok.inj hwname, ← Except.ok.inj huname, Option.none_or]
  | some v =>
    rw [hget] at huname hwname
    rw [isScalar_labelEntry.overlay_write, huname] at hwname
    obtain ⟨text, -, hsome⟩ := Outcome.map_eq_ok_iff.1 huname
    rw [← Except.ok.inj hwname, ← hsome, Option.some_or]

/-- Merging in stages. A definition that is merged onto a stored one agrees with the raw merge in
every field whose values meet. Lists of variables are put one after the other, and labels that are
written by name are added to the stored ones. -/
theorem mergeServices_of_meets {existing : Services} {lookup : Option ResourceLookup}
    {file : Path} {m : Manifest} {name : String} {base incoming : RawService}
    {x₁ x₂ y : ServiceConfig} (hm : m.services = [(name, incoming)])
    (hexisting : existing.get? name = some x₁) (hbase : (Value.mapping base).Canonical)
    (hincoming : (Value.mapping incoming).Canonical)
    (hfiles₁ : get? EnvFile.filesField base = none)
    (hfiles₂ : get? EnvFile.filesField incoming = none)
    (hx₁ : ServiceConfig.read base = .ok x₁) (hx₂ : ServiceConfig.read incoming = .ok x₂)
    (hy : ServiceConfig.read (overlayService base incoming) = .ok y) :
    ∃ z, mergeServices existing lookup file .v2 m = .ok [(name, z)] ∧
      (∀ f : ServiceField, f.meets base incoming = true → z.get f = y.get f) ∧
      ((∀ f : ServiceField, f.meets base incoming = true) → z = y) ∧
      (∀ us, get? "environment" incoming = some (.sequence us) →
        z.environment = x₁.environment ++ x₂.environment) ∧
      (∀ fs, get? "labels" incoming = some (.mapping fs) → ∀ key,
        z.labels.get? key = (x₂.labels.get? key).or (x₁.labels.get? key)) := by
  have hread₁ := (ServiceConfig.read_eq_ok_iff hbase.sorted).1 hx₁
  have hread₂ := (ServiceConfig.read_eq_ok_iff hincoming.sorted).1 hx₂
  have hready := (ServiceConfig.read_eq_ok_iff (hbase.sorted.overlayEntries incoming)).1 hy
  -- No files are read on either way, so every field is merged on its own.
  have henv : x₁.get .envFile = [] := by
    have h := hread₁ .envFile
    rw [show get? ServiceField.envFile.key base = none from hfiles₁] at h
    exact (Except.ok.inj h).symm
  obtain ⟨z, hz⟩ := mergeOnto_ok hincoming henv hfiles₂ hx₂ lookup file name
  have hreadz := (mergeOnto_eq_ok_iff hincoming.sorted henv hfiles₂).1 hz
  have hmeets : ∀ f : ServiceField, f.meets base incoming = true → z.get f = y.get f := by
    intro f hf
    have hyf := hready f
    rw [get?_overlayEntries hincoming.sorted.distinct] at hyf
    have hzf := ServiceField.read_of_meets hbase hincoming (hread₁ f) hyf hf
    exact Except.ok.inj ((hreadz f).symm.trans hzf)
  refine ⟨z, ?_, hmeets, fun h => ServiceConfig.ext fun f => hmeets f (h f), ?_, ?_⟩
  · rw [mergeServices, hm, Entries.traverse_singleton,
      mergeService_eq_mergeOnto _ _ _ _ hincoming.sorted, hexisting, Option.getD_some, hz]
    rfl
  · intro us hus
    have hzf := hreadz .environment
    have h₂ := hread₂ .environment
    rw [show get? ServiceField.environment.key incoming = some (.sequence us) from hus] at hzf h₂
    exact Except.ok.inj (hzf.symm.trans (isList_pairs.read_overlay_sequence rfl h₂))
  · intro fs hfs key
    have hzf := hreadz .labels
    have h₂ := hread₂ .labels
    rw [show get? ServiceField.labels.key incoming = some (.mapping fs) from hfs] at hzf h₂
    exact labels_overlay_mapping (hincoming.get? hfs).sorted h₂ hzf key

/-- Two definitions with variables and labels in the spelling in which they are stored. -/
theorem mergeServices_of_lists_and_labels :
    ∃ x₁ z : ServiceConfig,
      x₁ = (ServiceConfig.empty.set .environment ["A=1"]).set .labels (.ofList [("a", "1")]) ∧
      mergeServices (.ofList [("web", x₁)]) none "two.yml" .v2
        ⟨"2", [("web", [("environment", .strings ["B=2"]),
          ("labels", .mapping [("b", .string "2")])])], [], []⟩ = .ok [("web", z)] ∧
      z.environment = ["A=1", "B=2"] ∧ z.labels.get? "a" = some "1" := by
  have hcanonical : ∀ t key s, (Value.mapping
      [("environment", .strings [t]), ("labels", .mapping [(key, .string s)])]).Canonical :=
    fun t key s => Value.canonical_mapping_iff.2
      ⟨List.pairwise_pair.2 (show "environment" < "labels" by decide),
        by simp [Entries.Sorted, Value.strings, Value.string]⟩
  obtain ⟨z, hz, -, -, henv, hlabels⟩ := @mergeServices_of_meets
    (.ofList [("web", (ServiceConfig.empty.set .environment ["A=1"]).set .labels
      (.ofList [("a", "1")]))]) none "two.yml"
    ⟨"2", [("web", [("environment", .strings ["B=2"]),
      ("labels", .mapping [("b", .string "2")])])], [], []⟩ "web"
    [("environment", .strings ["A=1"]), ("labels", .mapping [("a", .string "1")])] _ _
    ((ServiceConfig.empty.set .environment ["B=2"]).set .labels (.ofList [("b", "2")]))
    ((ServiceConfig.empty.set .environment ["A=1", "B=2"]).set .labels
      (.ofList [("a", "1"), ("b", "2")]))
    rfl rfl (hcanonical ..) (hcanonical ..) rfl rfl (by decide +kernel) (by decide +kernel)
    (by decide +kernel)
  exact ⟨_, z, rfl, hz, henv _ rfl, by rw [hlabels _ rfl]; decide +kernel⟩

/-- Variables written by name are stored as a list, which a mapping does not join: the first
variable is lost in stages, and kept by the raw merge. -/
theorem environment_lost_in_stages :
    ∃ base incoming : RawService, ∃ x₁ x₂ y z : ServiceConfig,
      base = [("environment", .mapping [("A", .scalar (.int 1))])] ∧
      incoming = [("environment", .mapping [("B", .scalar (.int 2))])] ∧
      ServiceConfig.read base = .ok x₁ ∧ ServiceConfig.read incoming = .ok x₂ ∧
      ServiceConfig.read (overlayService base incoming) = .ok y ∧
      mergeServices (.ofList [("web", x₁)]) none "two.yml" .v2 ⟨"2", [("web", incoming)], [], []⟩ =
        .ok [("web", z)] ∧
      y.environment = ["A=1", "B=2"] ∧ z.environment = ["B=2"] ∧ z ≠ y :=
  ⟨_, _, ServiceConfig.empty.set .environment ["A=1"], ServiceConfig.empty.set .environment ["B=2"],
    ServiceConfig.empty.set .environment ["A=1", "B=2"],
    ServiceConfig.empty.set .environment ["B=2"], rfl, rfl, by decide +kernel, by decide +kernel,
    by decide +kernel, by decide +kernel, rfl, rfl, by decide +kernel⟩

end ComposeMerge
