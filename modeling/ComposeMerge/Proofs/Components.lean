import ComposeMerge.Proofs.Settings

/-!
# The slots of records and tables

The settings of a service that are written as mappings, and what these are made of.

* `buildLaws` and its siblings list the components of each record;
* `isMapping_build` and its siblings are the slots of the settings as a whole;
* `FieldKind.sound_slot` and `FieldKind.accepts_slot`: whatever its kind, what is written for a
  field is read again, and everything that can be read can be laid over it.
-/

namespace ComposeMerge

open Entries (Sorted get?)
open Slot (IsScalar IsList IsMapping Sound)
open Spelling Shape Written

/-- The components of build settings. -/
def buildComponents : List (Component Build) :=
  [⟨"context", Option String, none, optional string, text, Build.context,
      fun v r => { r with context := v }⟩,
   ⟨"dockerfile", Option String, none, optional string, text, Build.dockerfile,
      fun v r => { r with dockerfile := v }⟩,
   ⟨"args", Table String, .empty, Spelling.labels, Written.labels, Build.args,
      fun v r => { r with args := v }⟩]

theorem buildLaws : RecordLaws buildShape buildComponents where
  fields_eq := rfl
  nodup := by decide
  get_start := by simp [buildComponents, buildShape, RecordShape.plain, Build.empty]
  get_set := by simp [buildComponents]
  get_set_of_ne := by simp [buildComponents]
  ext {r r'} h := by
    cases r
    cases r'
    simpa [buildComponents] using h

/-- The components of logging settings. -/
def loggingComponents : List (Component Logging) :=
  [⟨"driver", Option String, none, optional string, text, Logging.driver,
      fun v r => { r with driver := v }⟩,
   ⟨"options", Table String, .empty, Spelling.labels, Written.labels, Logging.options,
      fun v r => { r with options := v }⟩]

theorem loggingLaws : RecordLaws loggingShape loggingComponents where
  fields_eq := rfl
  nodup := by decide
  get_start := by simp [loggingComponents, loggingShape, RecordShape.plain, Logging.empty]
  get_set := by simp [loggingComponents]
  get_set_of_ne := by simp [loggingComponents]
  ext {r r'} h := by
    cases r
    cases r'
    simpa [loggingComponents] using h

/-- The components of a service's part in a network. -/
def networkComponents : List (Component ServiceNetwork) :=
  [⟨"aliases", List String, [], items .chosen string, texts, ServiceNetwork.aliases,
      fun v r => { r with aliases := v }⟩,
   ⟨"ipv4_address", Option String, none, optional string, text, ServiceNetwork.ipv4,
      fun v r => { r with ipv4 := v }⟩,
   ⟨"ipv6_address", Option String, none, optional string, text, ServiceNetwork.ipv6,
      fun v r => { r with ipv6 := v }⟩]

theorem networkLaws : RecordLaws networkShape networkComponents where
  fields_eq := rfl
  nodup := by decide
  get_start := by simp [networkComponents, networkShape, RecordShape.plain, ServiceNetwork.empty]
  get_set := by simp [networkComponents]
  get_set_of_ne := by simp [networkComponents]
  ext {r r'} h := by
    cases r
    cases r'
    simpa [networkComponents] using h

/-- The components of an inheritance declaration that is being read. -/
def extendsComponents : List (Component ExtendsDraft) :=
  [⟨"service", Option String, none, fun v => (string v).map some, text, ExtendsDraft.service,
      fun v r => { r with service := v }⟩,
   ⟨"file", Option String, none, optional string, text, ExtendsDraft.file,
      fun v r => { r with file := v }⟩]

theorem extendsLaws : RecordLaws extendsShape extendsComponents where
  fields_eq := by
    have hput : ∀ (v : Value) (r : ExtendsDraft),
        ((string v).map fun s => { r with service := some s }) =
          ((string v).map some).map fun s => { r with service := s } := by
      intro v r
      cases string v <;> rfl
    simp only [extendsShape, extendsComponents, List.map_cons, List.map_nil, Component.field,
      RecordField.of, hput]
  nodup := by decide
  get_start := by simp [extendsComponents, extendsShape]
  get_set := by simp [extendsComponents]
  get_set_of_ne := by simp [extendsComponents]
  ext {r r'} h := by
    cases r
    cases r'
    simpa [extendsComponents] using h

/-! ### Texts by name -/

/-- The slot of a text in a table. -/
def labelEntry : Slot (Option String) := entrySlot Spelling.text (·.getD "") Value.string

theorem isScalar_labelEntry : labelEntry.IsScalar :=
  isScalar_of (fun a => by cases a <;> rfl) rfl scalar_of_text (fun _ _ h => by cases h)
    fun _ _ h => by cases h

/-- The slot of texts by name. -/
def labelsSlot : Slot (Table String) := .of .empty Spelling.labels Written.labels

/-- Raw texts by name. -/
def readLabels : Entries Value → Read (Table String) := readTable Spelling.text (·.getD "")

/-- The text of a name, as a part of the table. -/
def labelPart : String → Part (Table String) := entryPart Spelling.text (·.getD "") Value.string

theorem assembled_labels : Assembled (fun p => ∃ name, p = labelPart name) readLabels
    (storedTable .string) :=
  assembled_table ..

theorem isMapping_labels : labelsSlot.IsMapping id readLabels (storedTable .string) := by
  refine isMapping_table (fun {es t} _ => ?_) isScalar_labelEntry.sound
  rw [Spelling.labels, optionalTexts, oneOf, readTable, Outcome.map_eq_ok_iff,
    Outcome.map_eq_ok_iff]
  simp

theorem accepts_labels (key : String) : labelsSlot.Accepts key := by
  refine isMapping_labels.accepts assembled_labels ?_
  rintro _ ⟨name, rfl⟩
  exact isScalar_labelEntry.accepts

/-! ### Build and logging settings -/

theorem forall_part_iff {ρ : Type} {comps : List (Component ρ)} {P : Part ρ → Prop} :
    (∀ p, (∃ c ∈ comps, p = c.part) → P p) ↔ ∀ c ∈ comps, P c.part :=
  ⟨fun h c hc => h _ ⟨c, hc, rfl⟩, by rintro h _ ⟨c, hc, rfl⟩; exact h c hc⟩

theorem sound_buildComponents : ∀ c ∈ buildComponents, c.part.slot.Sound := by
  simp only [buildComponents, List.forall_mem_cons]
  exact ⟨isScalar_string.sound, isScalar_string.sound, isMapping_labels.sound, by simp⟩

theorem accepts_buildComponents : ∀ c ∈ buildComponents, c.part.slot.Accepts c.name := by
  simp only [buildComponents, List.forall_mem_cons]
  exact ⟨isScalar_string.accepts, isScalar_string.accepts, accepts_labels _, by simp⟩

theorem sound_loggingComponents : ∀ c ∈ loggingComponents, c.part.slot.Sound := by
  simp only [loggingComponents, List.forall_mem_cons]
  exact ⟨isScalar_string.sound, isMapping_labels.sound, by simp⟩

theorem accepts_loggingComponents : ∀ c ∈ loggingComponents, c.part.slot.Accepts c.name := by
  simp only [loggingComponents, List.forall_mem_cons]
  exact ⟨isScalar_string.accepts, accepts_labels _, by simp⟩

/-- Raw build settings, written as a mapping. -/
def readBuild : Entries Value → Read Build := buildShape.putEntries .empty

/-- Raw logging settings. -/
def readLogging : Entries Value → Read Logging := loggingShape.putEntries .empty

theorem isMapping_build :
    FieldKind.build.slot.IsMapping some readBuild (Component.stored buildComponents) := by
  refine isMapping_record buildLaws.assembled (forall_part_iff.2 sound_buildComponents)
    (fun {es b} => ?_) fun b => ?_
  · show oneOf .build ((buildShape.ofMapping es).map some) = .ok b ↔ _
    rw [oneOf, Outcome.mapError_eq_ok_iff, Outcome.map_eq_ok_iff, buildShape,
      RecordShape.ofMapping_plain]
    rfl
  · rw [← canonical_written]
    simp [Build.write, Component.written, buildComponents]

theorem accepts_build (key : String) : FieldKind.build.slot.Accepts key :=
  isMapping_build.accepts buildLaws.assembled (forall_part_iff.2 accepts_buildComponents)

theorem isMapping_logging (reading : Reading) :
    (Slot.of none (logging reading) (Option.map Logging.write)).IsMapping some readLogging
      (Component.stored loggingComponents) := by
  refine isMapping_record loggingLaws.assembled (forall_part_iff.2 sound_loggingComponents)
    (fun {es b} => ?_) fun b => ?_
  · show (loggingShape.ofMapping es).map some = .ok b ↔ _
    rw [Outcome.map_eq_ok_iff, loggingShape, RecordShape.ofMapping_plain]
    rfl
  · rw [← canonical_written]
    simp [Logging.write, Component.written, loggingComponents]

theorem accepts_logging (reading : Reading) (key : String) :
    (Slot.of none (logging reading) (Option.map Logging.write)).Accepts key :=
  (isMapping_logging reading).accepts loggingLaws.assembled
    (forall_part_iff.2 accepts_loggingComponents)

/-! ### Networks -/

theorem isList_aliases : (Slot.of [] (items .chosen string) texts).IsList string :=
  isList_of (fun _ => rfl) (fun {vs l} => by rw [items])

theorem sound_networkComponents : ∀ c ∈ networkComponents, c.part.slot.Sound := by
  simp only [networkComponents, List.forall_mem_cons]
  exact ⟨isList_aliases.sound, isScalar_string.sound, isScalar_string.sound, by simp⟩

theorem accepts_networkComponents : ∀ c ∈ networkComponents, c.part.slot.Accepts c.name := by
  simp only [networkComponents, List.forall_mem_cons]
  exact ⟨isList_aliases.accepts, isScalar_string.accepts, isScalar_string.accepts, by simp⟩

/-- A raw part in a network; null is one without settings. -/
def readNetwork : Value → Read (Option ServiceNetwork) := optional (networkShape.read .chosen)

/-- The slot of a service's part in one network. -/
def networkEntry : Slot (Option ServiceNetwork) :=
  entrySlot readNetwork (·.getD .empty) ServiceNetwork.write

/-- The part in the network of a name, as a part of the table. -/
def networkPart : String → Part (Table ServiceNetwork) :=
  entryPart readNetwork (·.getD .empty) ServiceNetwork.write

theorem isMapping_networkEntry : networkEntry.IsMapping some (networkShape.putEntries .empty)
    (Component.stored networkComponents) := by
  refine isMapping_record networkLaws.assembled (forall_part_iff.2 sound_networkComponents)
    (fun {es b} => ?_) fun b => ?_
  · show ((networkShape.ofMapping es).map some).map _ = .ok b ↔ _
    rw [Outcome.map_eq_ok_iff, networkShape, RecordShape.ofMapping_plain]
    simp [Outcome.map_eq_ok_iff]
  · rw [← canonical_written]
    simp [ServiceNetwork.write, Component.written, networkComponents]

theorem accepts_networkEntry (key : String) : networkEntry.Accepts key :=
  isMapping_networkEntry.accepts networkLaws.assembled
    (forall_part_iff.2 accepts_networkComponents)

theorem assembled_networks : Assembled (fun p => ∃ name, p = networkPart name)
    (readTable readNetwork (·.getD .empty)) (storedTable ServiceNetwork.write) :=
  assembled_table ..

theorem isMapping_networks : FieldKind.networks.slot.IsMapping id
    (readTable readNetwork (·.getD .empty)) (storedTable ServiceNetwork.write) := by
  refine isMapping_table (fun {es t} hes => ?_) isMapping_networkEntry.sound
  show (oneOf .networks ((Entries.traverse (fun _ v => readNetwork v) es).map Table.ofList)).map
    (fun t => t.mapValues (·.getD .empty)) = .ok t ↔ _
  -- The entries are settled before they are put into a table on one side, and after on the other.
  have hmap : ∀ {cs}, Entries.traverse (fun _ v => readNetwork v) es = .ok cs →
      (Table.ofList cs).mapValues (·.getD .empty) = Table.ofList (cs.mapValues (·.getD .empty)) :=
    fun hcs => Table.mapValues_ofList _ (hes.traverse hcs).distinct
  simp only [oneOf, readTable, Outcome.map_eq_ok_iff, Outcome.mapError_eq_ok_iff]
  constructor
  · rintro ⟨_, ⟨cs, hcs, rfl⟩, rfl⟩
    exact ⟨cs, hcs, (hmap hcs).symm⟩
  · rintro ⟨cs, hcs, rfl⟩
    exact ⟨_, ⟨cs, hcs, rfl⟩, hmap hcs⟩

theorem accepts_networks (key : String) : FieldKind.networks.slot.Accepts key := by
  refine isMapping_networks.accepts assembled_networks ?_
  rintro _ ⟨name, rfl⟩
  exact accepts_networkEntry name

/-! ### Inheritance declarations -/

/-- The slot of the service that is named. -/
def serviceSlot : Slot String where
  read v := v.elim (.error (.missingField "service")) string
  write s := some (.string s)

theorem isScalar_serviceSlot : serviceSlot.IsScalar where
  sound :=
    { read_write := fun _ => rfl
      canonical_write := fun h => by cases h; simp [Value.string]
      write_of_read_none := fun h => by cases h }
  of_read {v a} h := by
    cases v with
    | scalar x => exact ⟨x, rfl⟩
    | sequence vs => cases h
    | mapping es => cases h
  of_write h := by cases h; exact ⟨_, rfl⟩

/-- The parts of an inheritance declaration. -/
def extendsParts : List (Part Extends) :=
  [⟨"service", String, serviceSlot, Extends.service⟩,
   ⟨"file", Option String, .of none (optional string) text, Extends.file⟩]

/-- An inheritance declaration as raw entries. -/
def storedExtends (e : Extends) : Entries Value :=
  Entries.ofList (Value.canonicalEntries (("service", .string e.service) :: field "file" (text e.file)))

theorem forall_extendsParts_iff {P : Part Extends → Prop} :
    (∀ p, p ∈ extendsParts → P p) ↔
      P ⟨"service", String, serviceSlot, Extends.service⟩ ∧
        P ⟨"file", Option String, .of none (optional string) text, Extends.file⟩ := by
  simp [extendsParts]

theorem readExtends_eq_ok_iff {es : Entries Value} (hes : Sorted es) {e : Extends} :
    extendsShape.ofMapping es = .ok e ↔
      serviceSlot.read (get? "service" es) = .ok e.service ∧
        (Slot.of none (optional string) text).read (get? "file" es) = .ok e.file := by
  have hput : ∀ {r}, extendsShape.putEntries ⟨none, none⟩ es = .ok r ↔
      (get? "service" es).elim (.ok none) (fun v => (string v).map some) = .ok r.service ∧
        (get? "file" es).elim (.ok none) (optional string) = .ok r.file := by
    intro r
    rw [extendsLaws.putEntries_eq_ok_iff hes.distinct]
    simp [extendsComponents]
  -- The draft may lack a service, but what it is finished to has one.
  rw [RecordShape.ofMapping, Outcome.bind_eq_ok_iff]
  constructor
  · rintro ⟨⟨service, file⟩, hr, hfin⟩
    obtain ⟨hservice, hfile⟩ := hput.1 hr
    rw [Outcome.mapError_eq_ok_iff] at hfin
    cases service with
    | none => cases hfin
    | some name =>
      cases hfin
      refine ⟨?_, hfile⟩
      cases hget : get? "service" es with
      | none => simp [hget] at hservice
      | some v =>
        rw [hget] at hservice
        obtain ⟨t, ht, hname⟩ := Outcome.map_eq_ok_iff.1 hservice
        cases hname
        exact ht
  · rintro ⟨hservice, hfile⟩
    refine ⟨⟨some e.service, e.file⟩, hput.2 ⟨?_, hfile⟩, rfl⟩
    cases hget : get? "service" es with
    | none => rw [hget] at hservice; cases hservice
    | some v =>
      rw [hget] at hservice
      exact Outcome.map_eq_ok_iff.2 ⟨_, hservice, rfl⟩

theorem get?_storedExtends (e : Extends) (name : String) :
    get? name (storedExtends e) =
      if "service" = name then some (.string e.service)
      else if "file" = name then (text e.file).map Value.canonical else none := by
  have hdistinct : Entries.Distinct (("service", Value.string e.service) ::
      field "file" (text e.file)) := by
    refine List.pairwise_cons.2 ⟨fun f hf => ?_, Component.distinct_field _ _⟩
    rw [Component.name_of_mem_field hf]
    show "service" ≠ "file"
    decide
  rw [storedExtends, Value.get?_ofList_canonicalEntries hdistinct, Entries.get?_cons,
    Component.get?_field]
  split
  · rfl
  · split <;> rfl

theorem assembled_extends : Assembled (· ∈ extendsParts) extendsShape.ofMapping storedExtends where
  read_iff hes := by rw [readExtends_eq_ok_iff hes, forall_extendsParts_iff]
  read_ok {es} hes h := by
    obtain ⟨⟨service, hservice⟩, ⟨file, hfile⟩⟩ := forall_extendsParts_iff.1 h
    exact ⟨⟨service, file⟩, (readExtends_eq_ok_iff hes).2 ⟨hservice, hfile⟩⟩
  get?_write e := by
    rw [forall_extendsParts_iff]
    exact ⟨get?_storedExtends e "service", get?_storedExtends e "file"⟩
  write_cases e name := by
    rw [get?_storedExtends]
    split_ifs with hservice hfile
    · exact .inr ⟨_, List.mem_cons_self, hservice⟩
    · exact .inr ⟨_, List.mem_cons_of_mem _ List.mem_cons_self, hfile⟩
    · exact .inl rfl
  canonical_write e := Value.canonical_mapping_ofList (Value.canonical_canonicalEntries _)

theorem sound_extendsParts : ∀ p, p ∈ extendsParts → p.slot.Sound :=
  forall_extendsParts_iff.2 ⟨isScalar_serviceSlot.sound, isScalar_string.sound⟩

theorem isMapping_inheritance (reading : Reading) :
    (Slot.of none (inheritance reading) (Option.map Extends.write)).IsMapping some
      extendsShape.ofMapping storedExtends := by
  refine isMapping_record assembled_extends sound_extendsParts (fun {es b} => ?_) fun b => ?_
  · show (extendsShape.ofMapping es).map some = .ok b ↔ _
    rw [Outcome.map_eq_ok_iff]
  · rw [Extends.write, Value.canonical]
    rfl

theorem accepts_inheritance (reading : Reading) (key : String) :
    (Slot.of none (inheritance reading) (Option.map Extends.write)).Accepts key :=
  (isMapping_inheritance reading).accepts assembled_extends
    (forall_extendsParts_iff.2 ⟨isScalar_serviceSlot.accepts, isScalar_string.accepts⟩)

/-! ### Resource limits -/

/-- The slot of one of the two limits. -/
def limitSlot : Slot Int64 where
  read v := (v.bind integer?).elim (.error (.noVariant .ulimit)) .ok
  write n := some (.scalar (.int n))

theorem limitSlot_read_eq_ok_iff {v : Option Value} {n : Int64} :
    limitSlot.read v = .ok n ↔ v = some (.scalar (.int n)) := by
  cases v with
  | none => simp [limitSlot]
  | some v =>
    cases v with
    | scalar x => cases x <;> simp [limitSlot, integer?]
    | sequence vs => simp [limitSlot, integer?]
    | mapping es => simp [limitSlot, integer?]

theorem isScalar_limitSlot : limitSlot.IsScalar where
  sound :=
    { read_write := fun _ => rfl
      canonical_write := fun h => by cases h; simp
      write_of_read_none := fun h => by cases h }
  of_read h := ⟨_, Option.some.inj (limitSlot_read_eq_ok_iff.1 h)⟩
  of_write h := by cases h; exact ⟨_, rfl⟩

/-- The parts of a resource limit. -/
def ulimitParts : List (Part Ulimit) :=
  [⟨"soft", Int64, limitSlot, Ulimit.soft⟩, ⟨"hard", Int64, limitSlot, Ulimit.hard⟩]

/-- A resource limit as raw entries. -/
def storedUlimit (u : Ulimit) : Entries Value :=
  Entries.ofList [("soft", .scalar (.int u.soft)), ("hard", .scalar (.int u.hard))]

/-- A resource limit, written as a mapping. -/
def readUlimit (es : Entries Value) : Read Ulimit := ulimit (.mapping es)

theorem readUlimit_eq_ok_iff {es : Entries Value} {u : Ulimit} :
    readUlimit es = .ok u ↔ limitSlot.read (get? "soft" es) = .ok u.soft ∧
      limitSlot.read (get? "hard" es) = .ok u.hard := by
  obtain ⟨soft, hard⟩ := u
  rw [readUlimit, ulimit]
  cases hs : (get? "soft" es).bind integer? with
  | none => simp [limitSlot, hs]
  | some s =>
    cases hh : (get? "hard" es).bind integer? with
    | none => simp [limitSlot, hh]
    | some h => simp [limitSlot, hs, hh]

theorem forall_ulimitParts_iff {P : Part Ulimit → Prop} :
    (∀ p, p ∈ ulimitParts → P p) ↔
      P ⟨"soft", Int64, limitSlot, Ulimit.soft⟩ ∧ P ⟨"hard", Int64, limitSlot, Ulimit.hard⟩ := by
  simp [ulimitParts]

theorem get?_storedUlimit (u : Ulimit) (name : String) :
    get? name (storedUlimit u) =
      if "soft" = name then some (.scalar (.int u.soft))
      else if "hard" = name then some (.scalar (.int u.hard)) else none := by
  have hdistinct : Entries.Distinct
      [("soft", Value.scalar (.int u.soft)), ("hard", .scalar (.int u.hard))] :=
    List.pairwise_pair.2 (show "soft" ≠ "hard" by decide)
  rw [storedUlimit, Entries.get?_ofList hdistinct, Entries.get?_cons, Entries.get?_cons,
    Entries.get?_nil]

theorem assembled_ulimit : Assembled (· ∈ ulimitParts) readUlimit storedUlimit where
  read_iff _ := by rw [readUlimit_eq_ok_iff, forall_ulimitParts_iff]
  read_ok {es} _ h := by
    obtain ⟨⟨soft, hsoft⟩, ⟨hard, hhard⟩⟩ := forall_ulimitParts_iff.1 h
    exact ⟨⟨soft, hard⟩, readUlimit_eq_ok_iff.2 ⟨hsoft, hhard⟩⟩
  get?_write u := by
    rw [forall_ulimitParts_iff]
    exact ⟨get?_storedUlimit u "soft", get?_storedUlimit u "hard"⟩
  write_cases u name := by
    rw [get?_storedUlimit]
    split_ifs with hsoft hhard
    · exact .inr ⟨_, List.mem_cons_self, hsoft⟩
    · exact .inr ⟨_, List.mem_cons_of_mem _ List.mem_cons_self, hhard⟩
    · exact .inl rfl
  canonical_write u := Value.canonical_mapping_ofList (by simp)

theorem sound_ulimitParts : ∀ p, p ∈ ulimitParts → p.slot.Sound :=
  forall_ulimitParts_iff.2 ⟨isScalar_limitSlot.sound, isScalar_limitSlot.sound⟩

/-- A mapping that is a limit on its own gives both parts, whatever it is laid over. -/
theorem readUlimit_overlay (u : Ulimit) {fs : Entries Value} (hfs : Sorted fs) {b : Ulimit}
    (hb : readUlimit fs = .ok b) : readUlimit (overlayEntries (storedUlimit u) fs) = .ok b := by
  have hpart : ∀ {p : Part Ulimit}, p.slot.IsScalar → (∃ v, get? p.name fs = some v) →
      p ∈ ulimitParts → p.slot.read (get? p.name fs) = .ok (p.get b) →
      p.slot.read (get? p.name (overlayEntries (storedUlimit u) fs)) = .ok (p.get b) := by
    rintro p hp ⟨v, hv⟩ hmem hread
    rw [assembled_ulimit.get?_overlay_write u hfs hmem, hv, hp.overlay_write, ← hv]
    exact hread
  have hread := (assembled_ulimit.read_iff hfs).1 hb
  refine (assembled_ulimit.read_iff (assembled_ulimit.sorted_overlay_write u fs)).2 ?_
  obtain ⟨hsoft, hhard⟩ := forall_ulimitParts_iff.1 hread
  exact forall_ulimitParts_iff.2
    ⟨hpart isScalar_limitSlot ⟨_, limitSlot_read_eq_ok_iff.1 hsoft⟩ (by simp [ulimitParts]) hsoft,
      hpart isScalar_limitSlot ⟨_, limitSlot_read_eq_ok_iff.1 hhard⟩ (by simp [ulimitParts]) hhard⟩

/-- The slot of one resource limit. -/
def ulimitEntry : Slot (Option Ulimit) := entrySlot ulimit id Ulimit.write

/-- The resource limit of a name, as a part of the table. -/
def ulimitPart : String → Part (Table Ulimit) := entryPart ulimit id Ulimit.write

theorem isMapping_ulimitEntry : ulimitEntry.IsMapping some readUlimit storedUlimit := by
  refine isMapping_record assembled_ulimit sound_ulimitParts (fun {es b} => ?_) fun b => ?_
  · rw [Outcome.map_eq_ok_iff]
    rfl
  · rw [Ulimit.write, Value.canonical]
    rfl

theorem accepts_ulimitEntry (key : String) : ulimitEntry.Accepts key :=
  isMapping_ulimitEntry.accepts assembled_ulimit
    (forall_ulimitParts_iff.2 ⟨isScalar_limitSlot.accepts, isScalar_limitSlot.accepts⟩)

theorem assembled_ulimits : Assembled (fun p => ∃ name, p = ulimitPart name)
    (readTable ulimit id) (storedTable Ulimit.write) :=
  assembled_table ..

theorem isMapping_ulimits (reading : Reading) :
    (Slot.of .empty (ulimits reading) (table Ulimit.write)).IsMapping id (readTable ulimit id)
      (storedTable Ulimit.write) := by
  refine isMapping_table (fun {es t} _ => ?_) isMapping_ulimitEntry.sound
  rw [ulimits, entries, readTable]
  simp [Entries.mapValues]

theorem accepts_ulimits (reading : Reading) (key : String) :
    (Slot.of .empty (ulimits reading) (table Ulimit.write)).Accepts key := by
  refine (isMapping_ulimits reading).accepts assembled_ulimits ?_
  rintro _ ⟨name, rfl⟩
  exact accepts_ulimitEntry name

/-! ### All kinds of fields -/

/-- What is written for a field is read again, whatever the reading. -/
theorem FieldKind.sound_of_reading (k : FieldKind) (reading : Reading) :
    (Slot.of k.unset (k.read reading) k.write).Sound := by
  cases k with
  | text => exact isScalar_text.sound
  | count => exact (isScalar_number _).sound
  | size => exact (isScalar_number _).sound
  | flag => exact isScalar_flag.sound
  | list => exact isList_list.sound
  | command => exact isList_command.sound
  | pairs => exact isList_pairs.sound
  | labels => exact isMapping_labels.sound
  | dependencies => exact isList_dependencies.sound
  | build => exact isMapping_build.sound
  | inheritance => exact (isMapping_inheritance reading).sound
  | logging => exact (isMapping_logging reading).sound
  | networks => exact isMapping_networks.sound
  | ulimits => exact (isMapping_ulimits reading).sound

theorem FieldKind.sound_slot (k : FieldKind) : k.slot.Sound := k.sound_of_reading .direct

/-- Over what is written for a field, everything that can be read can be laid. -/
theorem FieldKind.accepts_slot (k : FieldKind) (key : String) : k.slot.Accepts key := by
  cases k with
  | text => exact isScalar_text.accepts
  | count => exact (isScalar_number _).accepts
  | size => exact (isScalar_number _).accepts
  | flag => exact isScalar_flag.accepts
  | list => exact isList_list.accepts
  | command => exact isList_command.accepts
  | pairs => exact isList_pairs.accepts
  | labels => exact accepts_labels key
  | dependencies => exact isList_dependencies.accepts
  | build => exact accepts_build key
  | inheritance => exact accepts_inheritance .direct key
  | logging => exact accepts_logging .direct key
  | networks => exact accepts_networks key
  | ulimits => exact accepts_ulimits .direct key

end ComposeMerge
