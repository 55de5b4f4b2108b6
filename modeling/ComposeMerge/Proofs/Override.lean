import ComposeMerge.Proofs.Run

/-!
# How later manifests override earlier ones

What a field of a service holds in the end, told from the values that the manifests give it.

* `OverrideLaw`: the last value of a scalar counts, and sequences are put one after the other;
* `OverrideLaw.merge` preserves the law when one more definition is merged;
* `override_of_version2` is the law for runs of manifests of version 2.
-/

namespace ComposeMerge

open Entries (Sorted get?)
open Merging

/-! ### Kinds of fields -/

namespace FieldKind

/-- Whether a field holds a scalar. -/
def isScalar : FieldKind → Bool
  | .text | .count | .size | .flag => true
  | _ => false

/-- Whether a field holds texts in order. -/
def isList : FieldKind → Bool
  | .list | .command | .pairs | .dependencies => true
  | _ => false

/-- The texts of a list; other settings have none. -/
def texts : (k : FieldKind) → k.Setting → List String
  | .list, l => l
  | .command, l => l
  | .pairs, l => l
  | .dependencies, l => l
  | _, _ => []

theorem isScalar_slot {k : FieldKind} (hk : k.isScalar = true) : k.slot.IsScalar := by
  cases k with
  | text => exact isScalar_text
  | count => exact isScalar_number _
  | size => exact isScalar_number _
  | flag => exact isScalar_flag
  | _ => cases hk

theorem texts_unset (k : FieldKind) : k.texts k.unset = [] := by
  cases k <;> rfl

/-- A list without texts is written as nothing. -/
theorem write_slot_of_texts_nil {k : FieldKind} (hk : k.isList = true) {a : k.Setting}
    (ha : k.texts a = []) : k.slot.write a = none := by
  cases k with
  | list => cases ha; rfl
  | command => cases ha; rfl
  | pairs => cases ha; rfl
  | dependencies => cases ha; rfl
  | _ => cases hk

/-- A sequence laid over what a list is written as is appended to the list. -/
theorem texts_overlay_sequence {k : FieldKind} (hk : k.isList = true) {key : String}
    (hkey : isReplaced key = false) {a b : k.Setting} {vs : List Value}
    (hb : k.slot.read (overlaySlot key (k.slot.write a) (some (.sequence vs))) = .ok b) :
    ∃ d, k.slot.read (some (.sequence vs)) = .ok d ∧ k.texts b = k.texts a ++ k.texts d := by
  cases k with
  | list => exact isList_list.of_read_overlay_sequence hkey hb
  | command => exact isList_command.of_read_overlay_sequence hkey hb
  | pairs => exact isList_pairs.of_read_overlay_sequence hkey hb
  | dependencies => exact isList_dependencies.of_read_overlay_sequence hkey hb
  | _ => cases hk

end FieldKind

/-! ### Single fields -/

namespace ServiceField

/-- Whether every value of a field takes the place of the one before it. -/
def isOverwritten (f : ServiceField) : Bool :=
  f.kind.isScalar || f = .links || f = .volumesFrom

/-- What is kept of a setting. -/
def adjust (f : ServiceField) (a : f.kind.Setting) : f.kind.Setting :=
  (adjustService (ServiceConfig.empty.set f a)).get f

/-- What a service with a single field holds in it. -/
def convert (f : ServiceField) (v : Value) : Read f.kind.Setting :=
  (ServiceConfig.read [(f.key, v)]).map fun c => (adjustService c).get f

/-- The values that definitions give a field. -/
def values (f : ServiceField) (bodies : List RawService) : List Value :=
  bodies.filterMap (get? f.key)

theorem adjust_of_ne {f : ServiceField} (hf : f ≠ .restart) (a : f.kind.Setting) :
    f.adjust a = a := by
  rw [adjust, get_adjustService_of_ne _ hf, ServiceConfig.get_set_self]

theorem adjust_restart (a : ServiceField.restart.kind.Setting) :
    adjust .restart a = adjustPolicy a := by
  have h := restart_adjustService (ServiceConfig.empty.set .restart a)
  rwa [show (ServiceConfig.empty.set .restart a).restart = a from
    ServiceConfig.empty.get_set_self .restart a] at h

theorem get_adjustService (c : ServiceConfig) (f : ServiceField) :
    (adjustService c).get f = f.adjust (c.get f) := by
  by_cases hf : f = .restart
  · subst hf
    rw [adjust_restart]
    exact restart_adjustService c
  · rw [adjust_of_ne hf, get_adjustService_of_ne c hf]

theorem adjust_adjust (f : ServiceField) (a : f.kind.Setting) :
    f.adjust (f.adjust a) = f.adjust a := by
  by_cases hf : f = .restart
  · subst hf
    rw [adjust_restart, adjust_restart]
    exact adjustPolicy_adjustPolicy a
  · rw [adjust_of_ne hf]

theorem adjust_unset (f : ServiceField) : f.adjust f.kind.unset = f.kind.unset := by
  by_cases hf : f = .restart
  · subst hf
    rw [adjust_restart]
    rfl
  · exact adjust_of_ne hf _

theorem convert_eq (f : ServiceField) (v : Value) :
    f.convert v = (f.kind.slot.read (some v)).map f.adjust := by
  have hread : ServiceConfig.read [(f.key, v)] =
      (f.kind.slot.read (some v)).map (ServiceConfig.empty.set f) := by
    rw [ServiceConfig.read, ServiceConfig.putFields, ServiceConfig.putField, ofKey?_key]
    show (f.kind.read .direct v).map (ServiceConfig.empty.set f) >>= Except.ok = _
    rw [FieldKind.slot, Slot.of_read_some]
    cases f.kind.read .direct v <;> rfl
  rw [convert, hread]
  cases f.kind.slot.read (some v) <;> rfl

theorem convert_of_ne (f : ServiceField) (hf : f ≠ .restart) (v : Value) :
    f.convert v = f.kind.slot.read (some v) := by
  rw [convert_eq]
  cases f.kind.slot.read (some v) with
  | error m => rfl
  | ok a => rw [Outcome.map_ok, adjust_of_ne hf]

/-- What is converted is kept as it is. -/
theorem adjust_of_convert {f : ServiceField} {o : Option Value} {a : f.kind.Setting}
    (h : o.elim (.ok f.kind.unset) f.convert = .ok a) : f.adjust a = a := by
  cases o with
  | none =>
    cases h
    exact f.adjust_unset
  | some v =>
    rw [Option.elim_some, convert_eq] at h
    obtain ⟨b, -, rfl⟩ := Outcome.map_eq_ok_iff.1 h
    exact f.adjust_adjust b

/-- In a field that is overwritten, a value takes the place of what is written. -/
theorem overlay_of_isOverwritten {f : ServiceField} (hf : f.isOverwritten = true)
    (a : f.kind.Setting) (v : Value) :
    overlaySlot f.key (f.kind.slot.write a) (some v) = some v := by
  simp only [isOverwritten, Bool.or_eq_true, decide_eq_true_eq] at hf
  obtain (hf | rfl) | rfl := hf
  · exact (FieldKind.isScalar_slot hf).overlay_write a v
  · exact isList_list.overlay_of_replaces a (.inl (by decide))
  · exact isList_list.overlay_of_replaces a (.inl (by decide))

theorem isReplaced_key {f : ServiceField} (hf : f.isOverwritten = false) :
    isReplaced f.key = false := by
  cases f <;> first | rfl | cases hf

theorem values_append (f : ServiceField) (bodies : List RawService) (fields : RawService) :
    f.values (bodies ++ [fields]) = f.values bodies ++ (get? f.key fields).toList := by
  rw [values, List.filterMap_append, values]
  cases h : get? f.key fields <;> simp [h]

end ServiceField

/-! ### The law -/

/-- What the fields of a service hold after definitions were laid over each other. -/
structure OverrideLaw (bodies : List RawService) (c : ServiceConfig) : Prop where
  /-- The last value of a field that is overwritten counts. -/
  last : ∀ f : ServiceField, f.isOverwritten = true →
    (f.values bodies).getLast?.elim (.ok f.kind.unset) f.convert = .ok (c.get f)
  /-- The sequences of any other list are put one after the other, behind its first value. -/
  appended : ∀ f : ServiceField, f.kind.isList = true → f.isOverwritten = false →
    (f = .environment → ServiceField.values .envFile bodies = []) →
    (∀ v ∈ (f.values bodies).tail, ∃ vs, v = .sequence vs) →
    ∃ lists, (f.values bodies).mapM f.convert = .ok lists ∧
      f.kind.texts (c.get f) = (lists.map f.kind.texts).flatten

namespace OverrideLaw

/-- Nothing is set before there is a definition. -/
theorem empty : OverrideLaw [] .empty where
  last _ _ := rfl
  appended f _ _ _ _ := ⟨[], rfl, f.kind.texts_unset⟩

theorem envFile_nil {bodies : List RawService} {x : ServiceConfig} (h : OverrideLaw bodies x)
    (hnone : ServiceField.values .envFile bodies = []) : x.get .envFile = [] := by
  obtain ⟨lists, hlists, htexts⟩ := h.appended .envFile rfl rfl (fun h => by cases h)
    (by simp [hnone])
  rw [hnone] at hlists
  cases hlists
  exact htexts

variable {bodies : List RawService} {x c : ServiceConfig} {lookup : Option ResourceLookup}
  {file : Path} {name : String} {fields : RawService}

/-- What becomes of a field, the environment included while no definition lists files. -/
theorem read_merge (h : OverrideLaw bodies x) (hfields : Sorted fields)
    (hc : mergeOnto x lookup file name fields = .ok c) {f : ServiceField}
    (henv : f = .environment → ServiceField.values .envFile (bodies ++ [fields]) = []) :
    f.kind.slot.read (overlaySlot f.key (f.kind.slot.write (x.get f)) (get? f.key fields)) =
      .ok (c.get f) := by
  by_cases hne : f = .environment
  · subst hne
    have hfiles := henv rfl
    rw [ServiceField.values_append, List.append_eq_nil_iff] at hfiles
    have hnone : get? EnvFile.filesField fields = none := Option.toList_eq_nil_iff.1 hfiles.2
    exact (mergeOnto_eq_ok_iff hfields (h.envFile_nil hfiles.1) hnone).1 hc .environment
  · exact get_mergeOnto hfields hc hne

/-- A list to which one more definition is added. -/
theorem appended_merge {f : ServiceField} (hlist : f.kind.isList = true)
    (hf : f.isOverwritten = false) {a b : f.kind.Setting} {lists : List f.kind.Setting}
    {vs : List Value} {u : Option Value} (hlists : vs.mapM f.convert = .ok lists)
    (htexts : f.kind.texts a = (lists.map f.kind.texts).flatten)
    (hread : f.kind.slot.read (overlaySlot f.key (f.kind.slot.write a) u) = .ok b)
    (htail : ∀ v ∈ (vs ++ u.toList).tail, ∃ us, v = .sequence us) :
    ∃ lists', (vs ++ u.toList).mapM f.convert = .ok lists' ∧
      f.kind.texts b = (lists'.map f.kind.texts).flatten := by
  have hconvert : ∀ v, f.convert v = f.kind.slot.read (some v) :=
    f.convert_of_ne fun hrestart => by subst hrestart; cases hlist
  cases u with
  | none =>
    rw [overlaySlot_none_right, f.kind.sound_slot.read_write] at hread
    rw [Option.toList_none, List.append_nil, ← Except.ok.inj hread]
    exact ⟨lists, hlists, htexts⟩
  | some v =>
    rw [Option.toList_some] at htail ⊢
    -- The first value may be anything; every other one is a sequence, which is appended.
    by_cases hfirst : vs = []
    · subst hfirst
      cases hlists
      rw [FieldKind.write_slot_of_texts_nil hlist htexts, overlaySlot_none_left, ← hconvert]
        at hread
      exact ⟨[b], Outcome.mapM_cons_eq_ok_iff.2 ⟨b, [], hread, rfl, rfl⟩, by simp⟩
    · obtain ⟨us, rfl⟩ := htail v (by simp [List.tail_append_of_ne_nil hfirst])
      obtain ⟨d, hd, hsum⟩ :=
        FieldKind.texts_overlay_sequence hlist (ServiceField.isReplaced_key hf) hread
      refine ⟨lists ++ [d], Outcome.mapM_append_eq_ok_iff.2 ⟨lists, [d], hlists, ?_, rfl⟩, ?_⟩
      · exact Outcome.mapM_cons_eq_ok_iff.2 ⟨d, [], (hconvert _).trans hd, rfl, rfl⟩
      · rw [hsum, htexts]
        simp

/-- The law holds on when one more definition is merged. -/
theorem merge (h : OverrideLaw bodies x) (hfields : Sorted fields)
    (hc : mergeOnto x lookup file name fields = .ok c) :
    OverrideLaw (bodies ++ [fields]) (adjustService c) where
  last f hf := by
    have hread := h.read_merge hfields hc (f := f) fun he => by subst he; cases hf
    have hlast := h.last f hf
    rw [f.values_append, ServiceField.get_adjustService]
    -- Without a new value the stored one is written and read again, and adjusted a second time.
    cases hv : get? f.key fields with
    | none =>
      rw [hv, overlaySlot_none_right, f.kind.sound_slot.read_write] at hread
      rw [Option.toList_none, List.append_nil, hlast, ← Except.ok.inj hread,
        ServiceField.adjust_of_convert hlast]
    | some v =>
      rw [hv, ServiceField.overlay_of_isOverwritten hf] at hread
      rw [Option.toList_some, List.getLast?_concat, Option.elim_some, ServiceField.convert_eq,
        hread]
      rfl
  appended f hlist hf henv htail := by
    rw [f.values_append] at htail ⊢
    obtain ⟨lists, hlists, htexts⟩ := h.appended f hlist hf
      (fun he => by
        have hfiles := henv he
        rw [ServiceField.values_append, List.append_eq_nil_iff] at hfiles
        exact hfiles.1)
      fun v hv => htail v ((List.prefix_append _ _).sublist.tail.subset hv)
    rw [get_adjustService_of_ne c fun hrestart => by subst hrestart; cases hlist]
    exact appended_merge hlist hf hlists htexts (h.read_merge hfields hc henv) htail

end OverrideLaw

/-! ### Runs of manifests of version 2 -/

/-- Whether some bytes hold a manifest of version 2. -/
def IsVersion2 (content : Except Error Bytes) : Prop :=
  (content.bind Manifest.load).bind Manifest.schema = .ok .v2

namespace Project

variable {p q : Project} {sources : List (Path × Except Error Bytes)}

/-- The raw fields that manifests give a service, in their order, with references replaced. -/
def bodies (p : Project) (service : String) (sources : List (Path × Except Error Bytes)) :
    List RawService :=
  sources.filterMap fun source =>
    match (source.2.bind Manifest.load).bind (prepare p.around.environment p.options) with
    | .ok m => m.services.get? service
    | .error _ => none

/-- The fields of a manifest of version 2 are merged as they are. -/
theorem map_snd_definitions (hv2 : ∀ source ∈ sources, IsVersion2 source.2) (s : String) :
    (p.definitions s sources).map Prod.snd = p.bodies s sources := by
  rw [definitions, bodies, List.map_filterMap]
  refine List.filterMap_congr fun source hsource => ?_
  obtain ⟨path, content⟩ := source
  obtain ⟨m, hm, hschema⟩ := Outcome.bind_eq_ok_iff.1 (hv2 _ hsource)
  obtain ⟨bytes, hbytes, hload⟩ := Outcome.bind_eq_ok_iff.1 hm
  replace hbytes : content = .ok bytes := hbytes
  subst hbytes
  have hdefinition : definition p.around.environment p.options s (.ok bytes) =
      (prepare p.around.environment p.options m).bind fun m' => .ok (m'.services.get? s) := by
    rw [definition, Outcome.bind_ok, hload, Outcome.bind_ok, hschema, Outcome.bind_ok]
    cases prepare p.around.environment p.options m with
    | error e => rfl
    | ok m' =>
      rw [Outcome.bind_ok]
      cases hget : m'.services.get? s with
      | none => simp [Except.bind, hget]
      | some fields => simp [Except.bind, hget, widened]
  have hbind : (Except.ok m).bind (prepare p.around.environment p.options) =
      prepare p.around.environment p.options m := rfl
  rw [hdefinition, hm, hbind]
  cases prepare p.around.environment p.options m with
  | error e => rfl
  | ok m' => cases hget : m'.services.get? s <;> simp [Except.bind, Except.toOption, hget]

/-- The override law of a run: a service is defined when a manifest gives it fields, and then every
field of it follows from the values that the manifests give that field. -/
theorem override_of_version2 (hooks : p.options.NoHooks) (hempty : p.state.services = .empty)
    (hv2 : ∀ source ∈ sources, IsVersion2 source.2) (hrun : p.addAll sources = (q, .ok ()))
    (s : String) :
    (q.state.services.get? s = none ↔ p.bodies s sources = []) ∧
      ∀ c, q.state.services.get? s = some c → OverrideLaw (p.bodies s sources) c := by
  have hrunInv := addAll_service hooks hrun s
    (fun done x => (x = none ↔ done = []) ∧ OverrideLaw (done.map Prod.snd) (x.getD .empty))
    (fun {done x path fields c} h hfields hc => by
      refine ⟨by simp, ?_⟩
      rw [List.map_append]
      exact h.2.merge hfields.sorted hc)
    [] ⟨by simp [hempty], by simpa [hempty] using OverrideLaw.empty⟩
  rw [List.nil_append, map_snd_definitions hv2] at hrunInv
  obtain ⟨hnone, hlaw⟩ := hrunInv
  refine ⟨?_, fun c hc => by rwa [hc] at hlaw⟩
  rw [hnone, ← map_snd_definitions hv2 s, List.map_eq_nil_iff]

/-- Two manifests that define the same service. -/
def twoManifests : List (Path × Except Error Bytes) :=
  [("one.yml", .ok ("version: \"2\"\nservices:\n  web:\n    image: app:1\n    restart: always\n" ++
      "    links: [db]\n    ports: [80]\n").toUTF8.toList),
   ("two.yml", .ok ("version: \"2\"\nservices:\n  web:\n    image: app:2\n    restart: false\n" ++
      "    links: [cache]\n    ports: [443]\n").toUTF8.toList)]

theorem override_of_two_manifests :
    ((bare.addAll twoManifests).1.state.services.get? "web" = none ↔
        bare.bodies "web" twoManifests = []) ∧
      ∀ c, (bare.addAll twoManifests).1.state.services.get? "web" = some c →
        OverrideLaw (bare.bodies "web" twoManifests) c :=
  override_of_version2 ⟨rfl, rfl⟩ rfl
    (List.forall_mem_cons.2 ⟨by unfold IsVersion2; decide +kernel,
      List.forall_mem_singleton.2 (by unfold IsVersion2; decide +kernel)⟩)
    (Prod.ext rfl (by decide +kernel)) "web"

end Project
end ComposeMerge
