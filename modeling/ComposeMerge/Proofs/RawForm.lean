import ComposeMerge.Config.Legacy
import ComposeMerge.Proofs.Service

/-!
# Raw form

A configuration is kept in typed form and laid under later definitions in raw form. Nothing is lost
on the way: what is written becomes a raw value, and the raw value is read as the same
configuration.

* `Value.ofNode_toNode`: what is written becomes the raw value with all keys in order;
* `ServiceConfig.ofValue_toRaw`, `LegacyService.ofValue_toRaw`, `VolumeConfig.read_write` and
  `NetworkConfig.read_write`: the raw value is read again;
* `configurations_survive_raw_form` puts the two together.

A legacy service is read in two passes over the same raw fields. Its own fields and the shared ones
have the name `build` in common, so that it can only be read back where the shared build settings
are not set; in whatever has been read they are not.
-/

namespace ComposeMerge

open Entries (Sorted Distinct get?)
open Slot (Sound)
open Spelling Shape Written

/-! ### Documents -/

theorem Scalar.ofInteger_toInt (n : Int64) : Scalar.ofInteger n.toInt = .int n := by
  have hfits : -(Nat.pow 2 63 : Int) ≤ n.toInt ∧ n.toInt < Nat.pow 2 63 :=
    ⟨n.le_toInt, n.toInt_lt⟩
  rw [Scalar.ofInteger, if_pos hfits, Int64.ofInt_toInt]

namespace Value

mutual

/-- A value that is turned into a document tree and back has its keys in order, and nothing else
has changed. -/
theorem ofNode_toNode : (v : Value) → ofNode (toNode v) = .ok v.canonical
  | .scalar .null => rfl
  | .scalar (.bool _) => rfl
  | .scalar (.int n) => by
    rw [toNode, scalarNode, ofNode, Scalar.ofInteger_toInt, canonical]
  | .scalar (.float _) => rfl
  | .scalar (.text _) => rfl
  | .sequence vs => by
    rw [toNode, ofNode, ofItems_toItems vs, canonical]
    rfl
  | .mapping es => by
    rw [toNode, ofNode, ofEntries_toEntries es, canonical]
    rfl

theorem ofItems_toItems : (vs : List Value) → ofItems (toItems vs) = .ok (canonicalItems vs)
  | [] => rfl
  | v :: vs => by
    rw [toItems, ofItems, ofNode_toNode v, ofItems_toItems vs, canonicalItems]
    rfl

theorem ofEntries_toEntries :
    (es : List (String × Value)) → ofEntries (toEntries es) = .ok (canonicalEntries es)
  | [] => rfl
  | (k, v) :: es => by
    rw [toEntries, ofEntries, ofNode_toNode v, ofEntries_toEntries es, canonicalEntries]
    rfl

end

end Value

/-! ### Services -/

theorem ServiceConfig.ofValue_toRaw (c : ServiceConfig) : ofValue (.mapping c.toRaw) = .ok c :=
  c.read_toRaw

/-- Raw fields leave alone what none of them names. -/
theorem ServiceConfig.get_putFields_of_absent {reading : Reading} {f : ServiceField}
    {es : RawService} (h : ∀ e ∈ es, e.1 ≠ f.key) {c c' : ServiceConfig}
    (hput : putFields reading c es = .ok c') : c'.get f = c.get f := by
  induction es generalizing c with
  | nil =>
    cases hput
    rfl
  | cons e es ih =>
    obtain ⟨name, v⟩ := e
    obtain ⟨hname, hes⟩ := List.forall_mem_cons.1 h
    obtain ⟨c₁, hc₁, hput⟩ := Outcome.bind_eq_ok_iff.1 hput
    rw [ih hes hput]
    unfold putField at hc₁
    split at hc₁
    · next g hg =>
      obtain ⟨a, -, rfl⟩ := Outcome.map_eq_ok_iff.1 hc₁
      refine c.get_set_of_ne (fun hgf => hname ?_) a
      rw [← hgf, ServiceField.key_of_ofKey? hg]
    · cases hc₁
      rfl

/-! ### Legacy services -/

namespace LegacyService

/-- The components of a legacy service that its own fields set. -/
def ownComponents : List (Component LegacyService) :=
  [⟨"build", Option String, none, Spelling.text, Written.text, LegacyService.build,
      fun v r => { r with build := v }⟩,
   ⟨"dockerfile", Option String, none, Spelling.text, Written.text, LegacyService.dockerfile,
      fun v r => { r with dockerfile := v }⟩,
   ⟨"log_driver", Option String, none, Spelling.text, Written.text, LegacyService.logDriver,
      fun v r => { r with logDriver := v }⟩,
   ⟨"log_opt", Table String, .empty, Spelling.labels, Written.labels, LegacyService.logOpt,
      fun v r => { r with logOpt := v }⟩,
   ⟨"net", Option String, none, Spelling.text, Written.text, LegacyService.net,
      fun v r => { r with net := v }⟩]

theorem ownLaws : FieldLaws ownShape ownComponents where
  fields_eq := rfl
  nodup := by decide
  get_start := by simp [ownComponents, ownShape, RecordShape.plain, empty]
  get_set := by simp [ownComponents]
  get_set_of_ne := by simp [ownComponents]

theorem sound_ownComponents : ∀ c ∈ ownComponents, c.part.slot.Sound := by
  simp only [ownComponents, List.forall_mem_cons]
  exact ⟨isScalar_text.sound, isScalar_text.sound, isScalar_text.sound, isMapping_labels.sound,
    isScalar_text.sound, by simp⟩

/-- The own fields and the shared ones make up a legacy service. -/
theorem ext_own {r s : LegacyService} (h : ∀ c ∈ ownComponents, c.get r = c.get s) :
    { r with shared := s.shared } = s := by
  cases r
  cases s
  simpa [ownComponents] using h

theorem name_mem_ownKeys {c : Component LegacyService} (hc : c ∈ ownComponents) :
    c.name ∈ ownKeys := by
  rw [ownKeys, ownLaws.fields_eq, List.map_map]
  exact List.mem_map_of_mem hc

/-- The only name that own and shared fields have in common. -/
theorem eq_build_of_key_mem {f : ServiceField} (h : f.key ∈ ownKeys) : f = .build := by
  revert h
  cases f <;> decide

/-- Own and shared fields with the components they are written from. -/
theorem write_eq (s : LegacyService) :
    s.write = Component.written ownComponents s ++ s.shared.write := by
  simp [write, Component.written, ownComponents]

/-- The shared build settings of what has been read are not set. -/
theorem build_of_read {fields : RawService} {s : LegacyService} (h : read fields = .ok s) :
    s.shared.build = none := by
  obtain ⟨own, -, h⟩ := Outcome.bind_eq_ok_iff.1 h
  obtain ⟨shared, hshared, h⟩ := Outcome.bind_eq_ok_iff.1 h
  cases h
  refine ServiceConfig.get_putFields_of_absent (f := .build) (fun e he hkey => ?_) hshared
  have hown : e.1 ∉ ownKeys := by simpa using (List.mem_filter.1 he).2
  exact hown (hkey ▸ by decide)

theorem build_of_ofValue {v : Value} {s : LegacyService} (h : ofValue v = .ok s) :
    s.shared.build = none := by
  unfold ofValue at h
  split at h
  · exact build_of_read h
  · exact build_of_read h
  · cases h

/-- Nothing shared is written under the name of an own field. -/
theorem get?_shared_write {c : ServiceConfig} (hbuild : c.build = none) {name : String}
    (hname : name ∈ ownKeys) : get? name c.write = none := by
  rw [← ServiceConfig.written_eq_write .chosen]
  cases hget : get? name (Component.written (ServiceField.all.map (·.component .chosen)) c) with
  | none => rfl
  | some v =>
    obtain ⟨d, hd, hdname⟩ := Component.name_of_mem_written (Entries.mem_of_get? hget)
    obtain ⟨f, -, rfl⟩ := List.mem_map.1 hd
    have hkey : name = f.key := hdname
    subst hkey
    cases eq_build_of_key_mem hname
    have hwritten := Component.get?_written (serviceLaws .chosen).nodup c hd
    have hunset : FieldKind.build.write c.build = none := by rw [hbuild]; rfl
    exact hget.symm.trans (hwritten.trans hunset)

theorem distinct_write {s : LegacyService} (hbuild : s.shared.build = none) :
    Distinct s.write := by
  have hown := Component.distinct_written ownLaws.nodup s
  have hshared := Component.distinct_written (serviceLaws .chosen).nodup s.shared
  rw [ServiceConfig.written_eq_write] at hshared
  rw [write_eq]
  refine List.pairwise_append.2 ⟨hown, hshared, fun a ha b hb hab => ?_⟩
  obtain ⟨c, hc, hac⟩ := Component.name_of_mem_written ha
  exact Entries.get?_eq_none_iff.1 (get?_shared_write hbuild (name_mem_ownKeys hc)) b hb
    (hab.symm.trans hac)

theorem get?_toRaw {s : LegacyService} (hbuild : s.shared.build = none) (name : String) :
    get? name s.toRaw = ((get? name (Component.written ownComponents s)).or
      (get? name s.shared.write)).map Value.canonical := by
  rw [toRaw, Value.get?_ofList_canonicalEntries (distinct_write hbuild), write_eq,
    Entries.get?_append]

/-- The shared fields of the raw form are the raw form of the shared settings. -/
theorem sharedFields_toRaw {s : LegacyService} (hbuild : s.shared.build = none) :
    sharedFields s.toRaw = s.shared.toRaw := by
  have hsorted : Sorted s.toRaw := Entries.sorted_ofList _
  refine Sorted.eq_of_get? (hsorted.filter _) (Entries.sorted_ofList _) fun name => ?_
  have hshared := Component.distinct_written (serviceLaws .chosen).nodup s.shared
  rw [ServiceConfig.written_eq_write] at hshared
  rw [sharedFields, Entries.get?_filter fun key => !ownKeys.contains key, get?_toRaw hbuild,
    ServiceConfig.toRaw, Value.get?_ofList_canonicalEntries hshared]
  by_cases hname : name ∈ ownKeys
  · rw [if_neg (by simpa using hname), get?_shared_write hbuild hname]
    rfl
  · have hown : get? name (Component.written ownComponents s) = none := by
      refine Entries.get?_eq_none_iff.2 fun e he hkey => hname ?_
      obtain ⟨c, hc, hec⟩ := Component.name_of_mem_written he
      rw [← hkey, hec]
      exact name_mem_ownKeys hc
    rw [if_pos (by simpa using hname), hown, Option.none_or]

/-- What a legacy service is written as is read as that service. -/
theorem read_toRaw {s : LegacyService} (hbuild : s.shared.build = none) :
    read s.toRaw = .ok s := by
  have hsorted : Sorted s.toRaw := Entries.sorted_ofList _
  -- The value of an own field is read as what the component holds.
  have hread : ∀ c ∈ ownComponents,
      (get? c.name s.toRaw).elim (.ok (c.get empty)) c.read = .ok (c.get s) := by
    intro c hc
    rw [get?_toRaw hbuild, get?_shared_write hbuild (name_mem_ownKeys hc), Option.or_none,
      Component.get?_written ownLaws.nodup s hc]
    have hstart : c.get empty = c.unset := ownLaws.get_start c hc
    rw [hstart]
    exact (sound_ownComponents c hc).read_write (c.get s)
  obtain ⟨own, hown⟩ := ownLaws.putEntries_ok hsorted.distinct
    (fun c hc v hv => ⟨c.get s, by simpa [hv] using hread c hc⟩) empty
  have hget : ∀ c ∈ ownComponents, c.get own = c.get s := fun c hc =>
    Except.ok.inj ((ownLaws.get_putEntries hsorted.distinct hown c hc).symm.trans (hread c hc))
  have hofMapping : ownShape.ofMapping s.toRaw = .ok own :=
    (RecordShape.ofMapping_plain ..).trans hown
  rw [read, hofMapping, Outcome.bind_ok, sharedFields_toRaw hbuild,
    ServiceConfig.putFields_toRaw, Outcome.bind_ok, ext_own hget]

theorem ofValue_toRaw {v : Value} {s : LegacyService} (h : ofValue v = .ok s) :
    ofValue (.mapping s.toRaw) = .ok s :=
  read_toRaw (build_of_ofValue h)

end LegacyService

/-! ### Volumes and networks -/

section Records

variable {ρ : Type} {name : String} {start : ρ} {fields : List (RecordField ρ)}
  {comps : List (Component ρ)}

/-- A record of optional fields whose components are read again is read again as a whole. -/
theorem read_written (h : RecordLaws (.plain name start fields) comps)
    (hsound : ∀ c ∈ comps, c.part.slot.Sound) (reading : Reading) (r : ρ) :
    (RecordShape.plain name start fields).read reading
      (Value.mapping (Component.written comps r)).canonical = .ok r := by
  rw [canonical_written, RecordShape.read, RecordShape.ofMapping_plain]
  exact h.assembled.read_write (forall_part_iff.2 hsound) r

end Records

/-- A setting that is written when it is set, and only then, and is read again. -/
theorem sound_of {α : Type} {unset : α} {read : Value → Read α} {write : α → Option Value}
    (hnone : ∀ a, write a = none ↔ a = unset)
    (hread : ∀ {a v}, write a = some v → read v.canonical = .ok a) :
    (Slot.of unset read write).Sound where
  read_write a := by
    rw [Slot.of_write]
    cases hw : write a with
    | none => rw [(hnone a).1 hw]; rfl
    | some v => exact hread hw
  canonical_write {a v} h := by
    obtain ⟨w, -, rfl⟩ := Option.map_eq_some_iff.1 h
    exact w.canonical_canonical
  write_of_read_none h := by
    cases h
    rw [Slot.of_write, (hnone unset).2 rfl, Option.map_none]

/-- A setting that may be null, and is written as something else. -/
theorem sound_optional {α : Type} {read : Value → Read α} {write : α → Value}
    (hread : ∀ a, read (write a).canonical = .ok a) (hnull : ∀ a, (write a).canonical ≠ .null) :
    (Slot.of none (optional read) (Option.map write)).Sound := by
  refine sound_of (fun a => Option.map_eq_none_iff) fun {a v} h => ?_
  obtain ⟨b, rfl, rfl⟩ := Option.map_eq_some_iff.1 h
  unfold Shape.optional
  split
  · next h => exact absurd h (hnull b)
  · rw [hread, Outcome.map_ok]

theorem read_external (e : External) : external e.write.canonical = .ok e := by
  cases e with
  | flag b => rfl
  | named name => rfl

theorem sound_external : (Slot.of none (optional external) (Option.map External.write)).Sound :=
  sound_optional read_external fun e => by
    cases e <;> simp [External.write, Value.canonical, Value.null]

/-- The components of a top-level volume. -/
def volumeComponents : List (Component VolumeConfig) :=
  [⟨"driver", Option String, none, optional string, text, VolumeConfig.driver,
      fun v r => { r with driver := v }⟩,
   ⟨"driver_opts", Table String, .empty, Spelling.labels, Written.labels, VolumeConfig.driverOpts,
      fun v r => { r with driverOpts := v }⟩,
   ⟨"external", Option External, none, optional external, Option.map External.write,
      VolumeConfig.external, fun v r => { r with external := v }⟩]

theorem volumeLaws : RecordLaws volumeShape volumeComponents where
  fields_eq := rfl
  nodup := by decide
  get_start := by simp [volumeComponents, volumeShape, RecordShape.plain, VolumeConfig.empty]
  get_set := by simp [volumeComponents]
  get_set_of_ne := by simp [volumeComponents]
  ext {r r'} h := by
    cases r
    cases r'
    simpa [volumeComponents] using h

theorem sound_volumeComponents : ∀ c ∈ volumeComponents, c.part.slot.Sound := by
  simp only [volumeComponents, List.forall_mem_cons]
  exact ⟨isScalar_string.sound, isMapping_labels.sound, sound_external, by simp⟩

/-- What a volume is written as is read as that volume. -/
theorem VolumeConfig.read_write (v : VolumeConfig) : read v.write.canonical = .ok v := by
  have hwrite : v.write = .mapping (Component.written volumeComponents v) := by
    simp [write, Component.written, volumeComponents]
  rw [hwrite]
  exact read_written volumeLaws sound_volumeComponents .direct v

/-- The slot of a name in a table of strings. -/
theorem isScalar_stringEntry : (entrySlot string id Value.string).IsScalar :=
  isScalar_of (fun a => by cases a <;> rfl) rfl scalar_of_text (fun _ _ h => by cases h)
    fun _ _ h => by cases h

theorem sound_strings :
    (Slot.of Table.empty (entries .direct string) Written.labels).Sound := by
  refine (isMapping_table (fun {es t} _ => ?_) isScalar_stringEntry.sound).sound
  rw [entries, readTable]
  simp [Entries.mapValues]

/-- The components of a pool of addresses. -/
def poolComponents : List (Component IpamPool) :=
  [⟨"subnet", Option String, none, optional string, text, IpamPool.subnet,
      fun v r => { r with subnet := v }⟩,
   ⟨"ip_range", Option String, none, optional string, text, IpamPool.ipRange,
      fun v r => { r with ipRange := v }⟩,
   ⟨"gateway", Option String, none, optional string, text, IpamPool.gateway,
      fun v r => { r with gateway := v }⟩,
   ⟨"aux_addresses", Table String, .empty, entries .direct string, Written.labels,
      IpamPool.auxAddresses, fun v r => { r with auxAddresses := v }⟩]

theorem poolLaws : RecordLaws poolShape poolComponents where
  fields_eq := rfl
  nodup := by decide
  get_start := by simp [poolComponents, poolShape, RecordShape.plain, IpamPool.empty]
  get_set := by simp [poolComponents]
  get_set_of_ne := by simp [poolComponents]
  ext {r r'} h := by
    cases r
    cases r'
    simpa [poolComponents] using h

theorem sound_poolComponents : ∀ c ∈ poolComponents, c.part.slot.Sound := by
  simp only [poolComponents, List.forall_mem_cons]
  exact ⟨isScalar_string.sound, isScalar_string.sound, isScalar_string.sound, sound_strings,
    by simp⟩

theorem read_pool (p : IpamPool) : poolShape.read .direct p.write.canonical = .ok p := by
  have hwrite : p.write = .mapping (Component.written poolComponents p) := by
    simp [IpamPool.write, Component.written, poolComponents]
  rw [hwrite]
  exact read_written poolLaws sound_poolComponents .direct p

theorem mapM_pools (ps : List IpamPool) :
    (Value.canonicalItems (ps.map IpamPool.write)).mapM (poolShape.read .direct) = .ok ps := by
  induction ps with
  | nil => rfl
  | cons p ps ih => exact Outcome.mapM_cons_eq_ok_iff.2 ⟨p, ps, read_pool p, ih, rfl⟩

/-- Pools of addresses, unless there are none. -/
def writePools (ps : List IpamPool) : Option Value :=
  if ps.isEmpty then none else some (.sequence (ps.map IpamPool.write))

theorem sound_pools :
    (Slot.of [] (items .direct (poolShape.read .direct)) writePools).Sound := by
  refine sound_of (fun ps => ?_) fun {ps v} h => ?_
  · simp [writePools]
  · unfold writePools at h
    split at h
    · cases h
    · cases h
      exact mapM_pools ps

/-- The components of address management. -/
def ipamComponents : List (Component Ipam) :=
  [⟨"driver", Option String, none, optional string, text, Ipam.driver,
      fun v r => { r with driver := v }⟩,
   ⟨"config", List IpamPool, [], items .direct (poolShape.read .direct), writePools, Ipam.pools,
      fun v r => { r with pools := v }⟩]

theorem ipamLaws : RecordLaws ipamShape ipamComponents where
  fields_eq := rfl
  nodup := by decide
  get_start := by simp [ipamComponents, ipamShape, RecordShape.plain, Ipam.empty]
  get_set := by simp [ipamComponents]
  get_set_of_ne := by simp [ipamComponents]
  ext {r r'} h := by
    cases r
    cases r'
    simpa [ipamComponents] using h

theorem sound_ipamComponents : ∀ c ∈ ipamComponents, c.part.slot.Sound := by
  simp only [ipamComponents, List.forall_mem_cons]
  exact ⟨isScalar_string.sound, sound_pools, by simp⟩

theorem read_ipam (i : Ipam) : ipamShape.read .direct i.write.canonical = .ok i := by
  have hwrite : i.write = .mapping (Component.written ipamComponents i) := by
    simp [Ipam.write, Component.written, ipamComponents, writePools]
  rw [hwrite]
  exact read_written ipamLaws sound_ipamComponents .direct i

theorem sound_ipam :
    (Slot.of none (optional (ipamShape.read .direct)) (Option.map Ipam.write)).Sound :=
  sound_optional read_ipam fun i => by simp [Ipam.write, Value.canonical, Value.null]

/-- The components of a top-level network. -/
def networkConfigComponents : List (Component NetworkConfig) :=
  [⟨"driver", Option String, none, optional string, text, NetworkConfig.driver,
      fun v r => { r with driver := v }⟩,
   ⟨"driver_opts", Table String, .empty, Spelling.labels, Written.labels, NetworkConfig.driverOpts,
      fun v r => { r with driverOpts := v }⟩,
   ⟨"external", Option External, none, optional external, Option.map External.write,
      NetworkConfig.external, fun v r => { r with external := v }⟩,
   ⟨"ipam", Option Ipam, none, optional (ipamShape.read .direct), Option.map Ipam.write,
      NetworkConfig.ipam, fun v r => { r with ipam := v }⟩]

theorem networkConfigLaws : RecordLaws networkConfigShape networkConfigComponents where
  fields_eq := rfl
  nodup := by decide
  get_start := by
    simp [networkConfigComponents, networkConfigShape, RecordShape.plain, NetworkConfig.empty]
  get_set := by simp [networkConfigComponents]
  get_set_of_ne := by simp [networkConfigComponents]
  ext {r r'} h := by
    cases r
    cases r'
    simpa [networkConfigComponents] using h

theorem sound_networkConfigComponents :
    ∀ c ∈ networkConfigComponents, c.part.slot.Sound := by
  simp only [networkConfigComponents, List.forall_mem_cons]
  exact ⟨isScalar_string.sound, isMapping_labels.sound, sound_external, sound_ipam, by simp⟩

/-- What a network is written as is read as that network. -/
theorem NetworkConfig.read_write (n : NetworkConfig) : read n.write.canonical = .ok n := by
  have hwrite : n.write = .mapping (Component.written networkConfigComponents n) := by
    simp [write, Component.written, networkConfigComponents]
  rw [hwrite]
  exact read_written networkConfigLaws sound_networkConfigComponents .direct n

/-! ### All configurations -/

/-- **Typed configurations survive raw form.** What is written for a service, a volume or a network
becomes a raw value, which is read as the same configuration again; so does what is written for a
legacy service that has been read from anything. -/
theorem configurations_survive_raw_form :
    (∀ c : ServiceConfig,
      Value.ofNode (Value.mapping c.write).toNode = .ok (.mapping c.toRaw) ∧
        ServiceConfig.ofValue (.mapping c.toRaw) = .ok c) ∧
    (∀ (v : Value) (s : LegacyService), LegacyService.ofValue v = .ok s →
      Value.ofNode (Value.mapping s.write).toNode = .ok (.mapping s.toRaw) ∧
        LegacyService.ofValue (.mapping s.toRaw) = .ok s) ∧
    (∀ v : VolumeConfig,
      Value.ofNode v.write.toNode = .ok v.write.canonical ∧
        VolumeConfig.read v.write.canonical = .ok v) ∧
    ∀ n : NetworkConfig,
      Value.ofNode n.write.toNode = .ok n.write.canonical ∧
        NetworkConfig.read n.write.canonical = .ok n := by
  refine ⟨fun c => ?_, fun v s hs => ?_, fun v => ?_, fun n => ?_⟩
  · exact ⟨Value.ofNode_toNode _, c.ofValue_toRaw⟩
  · exact ⟨Value.ofNode_toNode _, LegacyService.ofValue_toRaw hs⟩
  · exact ⟨Value.ofNode_toNode _, v.read_write⟩
  · exact ⟨Value.ofNode_toNode _, n.read_write⟩

end ComposeMerge
