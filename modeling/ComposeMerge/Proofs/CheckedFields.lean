import ComposeMerge.Proofs.LegacyReading
import ComposeMerge.Proofs.Staging
import ComposeMerge.Proofs.Validated

/-!
# Checked fields

Validation looks at the raw values of some fields before anything is merged. What it lets pass there
can be converted: a service that has no other fields is read under every schema, and merged onto
every stored service that reads no environment files.

* `Validation.exists_read_of_serviceFault?`: the value of a checked field is read as its setting;
* `ServiceConfig.exists_read_of_checked` and `Merging.widened_of_checked`: so is the service, as it
  is and as a legacy one;
* `Merging.exists_mergeOnto_of_checked`: it is merged, and its lists of links and of borrowed
  volumes take the place of the stored ones;
* `mergeServices_of_validated` says this of all services of a manifest.
-/

namespace ComposeMerge

open Entries (Sorted get?)
open Merging

/-! ### Values that pass -/

namespace Validation

/-- The fields whose values are checked, apart from the declaration of inheritance. -/
def checkedFields : List ServiceField := [.restart, .ports, .links, .volumesFrom, .dependsOn]

/-- Whether a service has only fields whose values are checked. -/
def OnlyChecked (service : RawService) : Prop :=
  ∀ e ∈ service, e.1 ∈ checkedFields.map ServiceField.key

variable {name : String} {service : RawService} {v : Value}

theorem OnlyChecked.get?_eq_none (h : OnlyChecked service) {f : ServiceField}
    (hf : f ∉ checkedFields) : get? f.key service = none := by
  refine Entries.get?_eq_none_iff.2 fun e he hkey => hf ?_
  obtain ⟨g, hg, hgkey⟩ := List.mem_map.1 (h e he)
  exact ServiceField.key_injective (hgkey.trans hkey) ▸ hg

theorem exists_read_of_restartFault (h : restartFault v = none) :
    ∃ policy, Spelling.text v = .ok policy := by
  unfold restartFault at h
  split at h
  · exact ⟨none, rfl⟩
  · exact ⟨some "false", rfl⟩
  · next s => exact ⟨some s, rfl⟩
  · cases h

/-- An integer or a string has a text. -/
theorem exists_scalarText_of_portFault (h : portFault v = none) :
    ∃ text, Shape.scalarText v = .ok text := by
  unfold portFault at h
  split at h
  · next n => exact ⟨integerText n, rfl⟩
  · next s => exact ⟨s, rfl⟩
  · cases h

theorem exists_read_of_portsFault (h : portsFault v = none) : ∃ l, Spelling.list v = .ok l := by
  cases v with
  | scalar s => cases h
  | mapping es => cases h
  | sequence items =>
    have hitems : ∀ item ∈ items, ∃ text, Shape.scalarText item = .ok text := fun item hitem =>
      exists_scalarText_of_portFault (List.findSome?_eq_none_iff.1 h item hitem)
    obtain ⟨l, hl⟩ := Outcome.exists_mapM_eq_ok_iff.2 hitems
    exact ⟨l, texts_eq_ok_iff.2 hl⟩

theorem eq_strings_of_isStrings (h : isStrings v = true) : ∃ l, v = .strings l := by
  cases v with
  | scalar s => cases h
  | mapping es => cases h
  | sequence items =>
    have hitems : ∀ item ∈ items, ∃ s, Value.string s = item := by
      intro item hitem
      obtain ⟨s, hs⟩ := Option.isSome_iff_exists.1 (List.all_eq_true.1 h item hitem)
      unfold Value.asString? at hs
      split at hs
      · exact ⟨_, rfl⟩
      · cases hs
    have hmap : items ∈ Set.range (List.map Value.string) := by rwa [Set.range_list_map]
    obtain ⟨l, rfl⟩ := hmap
    exact ⟨l, rfl⟩

theorem eq_strings_of_stringsFault {field : String} (h : stringsFault field v = none) :
    ∃ l, v = .strings l := by
  unfold stringsFault at h
  split at h
  · next hstrings => exact eq_strings_of_isStrings hstrings
  · cases h

theorem exists_read_of_dependenciesFault (h : dependenciesFault v = none) :
    ∃ l, Spelling.dependencies v = .ok l := by
  unfold dependenciesFault at h
  split at h
  · next es => exact ⟨Entries.names es, rfl⟩
  · obtain ⟨l, rfl⟩ := eq_strings_of_stringsFault h
    exact ⟨l, isList_dependencies.read_strings l⟩

/-- The fields that must be lists of strings. -/
theorem eq_strings_of_serviceFault? (h : serviceFault? name service = none) {f : ServiceField}
    (hf : f ∈ [ServiceField.links, .volumesFrom]) :
    ∀ v ∈ get? f.key service, ∃ l, v = .strings l := by
  intro v hv
  have hchecks := (serviceFault?_eq_none_iff.1 h).2 (f.key, stringsFault f.key)
  simp only [List.mem_cons, List.not_mem_nil, or_false] at hf
  refine eq_strings_of_stringsFault (hchecks ?_ v hv)
  rcases hf with rfl | rfl <;> simp [checks, ServiceField.key]

/-- The value of a checked field is read as a setting. -/
theorem exists_read_of_serviceFault? (h : serviceFault? name service = none) {f : ServiceField}
    (hf : f ∈ checkedFields) : ∃ a, f.kind.slot.read (get? f.key service) = .ok a := by
  have hchecks := (serviceFault?_eq_none_iff.1 h).2
  cases hget : get? f.key service with
  | none => exact ⟨f.kind.unset, rfl⟩
  | some v =>
    have hfault : ∀ fault, (f.key, fault) ∈ checks → fault v = none := fun fault hmem =>
      hchecks (f.key, fault) hmem v hget
    simp only [checkedFields, List.mem_cons, List.not_mem_nil, or_false] at hf
    rcases hf with rfl | rfl | rfl | rfl | rfl
    · exact exists_read_of_restartFault (hfault _ (by simp [checks, ServiceField.key]))
    · exact exists_read_of_portsFault (hfault _ (by simp [checks, ServiceField.key]))
    · obtain ⟨l, rfl⟩ := eq_strings_of_serviceFault? h (by simp) v hget
      exact ⟨l, isList_list.read_strings l⟩
    · obtain ⟨l, rfl⟩ := eq_strings_of_serviceFault? h (by simp) v hget
      exact ⟨l, isList_list.read_strings l⟩
    · exact exists_read_of_dependenciesFault (hfault _ (by simp [checks, ServiceField.key]))

end Validation

open Validation

variable {name : String} {fields raw : RawService} {schema : Schema}

/-! ### Services that pass -/

/-- A service that only has checked fields, and no fault, can be converted. -/
theorem ServiceConfig.exists_read_of_checked (hsorted : Sorted fields)
    (hfault : serviceFault? name fields = none) (honly : OnlyChecked fields) :
    ∃ c, ServiceConfig.read fields = .ok c := by
  refine ServiceConfig.assembled.read_ok hsorted ?_
  rintro _ ⟨f, rfl⟩
  by_cases hf : f ∈ checkedFields
  · exact exists_read_of_serviceFault? hfault hf
  · rw [show f.part.name = f.key from rfl, honly.get?_eq_none hf]
    exact ⟨f.kind.unset, rfl⟩

namespace Merging

/-- A service without fields of the legacy form means the same as a legacy one, unless its limits
are null. It is written out again on the way. -/
theorem widened_of_shared (name : String) {c : ServiceConfig} (hsorted : Sorted fields)
    (hown : ∀ key ∈ LegacyService.ownKeys, get? key fields = none)
    (hlimits : get? ServiceField.ulimits.key fields = none)
    (hread : ServiceConfig.read fields = .ok c) :
    widened schema name fields = .ok (if schema = .v1 then c.toRaw else fields) := by
  cases schema with
  | v1 =>
    have hnull : (ServiceField.ulimits.key, Value.null) ∉ fields := fun hmem =>
      Entries.get?_eq_none_iff.1 hlimits _ hmem rfl
    rw [widened, widenService, LegacyService.read_of_shared hsorted hown,
      ServiceConfig.putFields_chosen hread hnull]
    exact congrArg (fun d : ServiceConfig => Except.ok d.toRaw) (LegacyService.widen_shared c)
  | v2 => rfl
  | v3 => rfl

theorem widened_of_checked {c : ServiceConfig} (hsorted : Sorted fields)
    (honly : OnlyChecked fields) (hread : ServiceConfig.read fields = .ok c) :
    widened schema name fields = .ok (if schema = .v1 then c.toRaw else fields) := by
  refine widened_of_shared name hsorted (fun key hkey => ?_)
    (honly.get?_eq_none (by decide)) hread
  have hapart : ∀ key ∈ LegacyService.ownKeys, key ∉ checkedFields.map ServiceField.key := by
    decide
  exact Entries.get?_eq_none_iff.2 fun e he hname => hapart key hkey (hname ▸ honly e he)

/-! ### Lists that are given -/

/-- What becomes of a list, given the value of its field: a list of texts takes the place of what
is stored, but where a service is written out on the way, the empty list is not. -/
def Given (schema : Schema) (v : Option Value) (list : List String) : Prop :=
  ∀ w ∈ v, ∃ l, w = .strings l ∧ (schema = .v2 ∨ l ≠ [] → list = l)

theorem Given.eq_of_strings {v : Option Value} {list l : List String} (h : Given schema v list)
    (hv : v = some (.strings l)) (hl : schema = .v2 ∨ l ≠ []) : list = l := by
  subst hv
  obtain ⟨l', hl', hlist⟩ := h _ rfl
  have hread := isList_list.read_strings l'
  rw [← hl'] at hread
  obtain rfl : l = l' := Except.ok.inj ((isList_list.read_strings l).symm.trans hread)
  exact hlist hl

/-- A list of strings in a field whose lists replace each other. -/
theorem given_of_overlay {key : String} (hkey : isReplaced key = true) {v : Option Value}
    (hv : ∀ w ∈ v, ∃ l, w = .strings l) {own stored list : List String}
    (hown : FieldKind.list.slot.read v = .ok own)
    (h : FieldKind.list.slot.read (overlaySlot key (FieldKind.list.slot.write stored)
      (if schema = .v1 then FieldKind.list.slot.write own else v)) = .ok list) :
    Given schema v list := by
  intro w hw
  obtain ⟨l, rfl⟩ := hv w hw
  refine ⟨l, rfl, fun hl => ?_⟩
  cases hw
  obtain rfl : l = own := Except.ok.inj ((isList_list.read_strings l).symm.trans hown)
  have hlaid : (if schema = .v1 then FieldKind.list.slot.write l else some (.strings l)) =
      some (.strings l) := by
    split
    · next hschema =>
      have hne : l ≠ [] := hl.resolve_left fun h2 => by cases hschema.symm.trans h2
      exact (isList_list.write_eq l).resolve_left fun hnil => hne hnil.1
    · rfl
  rw [hlaid, isList_list.overlay_of_replaces stored (.inl hkey), isList_list.read_strings] at h
  exact (Except.ok.inj h).symm

/-- A service that passes is merged onto every stored one that reads no files. -/
theorem exists_mergeOnto_of_checked {x : ServiceConfig} (hx : x.get .envFile = [])
    (hfields : (Value.mapping fields).Canonical) (hfault : serviceFault? name fields = none)
    (honly : OnlyChecked fields) (lookup : Option ResourceLookup) (file : Path)
    (schema : Schema) :
    ∃ raw c, widened schema name fields = .ok raw ∧ (Value.mapping raw).Canonical ∧
      mergeOnto x lookup file name raw = .ok c ∧
      Given schema (get? "links" fields) c.links ∧
      Given schema (get? "volumes_from" fields) c.volumesFrom := by
  obtain ⟨own, hown⟩ := ServiceConfig.exists_read_of_checked hfields.sorted hfault honly
  have hreads := (ServiceConfig.read_eq_ok_iff hfields.sorted).1 hown
  have hwidened : widened schema name fields = .ok (if schema = .v1 then own.toRaw else fields) :=
    widened_of_checked hfields.sorted honly hown
  have hraw := canonical_widened hfields hwidened
  -- What is merged is the service as it is, or what it is written as.
  have hget : ∀ f : ServiceField, get? f.key (if schema = .v1 then own.toRaw else fields) =
      if schema = .v1 then f.kind.slot.write (own.get f) else get? f.key fields := fun f => by
    rw [apply_ite (get? f.key), own.get?_toRaw]
  have hfiles : get? EnvFile.filesField (if schema = .v1 then own.toRaw else fields) = none := by
    have habsent := honly.get?_eq_none (f := .envFile) (by decide)
    have hnil := hreads .envFile
    rw [habsent] at hnil
    refine (hget .envFile).trans ?_
    rw [habsent, ← Except.ok.inj hnil]
    exact ite_self _
  have hread : ServiceConfig.read (if schema = .v1 then own.toRaw else fields) = .ok own := by
    split
    · exact own.read_toRaw
    · exact hown
  obtain ⟨c, hc⟩ := mergeOnto_ok hraw hx hfiles hread lookup file name
  have hlinks := get_mergeOnto hraw.sorted hc (f := .links) (by decide)
  have hvolumes := get_mergeOnto hraw.sorted hc (f := .volumesFrom) (by decide)
  rw [hget] at hlinks hvolumes
  exact ⟨_, c, hwidened, hraw, hc,
    given_of_overlay (by decide) (eq_strings_of_serviceFault? hfault (by simp)) (hreads .links)
      hlinks,
    given_of_overlay (by decide) (eq_strings_of_serviceFault? hfault (by simp))
      (hreads .volumesFrom) hvolumes⟩

end Merging

/-! ### Manifests that pass -/

/-- **Validated services can be merged.** Services whose fields are all checked are merged onto any
stored services that read no files, whether they are legacy ones or not; a list of links or of
borrowed volumes that is given is the list of the merged service. -/
theorem mergeServices_of_validated {existing : Services} {m : Manifest}
    (hm : CanonicalServices m.services) (hvalid : validate m.services = .ok ())
    (honly : ∀ e ∈ m.services, OnlyChecked e.2)
    (hexisting : ∀ name x, existing.get? name = some x → x.get .envFile = [])
    (lookup : Option ResourceLookup) (file : Path) (hschema : schema ≠ .v3) :
    ∃ services, mergeServices existing lookup file schema m = .ok services ∧
      ∀ name fields, get? name m.services = some fields → ∃ c, get? name services = some c ∧
        Given schema (get? "links" fields) c.links ∧
        Given schema (get? "volumes_from" fields) c.volumesFrom := by
  have hstep : ∀ e ∈ m.services, ∃ c, (do
      let raw ← widened schema e.1 e.2
      mergeService existing lookup file e.1 raw) = .ok c ∧
        Given schema (get? "links" e.2) c.links ∧
        Given schema (get? "volumes_from" e.2) c.volumesFrom := by
    intro e he
    have hx : ((existing.get? e.1).getD .empty).get .envFile = [] := by
      cases hget : existing.get? e.1 with
      | none => rfl
      | some x => exact hexisting _ x hget
    have hcanonical := hm.fields ((Entries.get?_eq_some_iff hm.sorted.distinct).2 he)
    obtain ⟨raw, c, hwidened, hraw, hc, hgiven⟩ := exists_mergeOnto_of_checked hx hcanonical
      (validate_eq_ok_iff.1 hvalid e he) (honly e he) lookup file schema
    rw [← mergeService_eq_mergeOnto existing lookup file e.1 hraw.sorted] at hc
    exact ⟨c, Outcome.bind_eq_ok_iff.2 ⟨raw, hwidened, hc⟩, hgiven⟩
  obtain ⟨services, hservices⟩ : ∃ services,
      mergeServices existing lookup file schema m = .ok services := by
    simp only [mergeServices_eq_ok_iff, exists_and_left]
    exact ⟨hschema, Entries.exists_traverse_eq_ok_iff.2 fun e he =>
      (hstep e he).imp fun _ hc => hc.1⟩
  refine ⟨services, hservices, fun name fields hname => ?_⟩
  replace hservices := (mergeServices_eq_ok_iff.1 hservices).2
  obtain ⟨hnone, -⟩ | ⟨_, c, hsome, hc, hget⟩ := Entries.get?_traverse hservices name
  · cases hnone.symm.trans hname
  · cases hsome.symm.trans hname
    obtain ⟨c', hc', hgiven⟩ := hstep (name, fields) (Entries.mem_of_get? hname)
    cases hc.symm.trans hc'
    exact ⟨c, hget, hgiven⟩

/-- A stored service with volumes of another one. -/
def borrowingStore : Services :=
  .ofList [("web", (ServiceConfig.empty.set .dependsOn ["db"]).set .volumesFrom ["data"])]

/-- The same service with every field that is checked. -/
def checkedWeb : Manifest :=
  ⟨"2", [("web", [("depends_on", .mapping [("cache", .null)]), ("links", .strings ["db:database"]),
    ("ports", .sequence [.scalar (.int 80), .string "443:443"]), ("restart", .scalar (.bool false)),
    ("volumes_from", .sequence [])])], [], []⟩

theorem canonical_checkedWeb : CanonicalServices checkedWeb.services where
  sorted := List.pairwise_singleton ..
  fields {name fields} h := by
    obtain ⟨-, rfl⟩ : "web" = name ∧ _ = fields := by
      simpa [checkedWeb, Entries.get?_cons] using h
    refine Value.canonical_mapping_iff.2 ⟨?_, ?_⟩
    · unfold Sorted
      decide
    · simp [Sorted, Value.strings, Value.string, Value.null]

/-- The links are replaced on both ways, the borrowed volumes where the empty list counts. -/
theorem merged_checkedWeb :
    validate checkedWeb.services = .ok () ∧
    (∃ services c, mergeServices borrowingStore none "two.yml" .v1 checkedWeb = .ok services ∧
      get? "web" services = some c ∧ c.links = ["db:database"]) ∧
    ∃ services c, mergeServices borrowingStore none "two.yml" .v2 checkedWeb = .ok services ∧
      get? "web" services = some c ∧ c.links = ["db:database"] ∧ c.volumesFrom = [] := by
  have hvalid : validate checkedWeb.services = .ok () := by decide
  have honly : ∀ e ∈ checkedWeb.services, OnlyChecked e.2 := by
    simp only [checkedWeb, List.forall_mem_singleton, OnlyChecked]
    decide
  have hstored : ∀ name x, borrowingStore.get? name = some x → x.get .envFile = [] := by
    intro name x h
    rw [borrowingStore, Table.get?_ofList (List.pairwise_singleton ..), Entries.get?_cons] at h
    split at h
    · cases h
      rfl
    · cases h
  obtain ⟨s₁, h₁, hgiven₁⟩ := mergeServices_of_validated canonical_checkedWeb hvalid honly hstored
    none "two.yml" (show Schema.v1 ≠ .v3 by decide)
  obtain ⟨s₂, h₂, hgiven₂⟩ := mergeServices_of_validated canonical_checkedWeb hvalid honly hstored
    none "two.yml" (show Schema.v2 ≠ .v3 by decide)
  obtain ⟨c₁, hc₁, hlinks₁, -⟩ := hgiven₁ "web" _ rfl
  obtain ⟨c₂, hc₂, hlinks₂, hvolumes₂⟩ := hgiven₂ "web" _ rfl
  exact ⟨hvalid, ⟨s₁, c₁, h₁, hc₁, hlinks₁.eq_of_strings rfl (.inr (by simp))⟩,
    s₂, c₂, h₂, hc₂, hlinks₂.eq_of_strings rfl (.inl rfl), hvolumes₂.eq_of_strings rfl (.inl rfl)⟩

/-- A legacy service is written out on the way, which leaves the empty list out. -/
example : (mergeServices borrowingStore none "two.yml" .v1 checkedWeb).map
    (·.map fun e => e.2.volumesFrom) = .ok [["data"]] := by
  decide

end ComposeMerge
