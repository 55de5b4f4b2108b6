import ComposeMerge.Loading
import ComposeMerge.Merging
import ComposeMerge.Proofs.Canonical

/-!
# The services of a manifest

The raw services of a manifest keep their keys in order, from the document up to the point where
they are merged.

* `CanonicalServices` says so of some services;
* `canonical_load` has it for the services of a document;
* `canonical_prepare` keeps it through everything that is done to them before they are merged.

A hook is given maps and gives maps, so it keeps keys in order as well (`KeepsMaps`).
-/

namespace ComposeMerge

open Entries (Sorted get?)

/-- All keys of raw services are in order. -/
structure CanonicalServices (services : RawServices) : Prop where
  sorted : Sorted services
  fields : ∀ {name fields}, get? name services = some fields → (Value.mapping fields).Canonical

namespace CanonicalServices

/-- Entries that are made one by one, with the keys inside each in order. -/
theorem of_traverse {α ε : Type} {f : String → α → Except ε RawService} {es : Entries α}
    {services : RawServices} (hes : Sorted es) (h : Entries.traverse f es = .ok services)
    (hf : ∀ {name a fields}, get? name es = some a → f name a = .ok fields →
      (Value.mapping fields).Canonical) : CanonicalServices services where
  sorted := hes.traverse h
  fields {name fields} hname := by
    rcases Entries.get?_traverse h name with ⟨-, hnone⟩ | ⟨a, w, ha, hw, hsome⟩
    · rw [hnone] at hname
      cases hname
    · rw [hsome] at hname
      cases hname
      exact hf ha hw

end CanonicalServices

/-! ### Documents -/

namespace Manifest

theorem canonical_sectionEntries {name : String} {v : Value} {es : Entries Value}
    (hv : v.Canonical) (h : sectionEntries name v = .ok es) : (Value.mapping es).Canonical := by
  unfold sectionEntries at h
  split at h
  · cases h
    exact hv
  · cases h
    simp [Entries.sorted_nil]
  · cases h

theorem canonical_rootEntries {v : Value} {es : Entries Value} (hv : v.Canonical)
    (h : rootEntries v = .ok es) : (Value.mapping es).Canonical := by
  unfold rootEntries at h
  split at h
  · cases h
    exact hv
  · cases h
    simp [Entries.sorted_nil]
  · cases h

theorem canonical_section? {root es : Entries Value} {name : String}
    (hroot : (Value.mapping root).Canonical) (h : section? root name = .ok es) :
    (Value.mapping es).Canonical := by
  unfold section? at h
  split at h
  · next v hv => exact canonical_sectionEntries (hroot.get? hv) h
  · cases h
    simp [Entries.sorted_nil]

theorem canonical_serviceEntries {entries : Entries Value} {services : RawServices}
    (hentries : (Value.mapping entries).Canonical) (h : serviceEntries entries = .ok services) :
    CanonicalServices services := by
  refine .of_traverse hentries.sorted h fun {name v fields} hv hfields => ?_
  unfold serviceFields at hfields
  split at hfields
  · cases hfields
    exact hentries.get? hv
  · cases hfields
    simp [Entries.sorted_nil]
  · cases hfields

theorem canonical_erase {es : Entries Value} (h : (Value.mapping es).Canonical) (name : String) :
    (Value.mapping (es.erase name)).Canonical :=
  Value.canonical_mapping_iff.2
    ⟨h.sorted.erase name, fun _ he => h.entry (List.mem_of_mem_filter he)⟩

theorem canonical_ofTree {source : Except Error String} {document : Value} {m : Manifest}
    (hdocument : document.Canonical) (h : ofTree source document = .ok m) :
    CanonicalServices m.services := by
  obtain ⟨root, hroot, h⟩ := Outcome.bind_eq_ok_iff.1 h
  obtain ⟨version, -, h⟩ := Outcome.bind_eq_ok_iff.1 h
  obtain ⟨major, -, h⟩ := Outcome.bind_eq_ok_iff.1 h
  have hcanonical := canonical_rootEntries hdocument hroot
  -- Before version 2 the root itself holds the services, next to the version.
  by_cases hmajor : major < 2
  · rw [if_pos hmajor] at h
    obtain ⟨services, hservices, h⟩ := Outcome.bind_eq_ok_iff.1 h
    cases h
    exact canonical_serviceEntries (canonical_erase hcanonical _) hservices
  · rw [if_neg hmajor] at h
    obtain ⟨services, hservices, h⟩ := Outcome.bind_eq_ok_iff.1 h
    obtain ⟨volumes, -, h⟩ := Outcome.bind_eq_ok_iff.1 h
    obtain ⟨networks, -, h⟩ := Outcome.bind_eq_ok_iff.1 h
    cases h
    obtain ⟨entries, hentries, hservices⟩ := Outcome.bind_eq_ok_iff.1 hservices
    exact canonical_serviceEntries (canonical_section? hcanonical hentries) hservices

theorem canonical_loadValue {bytes : Bytes} {document : Value} (h : loadValue bytes = .ok document) :
    document.Canonical := by
  unfold loadValue at h
  split at h
  · next node _ => exact Value.canonical_ofNode node (Outcome.mapError_eq_ok_iff.1 h)
  · cases h

/-- The services of a document have their keys in order. -/
theorem canonical_load {bytes : Bytes} {m : Manifest} (h : load bytes = .ok m) :
    CanonicalServices m.services := by
  obtain ⟨document, hdocument, h⟩ := Outcome.bind_eq_ok_iff.1 h
  exact canonical_ofTree (canonical_loadValue hdocument) h

end Manifest

/-! ### Preparation -/

namespace CanonicalServices

variable {services : RawServices}

theorem normalizeExtends (h : CanonicalServices services) :
    CanonicalServices (normalizeExtends services) where
  sorted := h.sorted.mapValues _
  fields {name fields} hname := by
    rw [ComposeMerge.normalizeExtends, Entries.get?_mapValues] at hname
    obtain ⟨fields', hfields', rfl⟩ := Option.map_eq_some_iff.1 hname
    have hcanonical := h.fields hfields'
    refine Value.canonical_mapping_iff.2 ⟨List.pairwise_map.2 hcanonical.sorted, fun e he => ?_⟩
    obtain ⟨⟨key, v⟩, hv, rfl⟩ := List.mem_map.1 he
    dsimp only
    split
    · exact Value.canonical_fullExtends (hcanonical.entry hv)
    · exact hcanonical.entry hv

theorem interpolateServices (h : CanonicalServices services) {env : Environment}
    {policy : UndefinedPolicy} {result : RawServices}
    (hresult : interpolateServices env policy services = .ok result) :
    CanonicalServices result := by
  refine .of_traverse h.sorted hresult fun {name fields fields'} hfields hfields' => ?_
  have hcanonical := h.fields hfields
  have hsorted : Sorted fields' := hcanonical.sorted.traverse hfields'
  refine Value.canonical_mapping_iff.2 ⟨hsorted, fun e he => ?_⟩
  have hget := (Entries.get?_eq_some_iff hsorted.distinct).2 he
  rcases Entries.get?_traverse hfields' e.1 with ⟨-, hnone⟩ | ⟨v, w, hv, hw, hsome⟩
  · rw [hnone] at hget
    cases hget
  · rw [hsome] at hget
    cases hget
    exact Value.canonical_interpolate _ _ _ v (hcanonical.get? hv) hw

end CanonicalServices

namespace Merging

/-- A hook makes maps of maps: where the keys are in order, they stay in order. -/
def KeepsMaps (hook : Option (RawServices → Except Error RawServices)) : Prop :=
  ∀ run ∈ hook, ∀ {services result}, CanonicalServices services →
    run services = .ok result → CanonicalServices result

theorem keepsMaps_none : KeepsMaps none := fun _ h => by cases h

theorem KeepsMaps.runHook {hook : Option (RawServices → Except Error RawServices)}
    (h : KeepsMaps hook) {services result : RawServices} (hservices : CanonicalServices services)
    (hresult : runHook hook services = .ok result) : CanonicalServices result := by
  cases hook with
  | none =>
    cases hresult
    exact hservices
  | some run => exact h run rfl hservices hresult

/-- Preparing services keeps their keys in order. -/
theorem canonical_prepare {env : Environment} {options : Options} {m m' : Manifest}
    (hhook : KeepsMaps options.preprocess) (hm : CanonicalServices m.services)
    (h : prepare env options m = .ok m') : CanonicalServices m'.services := by
  obtain ⟨m₁, hm₁, h⟩ := Outcome.bind_eq_ok_iff.1 h
  obtain ⟨_, hrun, h⟩ := Outcome.bind_eq_ok_iff.1 h
  obtain ⟨-, -, h⟩ := Outcome.bind_eq_ok_iff.1 h
  cases h
  refine hhook.runHook ?_ hrun
  unfold substitute at hm₁
  split at hm₁
  · obtain ⟨services, hservices, hm₁⟩ := Outcome.bind_eq_ok_iff.1 hm₁
    obtain ⟨volumes, -, hm₁⟩ := Outcome.bind_eq_ok_iff.1 hm₁
    obtain ⟨networks, -, hm₁⟩ := Outcome.bind_eq_ok_iff.1 hm₁
    cases hm₁
    exact hm.normalizeExtends.interpolateServices hservices
  · cases hm₁
    exact hm.normalizeExtends

/-- What has been prepared has been validated. -/
theorem check_of_prepare {env : Environment} {options : Options} {m m' : Manifest}
    (h : prepare env options m = .ok m') : check options m'.services = .ok () := by
  obtain ⟨m₁, -, h⟩ := Outcome.bind_eq_ok_iff.1 h
  obtain ⟨services, -, h⟩ := Outcome.bind_eq_ok_iff.1 h
  obtain ⟨⟨⟩, hcheck, h⟩ := Outcome.bind_eq_ok_iff.1 h
  cases h
  exact hcheck

end Merging
end ComposeMerge
