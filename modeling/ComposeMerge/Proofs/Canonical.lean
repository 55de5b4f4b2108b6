import ComposeMerge.Config.Written
import ComposeMerge.Document
import ComposeMerge.Inheritance
import ComposeMerge.Interpolation
import ComposeMerge.Proofs.Entries

/-!
# Canonical values

The raw values that occur are canonical: in every mapping the keys are strictly increasing.

* `canonical_canonical`: putting the keys in order gives a canonical value;
* `Canonical.canonical_eq`: a canonical value is left as it is;
* `canonical_ofNode`: the values that documents hold are canonical;
* `canonical_interpolate` and `canonical_fullExtends`: what is done to services before they are
  merged keeps them canonical.
-/

namespace ComposeMerge

open Entries (Sorted get?)

namespace Value

@[simp] theorem canonical_scalar_iff (s : Scalar) : (Value.scalar s).Canonical ↔ True := by
  simp [Canonical]

theorem canonicalItems_iff {vs : List Value} : CanonicalItems vs ↔ ∀ v ∈ vs, v.Canonical := by
  induction vs with
  | nil => simp [CanonicalItems]
  | cons v vs ih => simp [CanonicalItems, ih]

theorem canonicalEntries_iff {es : Entries Value} :
    CanonicalEntries es ↔ ∀ e ∈ es, e.2.Canonical := by
  induction es with
  | nil => simp [CanonicalEntries]
  | cons e es ih =>
    obtain ⟨k, v⟩ := e
    simp [CanonicalEntries, ih]

@[simp] theorem canonical_sequence_iff {vs : List Value} :
    (Value.sequence vs).Canonical ↔ ∀ v ∈ vs, v.Canonical := by
  rw [Canonical, canonicalItems_iff]

@[simp] theorem canonical_mapping_iff {es : Entries Value} :
    (Value.mapping es).Canonical ↔ Sorted es ∧ ∀ e ∈ es, e.2.Canonical := by
  rw [Canonical, canonicalEntries_iff]

theorem Canonical.sorted {es : Entries Value} (h : (Value.mapping es).Canonical) : Sorted es :=
  (canonical_mapping_iff.1 h).1

theorem Canonical.entry {es : Entries Value} (h : (Value.mapping es).Canonical) {e : String × Value}
    (he : e ∈ es) : e.2.Canonical :=
  (canonical_mapping_iff.1 h).2 e he

theorem Canonical.get? {es : Entries Value} (h : (Value.mapping es).Canonical) {name : String}
    {v : Value} (hv : get? name es = some v) : v.Canonical :=
  h.entry (Entries.mem_of_get? hv)

/-! ### Putting keys in order -/

theorem canonicalEntries_eq_mapValues (es : Entries Value) :
    canonicalEntries es = es.mapValues canonical := by
  induction es with
  | nil => rfl
  | cons e es ih =>
    obtain ⟨k, v⟩ := e
    rw [canonicalEntries, ih]
    rfl

theorem mem_insertAll {α : Type} {extra es : Entries α} {e : String × α}
    (h : e ∈ es.insertAll extra) : e ∈ es ∨ e ∈ extra := by
  induction extra generalizing es with
  | nil => exact .inl h
  | cons f extra ih =>
    rcases ih h with h | h
    · rcases Entries.mem_insert h with rfl | h
      · exact .inr (by simp)
      · exact .inl h
    · exact .inr (by simp [h])

theorem mem_ofList {α : Type} {es : Entries α} {e : String × α} (h : e ∈ Entries.ofList es) :
    e ∈ es :=
  (mem_insertAll h).resolve_left (by simp)

theorem canonical_mapping_ofList {es : Entries Value} (h : ∀ e ∈ es, e.2.Canonical) :
    (Value.mapping (Entries.ofList es)).Canonical :=
  canonical_mapping_iff.2 ⟨Entries.sorted_ofList es, fun e he => h e (mem_ofList he)⟩

mutual

theorem canonical_canonical : (v : Value) → v.canonical.Canonical
  | .scalar s => by simp [canonical]
  | .sequence vs => by
    rw [canonical, canonical_sequence_iff]
    exact canonical_canonicalItems vs
  | .mapping es => by
    rw [canonical]
    exact canonical_mapping_ofList (canonical_canonicalEntries es)

theorem canonical_canonicalItems : (vs : List Value) → ∀ v ∈ canonicalItems vs, v.Canonical
  | [] => by simp [canonicalItems]
  | v :: vs => by
    rw [canonicalItems]
    exact List.forall_mem_cons.2 ⟨canonical_canonical v, canonical_canonicalItems vs⟩

theorem canonical_canonicalEntries :
    (es : List (String × Value)) → ∀ e ∈ canonicalEntries es, e.2.Canonical
  | [] => by simp [canonicalEntries]
  | (_, v) :: es => by
    rw [canonicalEntries]
    exact List.forall_mem_cons.2 ⟨canonical_canonical v, canonical_canonicalEntries es⟩

end

mutual

theorem Canonical.canonical_eq : {v : Value} → v.Canonical → v.canonical = v
  | .scalar _, _ => rfl
  | .sequence vs, h => by
    rw [canonical, canonicalItems_eq_self vs (canonical_sequence_iff.1 h)]
  | .mapping es, h => by
    rw [canonical, canonicalEntries_eq_self es (canonical_mapping_iff.1 h).2, h.sorted.ofList_eq]

theorem canonicalItems_eq_self :
    (vs : List Value) → (∀ v ∈ vs, v.Canonical) → canonicalItems vs = vs
  | [], _ => rfl
  | v :: vs, h => by
    rw [canonicalItems, (h v (by simp)).canonical_eq,
      canonicalItems_eq_self vs fun w hw => h w (by simp [hw])]

theorem canonicalEntries_eq_self :
    (es : List (String × Value)) → (∀ e ∈ es, e.2.Canonical) → canonicalEntries es = es
  | [], _ => rfl
  | (k, v) :: es, h => by
    rw [canonicalEntries, (h (k, v) (by simp)).canonical_eq,
      canonicalEntries_eq_self es fun e he => h e (by simp [he])]

end

/-- Putting keys in order changes what is found under a name only inside. -/
theorem get?_ofList_canonicalEntries {es : Entries Value} (h : Entries.Distinct es)
    (name : String) :
    get? name (Entries.ofList (canonicalEntries es)) = (get? name es).map canonical := by
  -- The names are still distinct, so that putting them in order loses no entry.
  rw [canonicalEntries_eq_mapValues]
  have hdistinct : Entries.Distinct (es.mapValues canonical) := List.pairwise_map.2 h
  rw [Entries.get?_ofList hdistinct, Entries.get?_mapValues]

/-! ### Documents -/

mutual

/-- The value of a document tree is canonical. -/
theorem canonical_ofNode : (n : Yaml.Node) → {v : Value} → ofNode n = .ok v → v.Canonical
  | .null, _, h => by cases h; simp [Value.null]
  | .bool _, _, h => by cases h; simp
  | .integer _, _, h => by cases h; simp
  | .float _, _, h => by cases h; simp
  | .text _, _, h => by cases h; simp [string]
  | .sequence items, _, h => by
    rw [ofNode] at h
    obtain ⟨vs, hvs, rfl⟩ := Outcome.map_eq_ok_iff.1 h
    exact canonical_sequence_iff.2 (canonical_ofItems items hvs)
  | .mapping es, _, h => by
    rw [ofNode] at h
    obtain ⟨pairs, hpairs, rfl⟩ := Outcome.map_eq_ok_iff.1 h
    exact canonical_mapping_ofList (canonical_ofEntries es hpairs)
  | .tagged _ n, _, h => by
    rw [ofNode] at h
    exact canonical_ofNode n h

theorem canonical_ofItems :
    (ns : List Yaml.Node) → {vs : List Value} → ofItems ns = .ok vs → ∀ v ∈ vs, v.Canonical
  | [], _, h => by cases h; simp
  | n :: ns, _, h => by
    rw [ofItems] at h
    obtain ⟨v, hv, h⟩ := Outcome.bind_eq_ok_iff.1 h
    obtain ⟨vs, hvs, h⟩ := Outcome.bind_eq_ok_iff.1 h
    cases h
    exact List.forall_mem_cons.2 ⟨canonical_ofNode n hv, canonical_ofItems ns hvs⟩

theorem canonical_ofEntries :
    (es : List (Yaml.Node × Yaml.Node)) → {pairs : List (String × Value)} →
      ofEntries es = .ok pairs → ∀ e ∈ pairs, e.2.Canonical
  | [], _, h => by cases h; simp
  | (k, n) :: es, _, h => by
    rw [ofEntries] at h
    obtain ⟨key, -, h⟩ := Outcome.bind_eq_ok_iff.1 h
    obtain ⟨v, hv, h⟩ := Outcome.bind_eq_ok_iff.1 h
    obtain ⟨rest, hrest, h⟩ := Outcome.bind_eq_ok_iff.1 h
    cases h
    exact List.forall_mem_cons.2 ⟨canonical_ofNode n hv, canonical_ofEntries es hrest⟩

end

/-! ### What is done before services are merged -/

theorem canonical_fullExtends {v : Value} (h : v.Canonical) : (fullExtends v).Canonical := by
  unfold fullExtends
  split
  · simp [string, Sorted]
  · exact h

mutual

/-- Replacing references keeps a value canonical. -/
theorem canonical_interpolate (env : Environment) (policy : UndefinedPolicy) (field : String) :
    (v : Value) → v.Canonical → {w : Value} → interpolate env policy field v = .ok w → w.Canonical
  | .scalar (.text _), _, _, h => by
    rw [interpolate] at h
    obtain ⟨s, -, rfl⟩ := Outcome.map_eq_ok_iff.1 h
    simp [string]
  | .scalar .null, _, _, h => by cases h; simp
  | .scalar (.bool _), _, _, h => by cases h; simp
  | .scalar (.int _), _, _, h => by cases h; simp
  | .scalar (.float _), _, _, h => by cases h; simp
  | .sequence items, hv, _, h => by
    rw [interpolate] at h
    obtain ⟨ws, hws, rfl⟩ := Outcome.map_eq_ok_iff.1 h
    exact canonical_sequence_iff.2
      (canonical_interpolateItems env policy field items (canonical_sequence_iff.1 hv) hws)
  | .mapping es, hv, _, h => by
    rw [interpolate] at h
    obtain ⟨rs, hrs, rfl⟩ := Outcome.map_eq_ok_iff.1 h
    obtain ⟨hnames, hvalues⟩ := canonical_interpolateEntries env policy field es
      (canonical_mapping_iff.1 hv).2 hrs
    refine canonical_mapping_iff.2 ⟨?_, hvalues⟩
    exact Entries.sorted_iff_names.2 (hnames ▸ Entries.sorted_iff_names.1 hv.sorted)

theorem canonical_interpolateItems (env : Environment) (policy : UndefinedPolicy)
    (field : String) :
    (vs : List Value) → (∀ v ∈ vs, v.Canonical) → {ws : List Value} →
      interpolateItems env policy field vs = .ok ws → ∀ w ∈ ws, w.Canonical
  | [], _, _, h => by cases h; simp
  | v :: vs, hvs, _, h => by
    rw [interpolateItems] at h
    obtain ⟨w, hw, h⟩ := Outcome.bind_eq_ok_iff.1 h
    obtain ⟨ws, hws, h⟩ := Outcome.bind_eq_ok_iff.1 h
    cases h
    exact List.forall_mem_cons.2
      ⟨canonical_interpolate env policy field v (hvs v (by simp)) hw,
        canonical_interpolateItems env policy field vs (fun u hu => hvs u (by simp [hu])) hws⟩

theorem canonical_interpolateEntries (env : Environment) (policy : UndefinedPolicy)
    (field : String) :
    (es : List (String × Value)) → (∀ e ∈ es, e.2.Canonical) → {rs : List (String × Value)} →
      interpolateEntries env policy field es = .ok rs →
        rs.map Prod.fst = es.map Prod.fst ∧ ∀ e ∈ rs, e.2.Canonical
  | [], _, _, h => by cases h; simp
  | (k, v) :: es, hes, _, h => by
    rw [interpolateEntries] at h
    obtain ⟨w, hw, h⟩ := Outcome.bind_eq_ok_iff.1 h
    obtain ⟨rest, hrest, h⟩ := Outcome.bind_eq_ok_iff.1 h
    cases h
    obtain ⟨hnames, hvalues⟩ := canonical_interpolateEntries env policy field es
      (fun e he => hes e (by simp [he])) hrest
    refine ⟨by simp [hnames], List.forall_mem_cons.2 ⟨?_, hvalues⟩⟩
    exact canonical_interpolate env policy field v (hes (k, v) (by simp)) hw

end

end Value
end ComposeMerge
