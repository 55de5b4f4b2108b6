import ComposeMerge.Merging
import ComposeMerge.Proofs.Entries

/-!
# The inheritance shorthand

A service that names another one directly, `extends: base`, declares the same as one that writes
`extends: {service: base}`, whatever references the name contains.

* `ServicesWrittenOut` relates services to those in which some declarations are written out;
* `writtenOut_normalizeExtends` and `asString?_normalizeExtends`: normalizing writes out all of them,
  and does nothing else; `normalizeExtends_of_writtenOut` says that some may have been before;
* `interpolateServices_normalizeExtends`: it makes no difference whether references are replaced
  before or after that;
* `shorthand_means_full_form` puts this together, and carries it to merges.
-/

namespace ComposeMerge

namespace Entries

variable {α β : Type}

/-- Whether entries have the same names, and values that are related. -/
def Related (r : String → α → β → Prop) : Entries α → Entries β → Prop :=
  List.Forall₂ fun a b => a.1 = b.1 ∧ r a.1 a.2 b.2

theorem related_map {r : String → α → β → Prop} {f : String → α → β}
    (h : ∀ name a, r name a (f name a)) (es : Entries α) :
    Related r es (es.map fun e => (e.1, f e.1 e.2)) :=
  List.forall₂_map_right_iff.2 (List.forall₂_same.2 fun e _ => ⟨rfl, h e.1 e.2⟩)

/-- Related values become equal. -/
theorem Related.map_eq {r : String → α → α → Prop} {f : String → α → β}
    (h : ∀ {name a b}, r name a b → f name a = f name b) {as bs : Entries α}
    (hrelated : Related r as bs) :
    as.map (fun e => (e.1, f e.1 e.2)) = bs.map fun e => (e.1, f e.1 e.2) := by
  rw [← List.forall₂_eq_eq_eq, List.forall₂_map_left_iff, List.forall₂_map_right_iff]
  refine hrelated.imp fun a b ⟨hname, hr⟩ => ?_
  rw [← hname, h hr]

end Entries

open Entries (Related)

/-! ### Declarations that are written out -/

/-- Whether a field has been left alone, or is a declaration that has been written out. -/
inductive WrittenOut (key : String) : Value → Value → Prop where
  | same (v : Value) : WrittenOut key v v
  | declaration (target : String) (h : key = extendsField) :
    WrittenOut key (.string target) (.mapping [("service", .string target)])

/-- Whether some declarations of services have been written out. -/
def ServicesWrittenOut : RawServices → RawServices → Prop :=
  Related fun _ => Related WrittenOut

/-- A field with its declaration, if it is one, in full form. -/
def fullField (key : String) (v : Value) : Value := if key = extendsField then fullExtends v else v

theorem writtenOut_fullField (key : String) (v : Value) : WrittenOut key v (fullField key v) := by
  unfold fullField fullExtends
  split
  · next hkey =>
    split
    · next target => exact .declaration target hkey
    · exact .same v
  · exact .same v

theorem fullField_of_writtenOut {key : String} {v w : Value} (h : WrittenOut key v w) :
    fullField key v = fullField key w := by
  cases h with
  | same => rfl
  | declaration target hkey =>
    rw [fullField, fullField, if_pos hkey, if_pos hkey]
    rfl

theorem asString?_fullExtends (v : Value) : (fullExtends v).asString? = none := by
  unfold fullExtends
  split
  · rfl
  · next hne =>
    cases hstring : v.asString? with
    | none => rfl
    | some s =>
      unfold Value.asString? at hstring
      split at hstring
      · next target => exact absurd rfl (hne target)
      · cases hstring

/-- Normalizing writes declarations out, and does nothing else. -/
theorem writtenOut_normalizeExtends (services : RawServices) :
    ServicesWrittenOut services (normalizeExtends services) :=
  Entries.related_map (f := fun _ => normalizeService)
    (fun _ fields => Entries.related_map writtenOut_fullField fields) services

/-- Normalizing writes all declarations out. -/
theorem asString?_normalizeExtends {services : RawServices} {name : String} {fields : RawService}
    (hfields : (name, fields) ∈ normalizeExtends services) {v : Value}
    (hv : (extendsField, v) ∈ fields) : v.asString? = none := by
  obtain ⟨⟨_, fields'⟩, -, heq⟩ := List.mem_map.1 hfields
  cases heq
  obtain ⟨⟨key, v'⟩, -, heq⟩ := List.mem_map.1 hv
  cases heq
  rw [if_pos rfl]
  exact asString?_fullExtends v'

/-- Declarations that have been written out before make no difference. -/
theorem normalizeExtends_of_writtenOut {services services' : RawServices}
    (h : ServicesWrittenOut services services') :
    normalizeExtends services = normalizeExtends services' :=
  Related.map_eq (f := fun _ => normalizeService)
    (fun hfields => Related.map_eq (f := fullField) fullField_of_writtenOut hfields) h

/-! ### References in declarations -/

theorem interpolate_fullExtends (env : Environment) (policy : UndefinedPolicy) (field : String)
    (v : Value) :
    interpolate env policy field (fullExtends v) =
      (interpolate env policy field v).map fullExtends := by
  -- A name is replaced as a string of the same field, one level further down.
  cases v with
  | scalar s =>
    cases s with
    | text target =>
      simp only [fullExtends, Value.string, interpolate, interpolateEntries]
      cases interpolateText env policy field target <;> rfl
    | _ => rfl
  | sequence items =>
    simp only [fullExtends, interpolate]
    cases interpolateItems env policy field items <;> rfl
  | mapping es =>
    simp only [fullExtends, interpolate]
    cases interpolateEntries env policy field es <;> rfl

theorem interpolate_fullField (env : Environment) (policy : UndefinedPolicy) (field key : String)
    (v : Value) :
    interpolate env policy field (fullField key v) =
      (interpolate env policy field v).map (fullField key) := by
  unfold fullField
  split
  · exact interpolate_fullExtends env policy field v
  · cases interpolate env policy field v <;> rfl

theorem interpolateService_normalizeService (env : Environment) (policy : UndefinedPolicy)
    (service : String) (fields : RawService) :
    interpolateService env policy service (normalizeService fields) =
      (interpolateService env policy service fields).map normalizeService :=
  Entries.traverse_map_comm (g := fullField)
    (fun key v => interpolate_fullField env policy (service ++ "." ++ key) key v) fields

/-- Whether references are replaced before or after makes no difference, errors included. -/
theorem interpolateServices_normalizeExtends (env : Environment) (policy : UndefinedPolicy)
    (services : RawServices) :
    interpolateServices env policy (normalizeExtends services) =
      (interpolateServices env policy services).map normalizeExtends :=
  Entries.traverse_map_comm (g := fun _ => normalizeService)
    (interpolateService_normalizeService env policy) services

/-! ### Merges -/

/-- A merge starts from normalized services. -/
theorem mergeManifest_of_normalizeExtends {services services' : RawServices}
    (h : normalizeExtends services = normalizeExtends services') (existing : Services)
    (around : Surroundings) (options : Options) (file : Path) (m : Manifest) :
    mergeManifest existing around options file { m with services := services } =
      mergeManifest existing around options file { m with services := services' } := by
  unfold mergeManifest Merging.prepare
  simp only [h]
  rfl

/-- **The shorthand means the full form.**

* Normalizing and replacing references can be exchanged: they give the same services, or the same
  error for the same field.
* Normalizing a second time changes nothing.
* Normalizing writes out each declaration that is a string, and changes nothing else.
* Manifests in which some declarations are written in one form or the other merge to the same
  result, whatever is stored, and whatever surroundings and options there are. -/
theorem shorthand_means_full_form :
    (∀ env policy services,
      interpolateServices env policy (normalizeExtends services) =
        (interpolateServices env policy services).map normalizeExtends) ∧
    (∀ services, normalizeExtends (normalizeExtends services) = normalizeExtends services) ∧
    (∀ services, ServicesWrittenOut services (normalizeExtends services) ∧
      ∀ name fields v, (name, fields) ∈ normalizeExtends services → (extendsField, v) ∈ fields →
        v.asString? = none) ∧
    ∀ (m : Manifest) services services', ServicesWrittenOut services services' →
      ∀ existing around options file,
        mergeManifest existing around options file { m with services := services } =
          mergeManifest existing around options file { m with services := services' } := by
  refine ⟨interpolateServices_normalizeExtends, fun services => ?_, fun services => ?_,
    fun m services services' h existing around options file => ?_⟩
  · exact (normalizeExtends_of_writtenOut (writtenOut_normalizeExtends services)).symm
  · exact ⟨writtenOut_normalizeExtends services,
      fun name fields v hfields hv => asString?_normalizeExtends hfields hv⟩
  · exact mergeManifest_of_normalizeExtends (normalizeExtends_of_writtenOut h) existing around
      options file m

/-- A service that inherits from one whose name is made of a reference. -/
def inheritingServices (declaration : Value) : RawServices :=
  [("cache", [("extends", .string "base")]),
    ("web", [("extends", declaration), ("image", .string "app")])]

/-- What becomes of the service. -/
def inheritingWeb : ServiceConfig :=
  (ServiceConfig.empty.set .inheritance (some ⟨"base-2", none⟩)).set .image (some "app")

/-- Of two declarations one is written out. -/
theorem full_form_of_inheritingServices :
    ServicesWrittenOut (inheritingServices (.string "base-$N"))
        (inheritingServices (.mapping [("service", .string "base-$N")])) ∧
      ∀ declaration ∈ [Value.string "base-$N", .mapping [("service", .string "base-$N")]],
        (mergeManifest .empty ⟨.ofEntries [("N", "2")], none⟩ .standard "one.yml"
          ⟨"2", inheritingServices declaration, [], []⟩).map (fun merged =>
            merged.services.get? "web") = .ok (some inheritingWeb) := by
  have hwritten : ServicesWrittenOut (inheritingServices (.string "base-$N"))
      (inheritingServices (.mapping [("service", .string "base-$N")])) :=
    .cons ⟨rfl, .cons ⟨rfl, .same _⟩ .nil⟩
      (.cons ⟨rfl, .cons ⟨rfl, .declaration "base-$N" rfl⟩ (.cons ⟨rfl, .same _⟩ .nil)⟩ .nil)
  have hsame := shorthand_means_full_form.2.2.2 ⟨"2", [], [], []⟩ _ _ hwritten .empty
    ⟨.ofEntries [("N", "2")], none⟩ .standard "one.yml"
  have hshort : (mergeManifest .empty ⟨.ofEntries [("N", "2")], none⟩ .standard "one.yml"
      ⟨"2", inheritingServices (.string "base-$N"), [], []⟩).map (fun merged =>
        merged.services.get? "web") = .ok (some inheritingWeb) := by
    decide +kernel
  refine ⟨hwritten, List.forall_mem_cons.2 ⟨hshort, List.forall_mem_singleton.2 ?_⟩⟩
  rw [← hsame]
  exact hshort

end ComposeMerge
