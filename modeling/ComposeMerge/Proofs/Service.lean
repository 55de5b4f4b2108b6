import ComposeMerge.Proofs.Components

/-!
# The configuration of a service

A service is a record with a component for every field.

* `ServiceConfig.read_eq_ok_iff`: a raw service is read field by field;
* `ServiceConfig.get?_toRaw`: it is written field by field;
* `ServiceConfig.putFields_toRaw`: what is written is read again.
-/

namespace ComposeMerge

open Entries (Sorted get?)

namespace ServiceField

/-- A field as a component of a service. -/
def component (reading : Reading) (f : ServiceField) : Component ServiceConfig :=
  ⟨f.key, f.kind.Setting, f.kind.unset, f.kind.read reading, f.kind.write, (·.get f),
    fun v c => c.set f v⟩

/-- A field as a part of a service. -/
def part (f : ServiceField) : Part ServiceConfig :=
  ⟨f.key, f.kind.Setting, f.kind.slot, (·.get f)⟩

end ServiceField

/-- How services are read. -/
def serviceShape (reading : Reading) : RecordShape ServiceConfig ServiceConfig :=
  .plain "ServiceConfig" .empty (ServiceField.all.map fun f => (f.component reading).field)

theorem serviceLaws (reading : Reading) :
    RecordLaws (serviceShape reading) (ServiceField.all.map (·.component reading)) where
  fields_eq := by
    rw [List.map_map]
    rfl
  nodup := by
    rw [List.map_map]
    exact ServiceField.nodup_keys
  get_start c hc := by
    obtain ⟨f, -, rfl⟩ := List.mem_map.1 hc
    rfl
  get_set c hc a r := by
    obtain ⟨f, -, rfl⟩ := List.mem_map.1 hc
    exact r.get_set_self f a
  get_set_of_ne c hc d hd hne a r := by
    obtain ⟨f, -, rfl⟩ := List.mem_map.1 hc
    obtain ⟨g, -, rfl⟩ := List.mem_map.1 hd
    exact r.get_set_of_ne (fun hfg => hne (congrArg ServiceField.key hfg)) a
  ext h := ServiceConfig.ext fun f =>
    h (f.component reading) (List.mem_map_of_mem (ServiceField.mem_all f))

namespace ServiceConfig

theorem putField_eq_putEntry (reading : Reading) (c : ServiceConfig) (e : String × Value) :
    c.putField reading e.1 e.2 = (serviceShape reading).putEntry c e := by
  -- A field is looked up by its key in the same list on both sides.
  have hfind : (serviceShape reading).fields.find? (fun g => decide (g.name = e.1)) =
      (ServiceField.ofKey? e.1).map fun f => (f.component reading).field := by
    rw [serviceShape, RecordShape.plain, List.find?_map]
    rfl
  unfold RecordShape.putEntry putField
  rw [hfind]
  cases ServiceField.ofKey? e.1 <;> rfl

theorem putFields_eq_putEntries (reading : Reading) (c : ServiceConfig) (es : RawService) :
    putFields reading c es = (serviceShape reading).putEntries c es := by
  induction es generalizing c with
  | nil => rfl
  | cons e es ih =>
    obtain ⟨k, v⟩ := e
    rw [putFields, RecordShape.putEntries, putField_eq_putEntry reading c (k, v)]
    simp only [ih]

theorem written_eq_write (reading : Reading) (c : ServiceConfig) :
    Component.written (ServiceField.all.map (·.component reading)) c = c.write := by
  rw [Component.written, List.flatMap_map]
  rfl

theorem stored_eq_toRaw (reading : Reading) (c : ServiceConfig) :
    Component.stored (ServiceField.all.map (·.component reading)) c = c.toRaw := by
  rw [Component.stored, written_eq_write, toRaw]

/-- Whatever the reading, a raw service is read field by field. -/
theorem putFields_eq_ok_iff (reading : Reading) {es : RawService} (hes : Sorted es)
    {c : ServiceConfig} :
    putFields reading .empty es = .ok c ↔
      ∀ f : ServiceField,
        (get? f.key es).elim (.ok f.kind.unset) (f.kind.read reading) = .ok (c.get f) := by
  rw [putFields_eq_putEntries, (serviceLaws reading).putEntries_eq_ok_iff hes.distinct]
  constructor
  · intro h f
    exact h (f.component reading) (List.mem_map_of_mem (ServiceField.mem_all f))
  · intro h d hd
    obtain ⟨f, -, rfl⟩ := List.mem_map.1 hd
    exact h f

/-- A raw service is read field by field. -/
theorem read_eq_ok_iff {es : RawService} (hes : Sorted es) {c : ServiceConfig} :
    read es = .ok c ↔ ∀ f : ServiceField, f.kind.slot.read (get? f.key es) = .ok (c.get f) :=
  putFields_eq_ok_iff .direct hes

/-- A service is read and written field by field. -/
theorem assembled : Assembled (fun p => ∃ f : ServiceField, p = f.part) read toRaw where
  read_iff hes := by
    rw [read_eq_ok_iff hes]
    exact ⟨by rintro h _ ⟨f, rfl⟩; exact h f, fun h f => h _ ⟨f, rfl⟩⟩
  read_ok {es} hes h := by
    have hlaws := (serviceLaws .direct).assembled
    obtain ⟨c, hc⟩ := hlaws.read_ok hes (by
      rintro _ ⟨d, hd, rfl⟩
      obtain ⟨f, -, rfl⟩ := List.mem_map.1 hd
      exact h f.part ⟨f, rfl⟩)
    exact ⟨c, (putFields_eq_putEntries .direct .empty es).trans hc⟩
  get?_write := by
    rintro c _ ⟨f, rfl⟩
    rw [← stored_eq_toRaw .direct]
    exact Component.get?_stored (serviceLaws .direct).nodup c
      (List.mem_map_of_mem (ServiceField.mem_all f))
  write_cases c key := by
    rw [← stored_eq_toRaw .direct]
    refine (Component.get?_stored_cases (serviceLaws .direct).nodup c key).imp_right ?_
    rintro ⟨d, hd, hname⟩
    obtain ⟨f, -, rfl⟩ := List.mem_map.1 hd
    exact ⟨f.part, ⟨f, rfl⟩, hname⟩
  canonical_write c := by
    rw [← stored_eq_toRaw .direct]
    exact Component.canonical_stored _ c

/-- A service is written field by field. -/
theorem get?_toRaw (c : ServiceConfig) (f : ServiceField) :
    get? f.key c.toRaw = f.kind.slot.write (c.get f) :=
  assembled.get?_write c f.part ⟨f, rfl⟩

/-- What a service is written as is read as that service, whatever the reading. -/
theorem putFields_toRaw (reading : Reading) (c : ServiceConfig) :
    putFields reading .empty c.toRaw = .ok c := by
  refine (putFields_eq_ok_iff reading (assembled.canonical_write c).sorted).2 fun f => ?_
  rw [c.get?_toRaw f]
  exact (f.kind.sound_of_reading reading).read_write (c.get f)

theorem read_toRaw (c : ServiceConfig) : read c.toRaw = .ok c := putFields_toRaw .direct c

theorem canonical_toRaw (c : ServiceConfig) : (Value.mapping c.toRaw).Canonical :=
  assembled.canonical_write c

theorem set_get (c : ServiceConfig) (f : ServiceField) : c.set f (c.get f) = c := by
  refine ext fun g => ?_
  by_cases hfg : f = g
  · subst hfg
    rw [get_set_self]
  · rw [get_set_of_ne c hfg]

@[simp] theorem toRaw_empty : empty.toRaw = [] := by
  decide +kernel

end ServiceConfig
end ComposeMerge
