import ComposeMerge.Config.Service
import ComposeMerge.Proofs.Assembly

/-!
# Records and tables

Records and tables are mappings made of parts.

* a `Component` is a field of a record; `FieldLaws` says that the fields of a shape set components
  of their own, and `RecordLaws` that these make up the record;
* `RecordLaws.assembled`: such a record is read and written field by field;
* `assembled_table` says the same of a table, whose parts are the entries of all names.
-/

namespace ComposeMerge

open Entries (Sorted Distinct get? get?_cons)

/-- A component of a record that one field sets. -/
structure Component (ρ : Type) where
  name : String
  Held : Type
  unset : Held
  read : Value → Read Held
  write : Held → Option Value
  get : ρ → Held
  set : Held → ρ → ρ

namespace Component

variable {ρ : Type}

/-- The field that sets a component. -/
def field (c : Component ρ) : RecordField ρ := .of c.name c.read c.set

/-- A component as a part of the record. -/
def part (c : Component ρ) : Part ρ := ⟨c.name, c.Held, .of c.unset c.read c.write, c.get⟩

/-- The fields of a record that are set. -/
def written (comps : List (Component ρ)) (r : ρ) : Entries Value :=
  comps.flatMap fun c => Written.field c.name (c.write (c.get r))

/-- The same with all keys in order. -/
def stored (comps : List (Component ρ)) (r : ρ) : Entries Value :=
  Entries.ofList (Value.canonicalEntries (written comps r))

theorem get?_field (name key : String) (v : Option Value) :
    get? name (Written.field key v) = if key = name then v else none := by
  cases v with
  | none => simp [Written.field]
  | some v => simp [Written.field, get?_cons]

theorem name_of_mem_field {key : String} {v : Option Value} {e : String × Value}
    (h : e ∈ Written.field key v) : e.1 = key := by
  cases v with
  | none => simp [Written.field] at h
  | some v =>
    simp only [Written.field, Option.map_some, Option.toList_some, List.mem_singleton] at h
    rw [h]

theorem distinct_field (key : String) (v : Option Value) : Distinct (Written.field key v) := by
  cases v with
  | none => exact List.Pairwise.nil
  | some v => exact List.pairwise_singleton ..

theorem name_of_mem_written {comps : List (Component ρ)} {r : ρ} {e : String × Value}
    (h : e ∈ written comps r) : ∃ c ∈ comps, e.1 = c.name := by
  obtain ⟨c, hc, he⟩ := List.mem_flatMap.1 h
  exact ⟨c, hc, name_of_mem_field he⟩

theorem distinct_written {comps : List (Component ρ)} (h : (comps.map name).Nodup) (r : ρ) :
    Distinct (written comps r) := by
  induction comps with
  | nil => exact List.Pairwise.nil
  | cons c comps ih =>
    obtain ⟨hc, hcomps⟩ := List.nodup_cons.1 h
    refine List.pairwise_append.2 ⟨distinct_field _ _, ih hcomps, fun a ha b hb hab => hc ?_⟩
    obtain ⟨d, hd, hbd⟩ := name_of_mem_written hb
    rw [← name_of_mem_field ha, hab, hbd]
    exact List.mem_map_of_mem hd

theorem get?_written {comps : List (Component ρ)} (h : (comps.map name).Nodup) (r : ρ)
    {c : Component ρ} (hc : c ∈ comps) : get? c.name (written comps r) = c.write (c.get r) := by
  induction comps with
  | nil => simp at hc
  | cons d comps ih =>
    obtain ⟨hd, hcomps⟩ := List.nodup_cons.1 h
    have hsplit : written (d :: comps) r =
        Written.field d.name (d.write (d.get r)) ++ written comps r := rfl
    rw [hsplit, Entries.get?_append, get?_field]
    rcases List.mem_cons.1 hc with rfl | hc
    · have hrest : get? c.name (written comps r) = none := by
        refine Entries.get?_eq_none_iff.2 fun e he hname => hd ?_
        obtain ⟨d, hd, hed⟩ := name_of_mem_written he
        rw [← hname, hed]
        exact List.mem_map_of_mem hd
      rw [if_pos rfl, hrest, Option.or_none]
    · rw [if_neg, Option.none_or, ih hcomps hc]
      intro hname
      exact hd (hname ▸ List.mem_map_of_mem hc)

theorem get?_stored {comps : List (Component ρ)} (h : (comps.map name).Nodup) (r : ρ)
    {c : Component ρ} (hc : c ∈ comps) :
    get? c.name (stored comps r) = (c.write (c.get r)).map Value.canonical := by
  rw [stored, Value.get?_ofList_canonicalEntries (distinct_written h r), get?_written h r hc]

theorem get?_stored_cases {comps : List (Component ρ)} (h : (comps.map name).Nodup) (r : ρ)
    (key : String) : get? key (stored comps r) = none ∨ ∃ c ∈ comps, c.name = key := by
  rw [stored, Value.get?_ofList_canonicalEntries (distinct_written h r)]
  cases hget : get? key (written comps r) with
  | none => exact .inl rfl
  | some v =>
    obtain ⟨c, hc, hname⟩ := name_of_mem_written (Entries.mem_of_get? hget)
    exact .inr ⟨c, hc, hname.symm⟩

theorem canonical_stored (comps : List (Component ρ)) (r : ρ) :
    (Value.mapping (stored comps r)).Canonical :=
  Value.canonical_mapping_ofList (Value.canonical_canonicalEntries _)

end Component

/-- The fields of a shape set components of their own. -/
structure FieldLaws {ρ α : Type} (shape : RecordShape ρ α) (comps : List (Component ρ)) :
    Prop where
  fields_eq : shape.fields = comps.map Component.field
  nodup : (comps.map Component.name).Nodup
  get_start : ∀ c ∈ comps, c.get shape.start = c.unset
  get_set : ∀ c ∈ comps, ∀ a r, c.get (c.set a r) = a
  get_set_of_ne : ∀ c ∈ comps, ∀ d ∈ comps, c.name ≠ d.name → ∀ a r, d.get (c.set a r) = d.get r

/-- The fields of a shape set components of their own, which make up the record. -/
structure RecordLaws {ρ α : Type} (shape : RecordShape ρ α) (comps : List (Component ρ)) :
    Prop extends FieldLaws shape comps where
  ext : ∀ {r r'}, (∀ c ∈ comps, c.get r = c.get r') → r = r'

namespace FieldLaws

variable {ρ α : Type} {shape : RecordShape ρ α} {comps : List (Component ρ)}

theorem putEntry_of_absent (h : FieldLaws shape comps) {k : String}
    (hk : ∀ c ∈ comps, c.name ≠ k) (r : ρ) (v : Value) : shape.putEntry r (k, v) = .ok r := by
  have hfind : shape.fields.find? (fun f => decide (f.name = k)) = none := by
    rw [h.fields_eq, List.find?_eq_none]
    intro f hf
    obtain ⟨c, hc, rfl⟩ := List.mem_map.1 hf
    exact fun hname => hk c hc (of_decide_eq_true hname)
  simp only [RecordShape.putEntry, hfind]

theorem putEntry_of_mem (h : FieldLaws shape comps) {c : Component ρ} (hc : c ∈ comps) (r : ρ)
    (v : Value) : shape.putEntry r (c.name, v) = (c.read v).map fun a => c.set a r := by
  have hfind : shape.fields.find? (fun f => decide (f.name = c.name)) = some c.field := by
    rw [h.fields_eq, List.find?_map]
    have hcomp : comps.find? ((fun f => decide (f.name = c.name)) ∘ Component.field) = some c := by
      cases hd : comps.find? ((fun f => decide (f.name = c.name)) ∘ Component.field) with
      | none => exact absurd (decide_eq_true rfl) (List.find?_eq_none.1 hd c hc)
      | some d =>
        have hfound := List.find?_some hd
        have hname : d.name = c.name := of_decide_eq_true hfound
        rw [List.inj_on_of_nodup_map h.nodup (List.mem_of_find?_eq_some hd) hc hname]
    rw [hcomp, Option.map_some]
  simp only [RecordShape.putEntry, hfind, Component.field, RecordField.of]

/-- Putting entries in succeeds when every value that is read can be. -/
theorem putEntries_ok (h : FieldLaws shape comps) {es : Entries Value} (hes : Distinct es)
    (hread : ∀ c ∈ comps, ∀ v, get? c.name es = some v → ∃ a, c.read v = .ok a) (r : ρ) :
    ∃ r', shape.putEntries r es = .ok r' := by
  induction es generalizing r with
  | nil => exact ⟨r, rfl⟩
  | cons e es ih =>
    obtain ⟨k, v⟩ := e
    have hrest : ∀ c ∈ comps, ∀ w, get? c.name es = some w → ∃ a, c.read w = .ok a := by
      intro c hc w hw
      refine hread c hc w ?_
      rw [get?_cons, if_neg, hw]
      rintro rfl
      simp [hes.get?_tail] at hw
    have hput : ∃ r₁, shape.putEntry r (k, v) = .ok r₁ := by
      by_cases hmem : ∃ c ∈ comps, c.name = k
      · obtain ⟨c, hc, rfl⟩ := hmem
        obtain ⟨a, ha⟩ := hread c hc v (by simp [get?_cons])
        exact ⟨c.set a r, by rw [h.putEntry_of_mem hc, ha]; rfl⟩
      · simp only [not_exists, not_and] at hmem
        exact ⟨r, h.putEntry_of_absent hmem r v⟩
    obtain ⟨r₁, hr₁⟩ := hput
    obtain ⟨r₂, hr₂⟩ := ih (List.pairwise_cons.1 hes).2 hrest r₁
    exact ⟨r₂, by rw [RecordShape.putEntries, hr₁, Outcome.bind_ok, hr₂]⟩

/-- Putting entries in sets the components that they name, and no others. -/
theorem get_putEntries (h : FieldLaws shape comps) {es : Entries Value} (hes : Distinct es)
    {r r' : ρ} (hput : shape.putEntries r es = .ok r') :
    ∀ c ∈ comps, (get? c.name es).elim (.ok (c.get r)) c.read = .ok (c.get r') := by
  induction es generalizing r with
  | nil =>
    cases hput
    exact fun c _ => rfl
  | cons e es ih =>
    obtain ⟨k, v⟩ := e
    obtain ⟨-, hes'⟩ := List.pairwise_cons.1 hes
    have hk := hes.get?_tail
    rw [RecordShape.putEntries] at hput
    obtain ⟨r₁, hr₁, hput⟩ := Outcome.bind_eq_ok_iff.1 hput
    intro d hd
    have hrest := ih hes' hput d hd
    by_cases hmem : ∃ c ∈ comps, c.name = k
    · obtain ⟨c, hc, rfl⟩ := hmem
      rw [h.putEntry_of_mem hc] at hr₁
      obtain ⟨a, ha, rfl⟩ := Outcome.map_eq_ok_iff.1 hr₁
      -- The rest has no entry of this name, so it leaves the component that was set alone.
      by_cases hcd : c.name = d.name
      · have hdc : d = c := List.inj_on_of_nodup_map h.nodup hd hc hcd.symm
        subst hdc
        rw [hk, Option.elim_none, h.get_set d hd] at hrest
        rw [get?_cons, if_pos rfl, Option.elim_some, ha, hrest]
      · rw [h.get_set_of_ne c hc d hd hcd] at hrest
        rwa [get?_cons, if_neg hcd]
    · simp only [not_exists, not_and] at hmem
      rw [h.putEntry_of_absent hmem] at hr₁
      cases hr₁
      rwa [get?_cons, if_neg (Ne.symm (hmem d hd))]

end FieldLaws

namespace RecordLaws

variable {ρ α : Type} {shape : RecordShape ρ α} {comps : List (Component ρ)}

/-- Putting entries in is setting components. -/
theorem putEntries_eq_ok_iff (h : RecordLaws shape comps) {es : Entries Value} (hes : Distinct es)
    {r r' : ρ} :
    shape.putEntries r es = .ok r' ↔
      ∀ c ∈ comps, (get? c.name es).elim (.ok (c.get r)) c.read = .ok (c.get r') := by
  refine ⟨h.get_putEntries hes, fun hr => ?_⟩
  obtain ⟨r₁, hr₁⟩ := h.putEntries_ok hes
    (fun c hc v hv => ⟨c.get r', by simpa [hv] using hr c hc⟩) r
  have hget := h.get_putEntries hes hr₁
  rw [hr₁, h.ext fun c hc => Except.ok.inj ((hget c hc).symm.trans (hr c hc))]

/-- A record is read and written field by field. -/
theorem assembled (h : RecordLaws shape comps) :
    Assembled (fun p => ∃ c ∈ comps, p = c.part) (shape.putEntries shape.start)
      (Component.stored comps) where
  read_iff {es r} hes := by
    rw [h.putEntries_eq_ok_iff hes.distinct]
    constructor
    · rintro hr _ ⟨c, hc, rfl⟩
      simpa [Component.part, Slot.of, h.get_start c hc] using hr c hc
    · intro hr c hc
      simpa [Component.part, Slot.of, h.get_start c hc] using hr c.part ⟨c, hc, rfl⟩
  read_ok {es} hes hr := by
    refine h.putEntries_ok hes.distinct (fun c hc v hv => ?_) _
    obtain ⟨a, ha⟩ := hr c.part ⟨c, hc, rfl⟩
    exact ⟨a, by simpa [Component.part, Slot.of, hv] using ha⟩
  get?_write := by
    rintro r _ ⟨c, hc, rfl⟩
    exact Component.get?_stored h.nodup r hc
  write_cases r key :=
    (Component.get?_stored_cases h.nodup r key).imp_right fun ⟨c, hc, hname⟩ =>
      ⟨c.part, ⟨c, hc, rfl⟩, hname⟩
  canonical_write := Component.canonical_stored comps

end RecordLaws

/-- A record of optional fields is what its entries put in. -/
theorem RecordShape.ofMapping_plain {ρ : Type} (name : String) (start : ρ)
    (fields : List (RecordField ρ)) (es : Entries Value) :
    (RecordShape.plain name start fields).ofMapping es =
      (RecordShape.plain name start fields).putEntries start es := by
  unfold ofMapping plain
  dsimp only
  cases RecordShape.putEntries _ start es with
  | error m => rfl
  | ok r => rfl

/-- Entries that name no field are passed over. -/
theorem RecordShape.putEntries_of_absent {ρ α : Type} {shape : RecordShape ρ α}
    {es : Entries Value} (h : ∀ e ∈ es, e.1 ∉ shape.fields.map RecordField.name) (r : ρ) :
    shape.putEntries r es = .ok r := by
  induction es with
  | nil => rfl
  | cons e es ih =>
    have hfind : shape.fields.find? (fun f => decide (f.name = e.1)) = none := by
      refine List.find?_eq_none.2 fun f hf hname => h e (by simp) ?_
      rw [← of_decide_eq_true hname]
      exact List.mem_map_of_mem hf
    rw [putEntries, putEntry, hfind]
    exact ih fun e' he' => h e' (by simp [he'])

/-! ### Tables -/

section Tables

variable {β γ : Type} (read : Value → Read γ) (settle : γ → β) (write : β → Value)

/-- The slot of an entry of a table. What its value is read as is turned into the entry by
`settle`. -/
def entrySlot : Slot (Option β) :=
  .of none (fun v => (read v).map fun c => some (settle c)) (Option.map write)

/-- The entry of a name, as a part of the table. -/
def entryPart (name : String) : Part (Table β) :=
  ⟨name, Option β, entrySlot read settle write, fun t => t.get? name⟩

/-- A table of raw entries. -/
def readTable (es : Entries Value) : Read (Table β) :=
  (Entries.traverse (fun _ v => read v) es).map fun cs => .ofList (cs.mapValues settle)

/-- A table as raw entries with all keys in order. -/
def storedTable (t : Table β) : Entries Value := t.entries.mapValues fun b => (write b).canonical

theorem readTable_eq_ok_iff {es : Entries Value} (hes : Sorted es) {t : Table β} :
    readTable read settle es = .ok t ↔
      ∀ name, (entrySlot read settle write).read (get? name es) = .ok (t.get? name) := by
  have hlook : ∀ {cs : Entries γ}, Entries.traverse (fun _ v => read v) es = .ok cs → ∀ name,
      (entrySlot read settle write).read (get? name es) =
        .ok ((Table.ofList (cs.mapValues settle)).get? name) := by
    intro cs hcs name
    have hsorted := (hes.traverse hcs).mapValues settle
    rw [Table.get?_ofList hsorted.distinct, Entries.get?_mapValues]
    rcases Entries.get?_traverse hcs name with ⟨hes, hcs⟩ | ⟨v, c, hes, hread, hcs⟩
    · rw [hes, hcs]; rfl
    · rw [hes, hcs]
      simp only [entrySlot, Slot.of_read_some, hread]
      rfl
  constructor
  · intro h
    obtain ⟨cs, hcs, rfl⟩ := Outcome.map_eq_ok_iff.1 h
    exact hlook hcs
  · intro h
    obtain ⟨cs, hcs⟩ : ∃ cs, Entries.traverse (fun _ v => read v) es = .ok cs := by
      refine Entries.traverse_ok fun e he => ?_
      have hname := h e.1
      rw [(Entries.get?_eq_some_iff hes.distinct).2 he] at hname
      obtain ⟨c, hc, -⟩ := Outcome.map_eq_ok_iff.1 hname
      exact ⟨c, hc⟩
    refine Outcome.map_eq_ok_iff.2 ⟨cs, hcs, Table.ext_get? fun name => ?_⟩
    exact Except.ok.inj ((hlook hcs name).symm.trans (h name))

theorem sorted_storedTable (t : Table β) : Sorted (storedTable write t) := t.sorted.mapValues _

theorem get?_storedTable (t : Table β) (name : String) :
    get? name (storedTable write t) =
      ((t.get? name).map write).map Value.canonical := by
  rw [storedTable, Entries.get?_mapValues, Option.map_map]
  rfl

/-- A table is read and written entry by entry. -/
theorem assembled_table :
    Assembled (fun p => ∃ name, p = entryPart read settle write name) (readTable read settle)
      (storedTable write) where
  read_iff {es t} hes := by
    rw [readTable_eq_ok_iff read settle write hes]
    exact ⟨by rintro h _ ⟨name, rfl⟩; exact h name, fun h name => h _ ⟨name, rfl⟩⟩
  read_ok {es} hes h := by
    obtain ⟨cs, hcs⟩ : ∃ cs, Entries.traverse (fun _ v => read v) es = .ok cs := by
      refine Entries.traverse_ok fun e he => ?_
      obtain ⟨c, hc⟩ := h (entryPart read settle write e.1) ⟨e.1, rfl⟩
      simp only [entryPart] at hc
      rw [(Entries.get?_eq_some_iff hes.distinct).2 he] at hc
      obtain ⟨c', hc', -⟩ := Outcome.map_eq_ok_iff.1 hc
      exact ⟨c', hc'⟩
    exact ⟨_, Outcome.map_eq_ok_iff.2 ⟨cs, hcs, rfl⟩⟩
  get?_write := by
    rintro t _ ⟨name, rfl⟩
    exact get?_storedTable write t name
  write_cases _ name := .inr ⟨_, ⟨name, rfl⟩, rfl⟩
  canonical_write t := by
    refine Value.canonical_mapping_iff.2 ⟨sorted_storedTable write t, fun e he => ?_⟩
    obtain ⟨f, -, rfl⟩ := List.mem_map.1 he
    exact Value.canonical_canonical _

/-- What a table is written as, once its keys are in order. -/
theorem canonical_mapValues (t : Table β) :
    (Value.mapping (t.mapValues write).entries).canonical = .mapping (storedTable write t) := by
  have heq : (t.mapValues write).entries.mapValues Value.canonical = storedTable write t := by
    simp [Table.mapValues, Entries.mapValues, storedTable]
  rw [Value.canonical, Value.canonicalEntries_eq_mapValues, heq,
    (sorted_storedTable write t).ofList_eq]

theorem canonical_written_table (t : Table β) :
    (Written.table write t).map Value.canonical =
      if t.isEmpty then none else some (.mapping (storedTable write t)) := by
  unfold Written.table
  split
  · rfl
  · rw [Option.map_some, canonical_mapValues]

end Tables
end ComposeMerge
