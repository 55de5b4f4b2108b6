import ComposeMerge.Proofs.Slot

/-!
# Mappings made of parts

A record and a table are read key by key: each key is a `Part` with a slot of its own.

* `Assembled` says that a mapping is read and written part by part;
* `Assembled.keeps` and its siblings lift the properties of slots from the parts to the whole;
* `IsMapping` is a slot whose settings are written as such a mapping.
-/

namespace ComposeMerge

open Entries (Sorted get?)

/-- A named part of a whole. -/
structure Part (α : Type) where
  name : String
  Held : Type
  slot : Slot Held
  get : α → Held

/-- A mapping is read and written part by part, and nothing else is written in it. -/
structure Assembled {α : Type} (parts : Part α → Prop) (read : Entries Value → Read α)
    (write : α → Entries Value) : Prop where
  read_iff : ∀ {es a}, Sorted es →
    (read es = .ok a ↔ ∀ p, parts p → p.slot.read (get? p.name es) = .ok (p.get a))
  read_ok : ∀ {es}, Sorted es →
    (∀ p, parts p → ∃ c, p.slot.read (get? p.name es) = .ok c) → ∃ a, read es = .ok a
  get?_write : ∀ a p, parts p → get? p.name (write a) = p.slot.write (p.get a)
  write_cases : ∀ a name, get? name (write a) = none ∨ ∃ p, parts p ∧ p.name = name
  canonical_write : ∀ a, (Value.mapping (write a)).Canonical

namespace Assembled

variable {α : Type} {parts : Part α → Prop} {read : Entries Value → Read α}
  {write : α → Entries Value}

theorem get?_overlay_write (h : Assembled parts read write) (a : α) {es : Entries Value}
    (hes : Sorted es) {p : Part α} (hp : parts p) :
    get? p.name (overlayEntries (write a) es) =
      overlaySlot p.name (p.slot.write (p.get a)) (get? p.name es) := by
  rw [get?_overlayEntries hes.distinct, h.get?_write a p hp]

theorem sorted_overlay_write (h : Assembled parts read write) (a : α) (es : Entries Value) :
    Sorted (overlayEntries (write a) es) :=
  (h.canonical_write a).sorted.overlayEntries es

theorem read_write (h : Assembled parts read write) (hs : ∀ p, parts p → p.slot.Sound) (a : α) :
    read (write a) = .ok a := by
  refine (h.read_iff (h.canonical_write a).sorted).2 fun p hp => ?_
  rw [h.get?_write a p hp, (hs p hp).read_write]

theorem accepts (h : Assembled parts read write)
    (hparts : ∀ p, parts p → p.slot.Accepts p.name) (a : α) {es : Entries Value} {b : α}
    (hes : (Value.mapping es).Canonical) (hb : read es = .ok b) :
    ∃ c, read (overlayEntries (write a) es) = .ok c := by
  refine h.read_ok (h.sorted_overlay_write a es) fun p hp => ?_
  rw [h.get?_overlay_write a hes.sorted hp]
  exact hparts p hp (p.get a) (fun w hw => hes.get? hw) ((h.read_iff hes.sorted).1 hb p hp)

theorem keeps (h : Assembled parts read write) {es fs : Entries Value} (hes : Sorted es)
    (hfs : Sorted fs)
    (hparts : ∀ p, parts p → p.slot.Keeps p.name (get? p.name es) (get? p.name fs)) {a b : α}
    (ha : read es = .ok a) (hb : read (overlayEntries es fs) = .ok b) :
    read (overlayEntries (write a) fs) = .ok b := by
  refine (h.read_iff (h.sorted_overlay_write a fs)).2 fun p hp => ?_
  rw [h.get?_overlay_write a hfs hp]
  have hpb := (h.read_iff (hes.overlayEntries fs)).1 hb p hp
  rw [get?_overlayEntries hfs.distinct] at hpb
  exact hparts p hp ((h.read_iff hes).1 ha p hp) hpb

end Assembled

namespace Slot

/-- A slot whose settings are written as mappings; what a mapping gives is turned into a setting by
`embed`. -/
structure IsMapping {α β : Type} (s : Slot α) (embed : β → α) (read : Entries Value → Read β)
    (write : β → Entries Value) : Prop where
  sound : s.Sound
  read_mapping : ∀ {es a}, Sorted es →
    (s.read (some (.mapping es)) = .ok a ↔ ∃ b, read es = .ok b ∧ embed b = a)
  write_cases : ∀ a, s.write a = none ∨ ∃ b, embed b = a ∧ s.write a = some (.mapping (write b))
  write_embed : ∀ b, s.write (embed b) = some (.mapping (write b)) ∨
    write b = [] ∧ s.write (embed b) = none

namespace IsMapping

variable {α β : Type} {s : Slot α} {embed : β → α} {read : Entries Value → Read β}
  {write : β → Entries Value} {parts : Part β → Prop} {key : String}

/-- What is not a mapping takes the place of what is written. -/
theorem overlay_of_ne_mapping (h : s.IsMapping embed read write) (a : α) {v : Value}
    (hv : ∀ es, v ≠ .mapping es) : overlaySlot key (s.write a) (some v) = some v := by
  rcases h.write_cases a with hw | ⟨b, -, hw⟩
  · rw [hw, overlaySlot_none_left]
  · rw [hw, overlaySlot_some]
    cases v with
    | scalar x => simp
    | sequence vs => simp
    | mapping es => exact absurd rfl (hv es)

/-- A mapping is laid over what is written key by key. -/
theorem overlay_embed (h : s.IsMapping embed read write) (b : β) {es : Entries Value}
    (hes : Sorted es) :
    overlaySlot key (s.write (embed b)) (some (.mapping es)) =
      some (.mapping (overlayEntries (write b) es)) := by
  rcases h.write_embed b with hw | ⟨hnil, hw⟩
  · rw [hw, overlaySlot_some, overlay_mapping]
  · rw [hw, overlaySlot_none_left, hnil, overlayEntries_nil_left hes]

theorem accepts (h : s.IsMapping embed read write) (hasm : Assembled parts read write)
    (hparts : ∀ p, parts p → p.slot.Accepts p.name) : s.Accepts key := by
  intro a u b hu hb
  cases u with
  | none => exact ⟨a, by rw [overlaySlot_none_right, h.sound.read_write]⟩
  | some v =>
    by_cases hv : ∀ es, v ≠ .mapping es
    · exact ⟨b, by rwa [h.overlay_of_ne_mapping a hv]⟩
    · simp only [not_forall, not_not] at hv
      obtain ⟨es, rfl⟩ := hv
      have hcan : (Value.mapping es).Canonical := hu _ rfl
      -- Only now does it matter what is written: the parts accept the parts of the mapping.
      rcases h.write_cases a with hw | ⟨a', rfl, -⟩
      · exact ⟨b, by rwa [hw, overlaySlot_none_left]⟩
      · obtain ⟨b', hb', -⟩ := (h.read_mapping hcan.sorted).1 hb
        obtain ⟨c, hc⟩ := hasm.accepts hparts a' hcan hb'
        refine ⟨embed c, ?_⟩
        rw [h.overlay_embed a' hcan.sorted]
        exact (h.read_mapping (hasm.sorted_overlay_write a' es)).2 ⟨c, hc, rfl⟩

/-- A mapping, unless neither of the two values is a mapping laid over a mapping. -/
theorem keeps (h : s.IsMapping embed read write) (hasm : Assembled parts read write)
    {v u : Value} (hv : v.Canonical) (hu : u.Canonical)
    (hseq : ∀ us, u = .sequence us → ∀ vs, v ≠ .sequence vs)
    (hmap : ∀ fs, u = .mapping fs → ∃ es, v = .mapping es ∧ ∀ p, parts p →
      p.slot.Keeps p.name (get? p.name es) (get? p.name fs)) :
    s.Keeps key (some v) (some u) := by
  intro a b ha hb
  cases u with
  | scalar x => exact keeps_scalar_right (some v) x ha hb
  | sequence us =>
    rw [h.overlay_of_ne_mapping a (by simp)]
    cases v with
    | scalar x => simpa using hb
    | mapping es => simpa using hb
    | sequence vs => exact absurd rfl (hseq us rfl vs)
  | mapping fs =>
    obtain ⟨es, rfl, hparts⟩ := hmap fs rfl
    obtain ⟨a', ha', rfl⟩ := (h.read_mapping hv.sorted).1 ha
    rw [overlaySlot_some, overlay_mapping] at hb
    obtain ⟨b', hb', rfl⟩ := (h.read_mapping (hv.sorted.overlayEntries fs)).1 hb
    rw [h.overlay_embed a' hu.sorted]
    refine (h.read_mapping (hasm.sorted_overlay_write a' fs)).2 ⟨b', ?_, rfl⟩
    exact hasm.keeps hv.sorted hu.sorted hparts ha' hb'

end IsMapping
end Slot
end ComposeMerge
