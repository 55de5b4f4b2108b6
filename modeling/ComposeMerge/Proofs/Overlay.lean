import ComposeMerge.Overlay
import ComposeMerge.Proofs.Canonical

/-!
# Laws of overlaying

Overlaying works key by key.

* `overlaySlot` says what becomes of one key, which either side may lack;
* `get?_overlayEntries` looks a key up in an overlaid mapping;
* `canonical_overlay` keeps values canonical, and `overlayEntries_nil_left` gives the identity.
-/

namespace ComposeMerge

open Entries (Sorted Distinct get? get?_cons)

/-- What becomes of one key; either side may lack it. -/
def overlaySlot (field : String) : Option Value → Option Value → Option Value
  | base, none => base
  | none, some v => some v
  | some existing, some v => some (overlay field existing v)

section Slot

variable (field : String)

@[simp] theorem overlaySlot_none_right (base : Option Value) :
    overlaySlot field base none = base := by
  cases base <;> rfl

@[simp] theorem overlaySlot_none_left (incoming : Option Value) :
    overlaySlot field none incoming = incoming := by
  cases incoming <;> rfl

@[simp] theorem overlaySlot_some (existing v : Value) :
    overlaySlot field (some existing) (some v) = some (overlay field existing v) := rfl

@[simp] theorem overlay_scalar_right (existing : Value) (s : Scalar) :
    overlay field existing (.scalar s) = .scalar s := rfl

@[simp] theorem overlay_scalar_left (s : Scalar) (v : Value) :
    overlay field (.scalar s) v = v := by
  cases v <;> rfl

@[simp] theorem overlay_mapping_sequence (es : Entries Value) (vs : List Value) :
    overlay field (.mapping es) (.sequence vs) = .sequence vs := rfl

@[simp] theorem overlay_sequence_mapping (vs : List Value) (es : Entries Value) :
    overlay field (.sequence vs) (.mapping es) = .mapping es := rfl

theorem overlay_sequence (base extra : List Value) :
    overlay field (.sequence base) (.sequence extra) =
      .sequence (if isReplaced field then extra else base ++ extra) := by
  rw [overlay]
  split <;> rfl

@[simp] theorem overlay_mapping (base extra : Entries Value) :
    overlay field (.mapping base) (.mapping extra) = .mapping (overlayEntries base extra) := rfl

end Slot

theorem overlayEntries_cons (base : Entries Value) (k : String) (v : Value)
    (es : Entries Value) :
    overlayEntries base ((k, v) :: es) =
      overlayEntries
        (base.insert k ((get? k base).elim v fun existing => overlay k existing v)) es := by
  rw [overlayEntries]
  cases get? k base <;> rfl

/-- Overlaying works key by key. -/
theorem get?_overlayEntries {extra : Entries Value} (h : Distinct extra) (base : Entries Value)
    (name : String) :
    get? name (overlayEntries base extra) =
      overlaySlot name (get? name base) (get? name extra) := by
  induction extra generalizing base with
  | nil => simp [overlayEntries]
  | cons e extra ih =>
    obtain ⟨k, v⟩ := e
    rw [overlayEntries_cons, ih (List.pairwise_cons.1 h).2, Entries.get?_insert, get?_cons]
    by_cases hk : name = k
    · subst hk
      rw [h.get?_tail, if_pos rfl, if_pos rfl, overlaySlot_none_right]
      cases get? name base <;> rfl
    · rw [if_neg hk, if_neg (Ne.symm hk)]

theorem Entries.Sorted.overlayEntries {base : Entries Value} (h : Sorted base)
    (extra : Entries Value) : Sorted (overlayEntries base extra) := by
  induction extra generalizing base with
  | nil => simpa [ComposeMerge.overlayEntries] using h
  | cons e extra ih =>
    obtain ⟨k, v⟩ := e
    rw [overlayEntries_cons]
    exact ih (h.insert k _)

/-- Laid over nothing, entries stay as they are. -/
theorem overlayEntries_nil_left {es : Entries Value} (h : Sorted es) :
    overlayEntries [] es = es := by
  refine (Entries.sorted_nil.overlayEntries es).eq_of_get? h fun name => ?_
  rw [get?_overlayEntries h.distinct]
  simp

/-- Whether a value is a sequence. -/
def Value.isSequence : Value → Bool
  | .sequence _ => true
  | _ => false

/-- Whether a value is a mapping. -/
def Value.isMapping : Value → Bool
  | .mapping _ => true
  | _ => false

/-- Whether a value holds nothing. -/
def Value.isVoid : Value → Bool
  | .scalar .null => true
  | .sequence [] => true
  | .mapping [] => true
  | _ => false

theorem Value.eq_of_isVoid {v : Value} (h : v.isVoid = true) :
    v = .null ∨ v = .sequence [] ∨ v = .mapping [] := by
  unfold Value.isVoid at h
  split at h
  · exact .inl rfl
  · exact .inr (.inl rfl)
  · exact .inr (.inr rfl)
  · cases h

/-- Laid over a value that holds nothing, a value stays as it is. -/
theorem overlay_of_isVoid (field : String) {v u : Value} (hv : v.isVoid = true)
    (hu : u.Canonical) : overlay field v u = u := by
  rcases Value.eq_of_isVoid hv with rfl | rfl | rfl
  · exact overlay_scalar_left field .null u
  · cases u with
    | scalar x => simp
    | mapping es => simp
    | sequence us => simp [overlay_sequence]
  · cases u with
    | scalar x => simp
    | sequence us => simp
    | mapping es => rw [overlay_mapping, overlayEntries_nil_left hu.sorted]

theorem canonical_insert {es : Entries Value} (h : (Value.mapping es).Canonical) (name : String)
    {v : Value} (hv : v.Canonical) : (Value.mapping (es.insert name v)).Canonical := by
  refine Value.canonical_mapping_iff.2 ⟨h.sorted.insert name v, fun e he => ?_⟩
  rcases Entries.mem_insert he with rfl | he
  · exact hv
  · exact h.entry he

mutual

/-- Overlaying keeps values canonical. -/
theorem canonical_overlay (field : String) {base : Value} (hbase : base.Canonical) :
    (v : Value) → v.Canonical → (overlay field base v).Canonical
  | .scalar _, _ => by simp
  | .sequence vs, hvs => by
    cases base with
    | scalar s => simpa using hvs
    | mapping es => simpa using hvs
    | sequence us =>
      rw [overlay_sequence, Value.canonical_sequence_iff]
      intro u hu
      split at hu
      · exact Value.canonical_sequence_iff.1 hvs u hu
      · rcases List.mem_append.1 hu with hu | hu
        · exact Value.canonical_sequence_iff.1 hbase u hu
        · exact Value.canonical_sequence_iff.1 hvs u hu
  | .mapping es, hes => by
    cases base with
    | scalar s => simpa using hes
    | sequence us => simpa using hes
    | mapping bs =>
      rw [overlay_mapping]
      exact canonical_overlayEntries hbase es (Value.canonical_mapping_iff.1 hes).2

theorem canonical_overlayEntries {base : Entries Value} (hbase : (Value.mapping base).Canonical) :
    (es : List (String × Value)) → (∀ e ∈ es, e.2.Canonical) →
      (Value.mapping (overlayEntries base es)).Canonical
  | [], _ => by simpa only [overlayEntries] using hbase
  | (k, v) :: es, hes => by
    rw [overlayEntries_cons]
    have hv : v.Canonical := hes (k, v) (by simp)
    refine canonical_overlayEntries (canonical_insert hbase k ?_) es
      fun e he => hes e (by simp [he])
    cases hget : get? k base with
    | none => exact hv
    | some existing => exact canonical_overlay k (hbase.get? hget) v hv

end

end ComposeMerge
