import ComposeMerge.Config.Shape
import ComposeMerge.Proofs.Overlay

/-!
# Slots

A `Slot` is a key of a mapping, seen from both sides: how its value, which may be missing, is read,
and how what it stands for is written. Definitions are kept as settings and written again before
the next one is laid over them; two properties of a slot say what this does to it.

* `Accepts`: over what is written, everything that can be read can be laid;
* `Keeps`: laid over a value or over what that value is written as, another value means the same.

They hold of slots of scalars (`IsScalar`) and of lists of texts (`IsList`), and pass from the
parts of a mapping to the mapping (`Assembled`, `IsMapping`).
-/

namespace ComposeMerge

open Entries (Sorted get?)

variable {α β : Type}

/-- How the value of a key, which may be missing, is read, and how what it stands for is written. -/
structure Slot (α : Type) where
  read : Option Value → Read α
  write : α → Option Value

/-- The slot of a setting that stands for `unset` when it is missing. -/
def Slot.of (unset : α) (read : Value → Read α) (write : α → Option Value) : Slot α where
  read v := v.elim (.ok unset) read
  write a := (write a).map Value.canonical

/-- Whether two values, which may be missing, meet. -/
def slotMeets (meets : Value → Value → Bool) : Option Value → Option Value → Bool
  | some v, some u => meets v u
  | _, _ => true

namespace Slot

variable (s : Slot α) (key : String)

/-- What is written is read again. -/
structure Sound : Prop where
  read_write : ∀ a, s.read (s.write a) = .ok a
  canonical_write : ∀ {a v}, s.write a = some v → v.Canonical
  write_of_read_none : ∀ {a}, s.read none = .ok a → s.write a = none

/-- Over what is written, everything that can be read can be laid. -/
def Accepts : Prop :=
  ∀ a {u b}, (∀ w ∈ u, Value.Canonical w) → s.read u = .ok b →
    ∃ c, s.read (overlaySlot key (s.write a) u) = .ok c

/-- Laid over `v` or over what `v` is written as, `u` means the same. -/
def Keeps (v u : Option Value) : Prop :=
  ∀ ⦃a b⦄, s.read v = .ok a → s.read (overlaySlot key v u) = .ok b →
    s.read (overlaySlot key (s.write a) u) = .ok b

variable {s key}

@[simp] theorem of_read_none (unset : α) (read : Value → Read α) (write : α → Option Value) :
    (Slot.of unset read write).read none = .ok unset := rfl

@[simp] theorem of_read_some (unset : α) (read : Value → Read α) (write : α → Option Value)
    (v : Value) : (Slot.of unset read write).read (some v) = read v := rfl

theorem of_write (unset : α) (read : Value → Read α) (write : α → Option Value) (a : α) :
    (Slot.of unset read write).write a = (write a).map Value.canonical := rfl

theorem Sound.keeps_none_right (h : s.Sound) (v : Option Value) : s.Keeps key v none := by
  intro a b ha hb
  rw [overlaySlot_none_right] at hb ⊢
  rw [h.read_write, ← ha, hb]

theorem Sound.keeps_none_left (h : s.Sound) (u : Option Value) : s.Keeps key none u := by
  intro a b ha hb
  rwa [h.write_of_read_none ha]

theorem keeps_scalar_right (v : Option Value) (x : Scalar) :
    s.Keeps key v (some (.scalar x)) := by
  intro a b _ hb
  have h : ∀ w : Option Value, overlaySlot key w (some (.scalar x)) = some (.scalar x) := by
    intro w
    cases w <;> simp
  rwa [h] at hb ⊢

/-- What holds nothing is written as nothing. -/
def DropsVoid (s : Slot α) : Prop :=
  ∀ ⦃v a⦄, v.isVoid = true → s.read (some v) = .ok a →
    s.write a = none ∨ s.write a = some (.mapping [])

theorem DropsVoid.keeps (h : s.DropsVoid) (hs : s.Sound) {v : Value} (hv : v.isVoid = true)
    {u : Option Value} (hu : ∀ w ∈ u, Value.Canonical w) : s.Keeps key (some v) u := by
  cases u with
  | none => exact hs.keeps_none_right _
  | some u =>
    have hcanonical : u.Canonical := hu u rfl
    intro a b ha hb
    rw [overlaySlot_some, overlay_of_isVoid key hv hcanonical] at hb
    rcases h hv ha with hw | hw
    · rwa [hw, overlaySlot_none_left]
    · rwa [hw, overlaySlot_some, overlay_of_isVoid key rfl hcanonical]

/-! ### Scalars -/

/-- A slot of scalars. -/
structure IsScalar (s : Slot α) : Prop where
  sound : s.Sound
  of_read : ∀ {v a}, s.read (some v) = .ok a → ∃ x, v = .scalar x
  of_write : ∀ {a v}, s.write a = some v → ∃ x, v = .scalar x

/-- Whatever is laid over a scalar takes its place. -/
theorem IsScalar.overlay_write (h : s.IsScalar) (a : α) (v : Value) :
    overlaySlot key (s.write a) (some v) = some v := by
  cases hw : s.write a with
  | none => rw [overlaySlot_none_left]
  | some w =>
    obtain ⟨x, rfl⟩ := h.of_write hw
    rw [overlaySlot_some, overlay_scalar_left]

theorem IsScalar.accepts (h : s.IsScalar) : s.Accepts key := by
  intro a u b _ hu
  cases u with
  | none => exact ⟨a, by rw [overlaySlot_none_right, h.sound.read_write]⟩
  | some v =>
    exact ⟨b, by rwa [h.overlay_write]⟩

theorem IsScalar.keeps (h : s.IsScalar) (v u : Option Value) : s.Keeps key v u := by
  cases v with
  | none => exact h.sound.keeps_none_left u
  | some v =>
    cases u with
    | none => exact h.sound.keeps_none_right _
    | some u =>
      intro a b ha hb
      obtain ⟨x, rfl⟩ := h.of_read ha
      rw [overlaySlot_some, overlay_scalar_left] at hb
      rwa [h.overlay_write]

/-! ### Lists of texts -/

/-- A slot of lists of texts, whose sequences are read item by item. -/
structure IsList (s : Slot (List String)) (item : Value → Read String) : Prop where
  sound : s.Sound
  item_string : ∀ t, item (.string t) = .ok t
  read_sequence : ∀ {vs l}, s.read (some (.sequence vs)) = .ok l ↔ vs.mapM item = .ok l
  write_nil : s.write [] = none
  write_cons : ∀ t l, s.write (t :: l) = some (.strings (t :: l))

theorem mapM_strings {ε : Type} {item : Value → Except ε String}
    (h : ∀ t, item (.string t) = .ok t) (l : List String) : (l.map Value.string).mapM item = .ok l := by
  induction l with
  | nil => rfl
  | cons t l ih => exact Outcome.mapM_cons_eq_ok_iff.2 ⟨t, l, h t, ih, rfl⟩

namespace IsList

variable {s : Slot (List String)} {item : Value → Read String}

theorem read_strings (h : s.IsList item) (l : List String) :
    s.read (some (.strings l)) = .ok l :=
  h.read_sequence.2 (mapM_strings h.item_string l)

theorem write_eq (h : s.IsList item) (l : List String) :
    (l = [] ∧ s.write l = none) ∨ s.write l = some (.strings l) := by
  cases l with
  | nil => exact .inl ⟨rfl, h.write_nil⟩
  | cons t l => exact .inr (h.write_cons t l)

/-- What is written for a list is that list, which is not empty. -/
theorem of_write (h : s.IsList item) {l : List String} {w : Value} (hw : s.write l = some w) :
    w = .strings l ∧ l ≠ [] := by
  cases l with
  | nil =>
    rw [h.write_nil] at hw
    cases hw
  | cons t l =>
    rw [h.write_cons] at hw
    cases hw
    exact ⟨rfl, by simp⟩

/-- A sequence laid over what is written is appended. -/
theorem read_overlay_sequence (h : s.IsList item) (hkey : isReplaced key = false) {l m : List String}
    {vs : List Value} (hvs : s.read (some (.sequence vs)) = .ok m) :
    s.read (overlaySlot key (s.write l) (some (.sequence vs))) = .ok (l ++ m) := by
  rcases h.write_eq l with ⟨rfl, hw⟩ | hw
  · rw [hw, overlaySlot_none_left, hvs, List.nil_append]
  · rw [hw, overlaySlot_some, Value.strings, overlay_sequence, hkey]
    exact h.read_sequence.2 (Outcome.mapM_append_eq_ok_iff.2
      ⟨l, m, mapM_strings h.item_string l, h.read_sequence.1 hvs, rfl⟩)

/-- What a sequence laid over what is written gives is an appended list. -/
theorem of_read_overlay_sequence (h : s.IsList item) (hkey : isReplaced key = false)
    {l n : List String} {vs : List Value}
    (hn : s.read (overlaySlot key (s.write l) (some (.sequence vs))) = .ok n) :
    ∃ m, s.read (some (.sequence vs)) = .ok m ∧ n = l ++ m := by
  rcases h.write_eq l with ⟨rfl, hw⟩ | hw
  · rw [hw, overlaySlot_none_left] at hn
    exact ⟨n, hn, rfl⟩
  · rw [hw, overlaySlot_some, Value.strings, overlay_sequence, hkey] at hn
    obtain ⟨l', m, hl', hm, rfl⟩ := Outcome.mapM_append_eq_ok_iff.1 (h.read_sequence.1 hn)
    rw [mapM_strings h.item_string] at hl'
    cases hl'
    exact ⟨m, h.read_sequence.2 hm, rfl⟩

/-- Whatever else is laid over what is written takes its place. -/
theorem overlay_of_replaces (h : s.IsList item) (l : List String) {v : Value}
    (hv : isReplaced key = true ∨ ∀ vs, v ≠ .sequence vs) :
    overlaySlot key (s.write l) (some v) = some v := by
  rcases h.write_eq l with ⟨-, hw⟩ | hw
  · rw [hw, overlaySlot_none_left]
  · rw [hw, overlaySlot_some, Value.strings]
    cases v with
    | scalar x => simp
    | mapping es => simp
    | sequence vs => simp [overlay_sequence, hv.resolve_right fun hne => hne vs rfl]

theorem accepts (h : s.IsList item) : s.Accepts key := by
  intro l u m _ hu
  cases u with
  | none => exact ⟨l, by rw [overlaySlot_none_right, h.sound.read_write]⟩
  | some v =>
    by_cases hv : isReplaced key = true ∨ ∀ vs, v ≠ .sequence vs
    · exact ⟨m, by rwa [h.overlay_of_replaces l hv]⟩
    · simp only [not_or, Bool.not_eq_true, not_forall, not_not] at hv
      obtain ⟨hkey, vs, rfl⟩ := hv
      exact ⟨l ++ m, h.read_overlay_sequence hkey hu⟩

/-- A list that is spelled as it is stored, unless what is laid over it takes its place. -/
theorem keeps (h : s.IsList item) {v u : Value}
    (hseq : ∀ us, u = .sequence us → isReplaced key = true ∨ ∃ vs, v = .sequence vs)
    (hmap : ∀ es, u = .mapping es → ∀ fs, v ≠ .mapping fs) :
    s.Keeps key (some v) (some u) := by
  intro l m hl hm
  -- Either `u` takes the place of whatever is there, or two sequences are put together.
  by_cases hu : isReplaced key = true ∨ ∀ us, u ≠ .sequence us
  · rw [h.overlay_of_replaces l hu]
    rw [overlaySlot_some] at hm
    cases u with
    | scalar x => simpa using hm
    | mapping es =>
      cases v with
      | scalar x => simpa using hm
      | sequence vs => simpa using hm
      | mapping fs => exact absurd rfl (hmap es rfl fs)
    | sequence us =>
      have hkey := hu.resolve_right fun hne => hne us rfl
      cases v <;> simpa [overlay, hkey] using hm
  · simp only [not_or, Bool.not_eq_true, not_forall, not_not] at hu
    obtain ⟨hkey, us, rfl⟩ := hu
    obtain ⟨vs, rfl⟩ := (hseq us rfl).resolve_left (by simp [hkey])
    rw [overlaySlot_some, overlay_sequence, hkey] at hm
    obtain ⟨l', k, hl', hk, rfl⟩ := Outcome.mapM_append_eq_ok_iff.1 (h.read_sequence.1 hm)
    have hll : l = l' := Except.ok.inj (hl.symm.trans (h.read_sequence.2 hl'))
    rw [hll]
    exact h.read_overlay_sequence hkey (h.read_sequence.2 hk)

end IsList
end Slot
end ComposeMerge
