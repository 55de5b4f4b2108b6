import ComposeMerge.Proofs.Assembly

/-!
# Values that survive being typed

A value may be typed and written again before it is laid over what is stored. This can make a
difference: nothing is written for what is not set, a text that stands for a list is written as a
list, and where a value takes the place of what is stored, what it is written as may join it.

* `hiddenBy`: nothing of a stored value is seen through what is laid over it;
* `survives`: over a stored value, a value means the same as what it is written as;
* `Slot.Decided`: for the values of a slot, these two say so rightly.

Slots of scalars and of lists of texts are decided, and so are mappings whose parts are.
-/

namespace ComposeMerge

open Entries (Sorted Distinct get?)

/-! ### Hidden values and values that survive -/

mutual

/-- Whether nothing of a stored value, the last argument, is seen through what is laid over it. -/
def hiddenBy (key : String) (laid : Option Value) : Value → Bool
  | .scalar _ => laid.isSome
  | .sequence _ => laid.any fun u => isReplaced key || !u.isSequence
  | .mapping ws =>
    match laid with
    | none => false
    | some (.mapping us) => entriesHiddenBy us ws
    | some _ => true

/-- Whether nothing of stored entries, the last argument, is seen through others. -/
def entriesHiddenBy (laid : Entries Value) : List (String × Value) → Bool
  | [] => true
  | (k, w) :: ws => hiddenBy k (get? k laid) w && entriesHiddenBy laid ws

end

mutual

/-- Whether a value, the last argument, means the same over a stored one as `typed` does, which it
is typed and written as. Sequences that are appended do, and mappings that are laid key by key do
when their entries do. Any other value takes the place of the stored one, so `typed` must hide it. -/
def survives (key : String) (stored : Value) (typed : Option Value) : Value → Bool
  | .scalar _ => hiddenBy key typed stored
  | .sequence _ => (stored.isSequence && !isReplaced key) || hiddenBy key typed stored
  | .mapping es =>
    match stored with
    | .mapping ws => entriesSurvive ws ((typed.bind Value.asMapping?).getD []) es
    | _ => hiddenBy key typed stored

/-- Whether every entry, in the last argument, of a stored name survives. -/
def entriesSurvive (stored typed : Entries Value) : List (String × Value) → Bool
  | [] => true
  | (k, v) :: es =>
    (match get? k stored with
      | some w => survives k w (get? k typed) v
      | none => true) && entriesSurvive stored typed es

end

/-- Whether nothing of what may be stored under a key is seen. -/
def slotHidden (key : String) (stored laid : Option Value) : Bool :=
  stored.all (hiddenBy key laid)

/-- Whether what may be given under a key survives. -/
def slotSurvives (key : String) (stored typed : Option Value) : Option Value → Bool
  | none => true
  | some v => stored.all fun w => survives key w typed v

@[simp] theorem hiddenBy_none (key : String) (w : Value) : hiddenBy key none w = false := by
  cases w <;> rfl

@[simp] theorem slotSurvives_none_left (key : String) (typed v : Option Value) :
    slotSurvives key none typed v = true := by
  cases v <;> rfl

theorem entriesHiddenBy_eq_all (us : Entries Value) (ws : List (String × Value)) :
    entriesHiddenBy us ws = ws.all fun e => hiddenBy e.1 (get? e.1 us) e.2 := by
  induction ws with
  | nil => rfl
  | cons e ws ih => rw [entriesHiddenBy, ih, List.all_cons]

theorem entriesHiddenBy_iff {ws : Entries Value} (hws : Distinct ws) (us : Entries Value) :
    entriesHiddenBy us ws = true ↔
      ∀ name, slotHidden name (get? name ws) (get? name us) = true := by
  rw [entriesHiddenBy_eq_all, List.all_eq_true,
    Entries.forall_get?_iff hws (P := fun name w => slotHidden name w (get? name us) = true)
      fun _ => rfl]
  rfl

theorem entriesSurvive_eq_all (ws us : Entries Value) (es : List (String × Value)) :
    entriesSurvive ws us es =
      es.all fun e => slotSurvives e.1 (get? e.1 ws) (get? e.1 us) (some e.2) := by
  induction es with
  | nil => rfl
  | cons e es ih =>
    rw [entriesSurvive, ih, List.all_cons, slotSurvives]
    cases get? e.1 ws <;> rfl

theorem entriesSurvive_iff {es : Entries Value} (hes : Distinct es) (ws us : Entries Value) :
    entriesSurvive ws us es = true ↔
      ∀ name, slotSurvives name (get? name ws) (get? name us) (get? name es) = true := by
  rw [entriesSurvive_eq_all, List.all_eq_true,
    Entries.forall_get?_iff hes
      (P := fun name v => slotSurvives name (get? name ws) (get? name us) v = true) fun _ => rfl]

/-! ### Slots -/

namespace Slot

variable {α : Type} {s : Slot α} {key : String}

/-- Laid over what `a` is written as, what `b` is written as still stands for `b` just when it
hides what is there. -/
def Hides (s : Slot α) (key : String) : Prop :=
  ∀ a b, s.read (overlaySlot key (s.write a) (s.write b)) = .ok b ↔
    slotHidden key (s.write a) (s.write b) = true

/-- Laid over what `a` is written as, a value and what it is written as mean the same just when the
value survives. -/
def Lays (s : Slot α) (key : String) : Prop :=
  ∀ ⦃a v b c d⦄, (∀ w ∈ v, Value.Canonical w) → s.read v = .ok b →
    s.read (overlaySlot key (s.write a) v) = .ok c →
    s.read (overlaySlot key (s.write a) (s.write b)) = .ok d →
    (c = d ↔ slotSurvives key (s.write a) (s.write b) v = true)

/-- What is hidden and what survives is decided by `hiddenBy` and `survives`. -/
structure Decided (s : Slot α) (key : String) : Prop where
  hides : s.Hides key
  lays : s.Lays key

/-- Only where something is stored and something is written does it matter what. -/
theorem Sound.hides (hs : s.Sound)
    (h : ∀ {a b w u}, s.write a = some w → s.write b = some u →
      (s.read (some (overlay key w u)) = .ok b ↔ hiddenBy key (some u) w = true)) :
    s.Hides key := by
  intro a b
  cases hw : s.write a with
  | none =>
    rw [overlaySlot_none_left, hs.read_write]
    exact iff_of_true rfl rfl
  | some w =>
    cases hu : s.write b with
    | none =>
      rw [overlaySlot_none_right, ← hw, hs.read_write]
      refine iff_of_false (fun hab => ?_) (by simp [slotHidden, hw])
      cases hab
      rw [hw] at hu
      cases hu
    | some u => exact h hw hu

/-- Only where something is stored and something is given does it matter what. -/
theorem Sound.lays (hs : s.Sound)
    (h : ∀ {a w v b c d}, s.write a = some w → Value.Canonical v → s.read (some v) = .ok b →
      s.read (some (overlay key w v)) = .ok c →
      s.read (overlaySlot key (some w) (s.write b)) = .ok d →
      (c = d ↔ survives key w (s.write b) v = true)) : s.Lays key := by
  intro a v b c d hv hb hc hd
  cases v with
  | none =>
    rw [hs.write_of_read_none hb, hc] at hd
    exact iff_of_true (Except.ok.inj hd) rfl
  | some v =>
    cases hw : s.write a with
    | none =>
      rw [hw, overlaySlot_none_left] at hc hd
      rw [hs.read_write] at hd
      rw [hb, hd] at hc
      exact iff_of_true (Except.ok.inj hc).symm rfl
    | some w =>
      rw [hw] at hc hd
      exact h hw (hv v rfl) hb hc hd

/-- A value that takes the place of what is stored means the same as what it is written as just
when that hides what is stored. -/
theorem Hides.eq_iff (h : s.Hides key) {a b c d : α} {w v : Value} (hw : s.write a = some w)
    (hv : overlay key w v = v) (hb : s.read (some v) = .ok b)
    (hc : s.read (some (overlay key w v)) = .ok c)
    (hd : s.read (overlaySlot key (some w) (s.write b)) = .ok d) :
    c = d ↔ hiddenBy key (s.write b) w = true := by
  have hbd := h a b
  rw [hw, hd] at hbd
  rw [hv, hb] at hc
  cases hc
  exact ⟨fun hbd' => hbd.1 (congrArg _ hbd'.symm), fun hw => (Except.ok.inj (hbd.2 hw)).symm⟩

/-! ### Scalars and lists of texts -/

theorem IsScalar.decided (h : s.IsScalar) : s.Decided key := by
  have hhides : s.Hides key := h.sound.hides fun {a b w u} hw hu => by
    obtain ⟨x, rfl⟩ := h.of_write hw
    rw [overlay_scalar_left, ← hu, h.sound.read_write]
    exact iff_of_true rfl (by rw [hu]; rfl)
  refine ⟨hhides, h.sound.lays fun {a w v b c d} hw _ hb hc hd => ?_⟩
  obtain ⟨x, rfl⟩ := h.of_write hw
  obtain ⟨y, rfl⟩ := h.of_read hb
  exact hhides.eq_iff hw (overlay_scalar_left ..) hb hc hd

namespace IsList

variable {s : Slot (List String)} {item : Value → Read String}

theorem hides (h : s.IsList item) : s.Hides key := by
  refine h.sound.hides fun {l m w u} hw hu => ?_
  obtain ⟨rfl, hl⟩ := h.of_write hw
  obtain ⟨rfl, -⟩ := h.of_write hu
  cases hkey : isReplaced key with
  | true =>
    have hover : overlaySlot key (s.write l) (some (.strings m)) = some (.strings m) :=
      h.overlay_of_replaces l (.inl hkey)
    rw [← overlaySlot_some, ← hw, hover, h.read_strings]
    exact iff_of_true rfl (by simp [Value.strings, hiddenBy, hkey])
  | false =>
    have hover := h.read_overlay_sequence hkey (l := l) (h.read_strings m)
    rw [hw] at hover
    refine iff_of_false (fun hm => hl ?_) (by simp [Value.strings, hiddenBy, hkey, Value.isSequence])
    exact List.append_left_eq_self.1 (Except.ok.inj (hover.symm.trans hm))

theorem decided (h : s.IsList item) : s.Decided key := by
  refine ⟨h.hides, h.sound.lays fun {l w v m c d} hw _ hm hc hd => ?_⟩
  obtain ⟨rfl, -⟩ := h.of_write hw
  cases v with
  | scalar x => exact h.hides.eq_iff hw rfl hm hc hd
  | mapping es => exact h.hides.eq_iff hw rfl hm hc hd
  | sequence vs =>
    cases hkey : isReplaced key with
    | true =>
      have hv : overlay key (.strings l) (.sequence vs) = .sequence vs := by
        rw [Value.strings, overlay_sequence, hkey, if_pos rfl]
      rw [h.hides.eq_iff hw hv hm hc hd]
      simp [survives, hkey]
    | false =>
      -- The items are appended, and no items are as good as nothing to append.
      rw [← overlaySlot_some, ← hw, h.read_overlay_sequence hkey hm] at hc
      have hlm : s.read (overlaySlot key (s.write l) (s.write m)) = .ok (l ++ m) := by
        rcases h.write_eq m with ⟨rfl, hu⟩ | hu
        · rw [hu, overlaySlot_none_right, h.sound.read_write, List.append_nil]
        · rw [hu]
          exact h.read_overlay_sequence hkey (h.read_strings m)
      rw [← hw, hlm] at hd
      cases hc
      cases hd
      exact iff_of_true rfl (by simp [survives, Value.strings, Value.isSequence, hkey])

end IsList

end Slot

/-! ### Mappings -/

namespace Assembled

variable {α : Type} {parts : Part α → Prop} {read : Entries Value → Read α}
  {write : α → Entries Value}

/-- What holds where nothing is written holds of all names when it holds of the parts. -/
theorem forall_names_iff (h : Assembled parts read write) (a : α) {P : String → Prop}
    (hP : ∀ name, get? name (write a) = none → P name) :
    (∀ name, P name) ↔ ∀ p, parts p → P p.name := by
  refine ⟨fun hall p _ => hall p.name, fun hall name => ?_⟩
  rcases h.write_cases a name with hnone | ⟨p, hp, rfl⟩
  · exact hP name hnone
  · exact hall p hp

theorem hides (h : Assembled parts read write) (hparts : ∀ p, parts p → p.slot.Hides p.name)
    (a b : α) : read (overlayEntries (write a) (write b)) = .ok b ↔
      entriesHiddenBy (write b) (write a) = true := by
  have hsorted := fun x => (h.canonical_write x).sorted
  rw [h.read_iff (h.sorted_overlay_write a _), entriesHiddenBy_iff (hsorted a).distinct,
    h.forall_names_iff a fun name hname => by rw [hname]; rfl]
  refine forall₂_congr fun p hp => ?_
  rw [h.get?_overlay_write a (hsorted b) hp, h.get?_write a p hp, h.get?_write b p hp]
  exact hparts p hp _ _

theorem lays (h : Assembled parts read write) (hparts : ∀ p, parts p → p.slot.Lays p.name)
    {a b c d : α} {es : Entries Value} (hes : (Value.mapping es).Canonical)
    (hb : read es = .ok b) (hc : read (overlayEntries (write a) es) = .ok c)
    (hd : read (overlayEntries (write a) (write b)) = .ok d) :
    c = d ↔ entriesSurvive (write a) (write b) es = true := by
  have hwb := (h.canonical_write b).sorted
  have hover := h.sorted_overlay_write a (write b)
  have hdparts := (h.read_iff hover).1 hd
  rw [entriesSurvive_iff hes.sorted.distinct,
    h.forall_names_iff a fun name hname => by rw [hname, slotSurvives_none_left]]
  have hpart : ∀ p, parts p → (p.get c = p.get d ↔
      slotSurvives p.name (get? p.name (write a)) (get? p.name (write b)) (get? p.name es)
        = true) := by
    intro p hp
    have hpb := (h.read_iff hes.sorted).1 hb p hp
    have hpc := (h.read_iff (h.sorted_overlay_write a es)).1 hc p hp
    have hpd := hdparts p hp
    rw [h.get?_overlay_write a hes.sorted hp] at hpc
    rw [h.get?_overlay_write a hwb hp, h.get?_write b p hp] at hpd
    rw [h.get?_write a p hp, h.get?_write b p hp]
    exact hparts p hp (fun w hw => hes.get? hw) hpb hpc hpd
  refine ⟨fun hcd p hp => (hpart p hp).1 (by rw [hcd]), fun hall => ?_⟩
  -- The parts of `c` and `d` agree, so `c` is what the second reading gives, too.
  have hcd : read (overlayEntries (write a) (write b)) = .ok c := by
    refine (h.read_iff hover).2 fun p hp => ?_
    rw [(hpart p hp).2 (hall p hp)]
    exact hdparts p hp
  exact Except.ok.inj (hcd.symm.trans hd)

end Assembled

namespace Slot

variable {α β : Type} {s : Slot α} {key : String} {embed : β → α} {read : Entries Value → Read β}
  {write : β → Entries Value} {parts : Part β → Prop}

namespace IsMapping

/-- What is written is the mapping of something. -/
theorem of_write (h : s.IsMapping embed read write) {a : α} {w : Value}
    (hw : s.write a = some w) : ∃ a', embed a' = a ∧ w = .mapping (write a') := by
  rcases h.write_cases a with hnone | ⟨a', ha', hsome⟩
  · rw [hnone] at hw
    cases hw
  · rw [hsome] at hw
    cases hw
    exact ⟨a', ha', rfl⟩

/-- The entries of what is written, if anything is. -/
theorem entries_write_embed (h : s.IsMapping embed read write) (b : β) :
    ((s.write (embed b)).bind Value.asMapping?).getD [] = write b := by
  rcases h.write_embed b with hw | ⟨hnil, hw⟩
  · rw [hw]
    rfl
  · rw [hw, hnil]
    rfl

theorem overlaySlot_write_embed (h : s.IsMapping embed read write) (ws : Entries Value) (b : β) :
    overlaySlot key (some (.mapping ws)) (s.write (embed b)) =
      some (.mapping (overlayEntries ws (write b))) := by
  rcases h.write_embed b with hw | ⟨hnil, hw⟩
  · rw [hw, overlaySlot_some, overlay_mapping]
  · rw [hw, hnil, overlaySlot_none_right, overlayEntries]

theorem hides (h : s.IsMapping embed read write) (hasm : Assembled parts read write)
    (hembed : Function.Injective embed) (hparts : ∀ p, parts p → p.slot.Hides p.name) :
    s.Hides key := by
  refine h.sound.hides fun {a b w u} hw hu => ?_
  obtain ⟨a, rfl, rfl⟩ := h.of_write hw
  obtain ⟨b, rfl, rfl⟩ := h.of_write hu
  rw [overlay_mapping, h.read_mapping (hasm.sorted_overlay_write a _), hiddenBy,
    ← hasm.hides hparts a b]
  constructor
  · rintro ⟨c, hc, hcb⟩
    rwa [hembed hcb] at hc
  · exact fun hb => ⟨b, hb, rfl⟩

/-- A mapping whose parts are decided. -/
theorem decided (h : s.IsMapping embed read write) (hasm : Assembled parts read write)
    (hembed : Function.Injective embed) (hparts : ∀ p, parts p → p.slot.Decided p.name) :
    s.Decided key := by
  have hhides : s.Hides key := h.hides hasm hembed fun p hp => (hparts p hp).hides
  refine ⟨hhides, h.sound.lays fun {a w v b c d} hw hv hb hc hd => ?_⟩
  obtain ⟨a, rfl, rfl⟩ := h.of_write hw
  cases v with
  | scalar x => exact hhides.eq_iff hw rfl hb hc hd
  | sequence vs =>
    rw [hhides.eq_iff hw rfl hb hc hd]
    simp [survives, Value.isSequence]
  | mapping es =>
    obtain ⟨b', hb', rfl⟩ := (h.read_mapping hv.sorted).1 hb
    rw [overlay_mapping, h.read_mapping (hasm.sorted_overlay_write a es)] at hc
    rw [h.overlaySlot_write_embed, h.read_mapping (hasm.sorted_overlay_write a _)] at hd
    obtain ⟨c', hc', rfl⟩ := hc
    obtain ⟨d', hd', rfl⟩ := hd
    rw [hembed.eq_iff, survives, h.entries_write_embed]
    exact hasm.lays (fun p hp => (hparts p hp).lays) hv hb' hc' hd'

end IsMapping
end Slot
end ComposeMerge
