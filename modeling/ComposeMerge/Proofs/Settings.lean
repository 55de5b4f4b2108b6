import ComposeMerge.Proofs.Record

/-!
# The slots of settings

The kinds of slots that the settings of a service have. What is written in them is read again.

* scalars: `isScalar_text` and its siblings;
* lists of texts: `isList_list` and its siblings;
* tables and records in general: `isMapping_table` and `isMapping_record`.
-/

namespace ComposeMerge

open Entries (Sorted get?)
open Slot (IsScalar IsList IsMapping Sound)

/-- The slot of a field of some kind. -/
def FieldKind.slot (k : FieldKind) : Slot k.Setting := .of k.unset (k.read .direct) k.write

/-! ### Scalars -/

/-- A setting that reads no sequences and no mappings, and is written as a scalar. -/
theorem isScalar_of {α : Type} {unset : α} {read : Value → Read α} {write : α → Option Value}
    (hread : ∀ a, (write a).elim (.ok unset) read = .ok a) (hunset : write unset = none)
    (hwrite : ∀ {a v}, write a = some v → ∃ x, v = .scalar x)
    (hsequence : ∀ vs a, read (.sequence vs) ≠ .ok a)
    (hmapping : ∀ es a, read (.mapping es) ≠ .ok a) : (Slot.of unset read write).IsScalar := by
  -- A scalar has no keys to put in order.
  have hsame : ∀ a, (Slot.of unset read write).write a = write a := by
    intro a
    rw [Slot.of_write]
    cases hw : write a with
    | none => rfl
    | some v =>
      obtain ⟨x, rfl⟩ := hwrite hw
      rfl
  refine ⟨⟨fun a => ?_, fun {a v} h => ?_, fun {a} h => ?_⟩, fun {v a} h => ?_, fun {a v} h => ?_⟩
  · rw [hsame]
    exact hread a
  · rw [hsame] at h
    obtain ⟨x, rfl⟩ := hwrite h
    simp
  · cases h
    rw [hsame, hunset]
  · cases v with
    | scalar x => exact ⟨x, rfl⟩
    | sequence vs => exact absurd h (hsequence vs a)
    | mapping es => exact absurd h (hmapping es a)
  · rw [hsame] at h
    exact hwrite h

theorem scalar_of_text {a : Option String} {v : Value} (h : Written.text a = some v) :
    ∃ x, v = .scalar x := by
  cases a with
  | none => cases h
  | some s => cases h; exact ⟨_, rfl⟩

theorem isScalar_text : (Slot.of none Spelling.text Written.text).IsScalar :=
  isScalar_of (fun a => by cases a <;> rfl) rfl scalar_of_text (fun _ _ h => by cases h)
    fun _ _ h => by cases h

theorem isScalar_string : (Slot.of none (Shape.optional Shape.string) Written.text).IsScalar :=
  isScalar_of (fun a => by cases a <;> rfl) rfl scalar_of_text (fun _ _ h => by cases h)
    fun _ _ h => by cases h

theorem isScalar_number (parse : String → Read Int64) :
    (Slot.of none (Spelling.number parse) Written.number).IsScalar := by
  refine isScalar_of (fun a => by cases a <;> rfl) rfl (fun {a v} h => ?_)
    (fun _ _ h => by cases h) fun _ _ h => by cases h
  cases a with
  | none => cases h
  | some n => cases h; exact ⟨_, rfl⟩

theorem isScalar_flag : (Slot.of false Shape.boolean Written.flag).IsScalar := by
  refine isScalar_of (fun a => by cases a <;> rfl) rfl (fun {a v} h => ?_)
    (fun _ _ h => by cases h) fun _ _ h => by cases h
  cases a with
  | false => cases h
  | true => cases h; exact ⟨_, rfl⟩

/-! ### Lists of texts -/

theorem canonical_strings (l : List String) : (Value.strings l).canonical = .strings l := by
  refine Value.Canonical.canonical_eq ?_
  simp [Value.strings, Value.string]

/-- A setting that reads sequences as texts. -/
theorem isList_of {read : Value → Read (List String)} {item : Value → Read String}
    (hitem : ∀ t, item (.string t) = .ok t)
    (hseq : ∀ {vs l}, read (.sequence vs) = .ok l ↔ vs.mapM item = .ok l) :
    (Slot.of [] read Written.texts).IsList item := by
  have hwrite : ∀ t l, (Slot.of [] read Written.texts).write (t :: l) =
      some (.strings (t :: l)) := fun t l => congrArg some (canonical_strings (t :: l))
  refine ⟨⟨fun l => ?_, fun {l v} h => ?_, fun h => ?_⟩, hitem, hseq, rfl, hwrite⟩
  · cases l with
    | nil => rfl
    | cons t l =>
      rw [hwrite]
      exact hseq.2 (Slot.mapM_strings hitem (t :: l))
  · cases l with
    | nil => cases h
    | cons t l =>
      rw [hwrite] at h
      cases h
      simp [Value.strings, Value.string]
  · cases h
    rfl

theorem texts_eq_ok_iff {choice : Choice} {vs : List Value} {l : List String} :
    Spelling.texts choice vs = .ok l ↔ vs.mapM Shape.scalarText = .ok l := by
  rw [Spelling.texts, Shape.oneOf, Outcome.mapError_eq_ok_iff]

theorem isList_list : FieldKind.list.slot.IsList Shape.scalarText :=
  isList_of (fun _ => rfl) texts_eq_ok_iff

theorem isList_command : FieldKind.command.slot.IsList Shape.scalarText :=
  isList_of (fun _ => rfl) texts_eq_ok_iff

theorem isList_pairs : FieldKind.pairs.slot.IsList Shape.scalarText :=
  isList_of (fun _ => rfl) texts_eq_ok_iff

theorem isList_dependencies : FieldKind.dependencies.slot.IsList Shape.scalarText :=
  isList_of (fun _ => rfl) texts_eq_ok_iff

/-! ### Tables -/

section Tables

variable {β γ : Type} {read : Value → Read γ} {settle : γ → β} {write : β → Value}

/-- A setting that reads mappings entry by entry. -/
theorem isMapping_table {whole : Value → Read (Table β)}
    (hread : ∀ {es t}, Sorted es → (whole (.mapping es) = .ok t ↔ readTable read settle es = .ok t))
    (hentry : (entrySlot read settle write).Sound) :
    (Slot.of .empty whole (Written.table write)).IsMapping id (readTable read settle)
      (storedTable write) := by
  have hasm := assembled_table read settle write
  have hwrite : ∀ t, (Slot.of .empty whole (Written.table write)).write t =
      if t.isEmpty then none else some (.mapping (storedTable write t)) :=
    canonical_written_table write
  have hempty : ∀ {t : Table β}, t.isEmpty = true → t = .empty := fun {t} => t.isEmpty_iff.1
  refine ⟨⟨fun t => ?_, fun {t v} h => ?_, fun h => ?_⟩, fun {es t} hes => ?_, fun t => ?_,
    fun t => ?_⟩
  · rw [hwrite]
    split
    · next h => rw [hempty h, Slot.of_read_none]
    · refine (hread (sorted_storedTable write t)).2 (hasm.read_write ?_ t)
      rintro _ ⟨name, rfl⟩
      exact hentry
  · rw [hwrite] at h
    split at h
    · cases h
    · cases h
      exact hasm.canonical_write t
  · cases h
    rfl
  · rw [Slot.of_read_some, hread hes]
    simp
  · rw [hwrite]
    by_cases ht : t.isEmpty = true
    · exact .inl (if_pos ht)
    · exact .inr ⟨t, rfl, if_neg ht⟩
  · rw [id, hwrite]
    by_cases ht : t.isEmpty = true
    · refine .inr ⟨?_, if_pos ht⟩
      rw [hempty ht]
      rfl
    · exact .inl (if_neg ht)

end Tables

/-! ### Records -/

/-- A setting that reads mappings as records. -/
theorem isMapping_record {β : Type} {whole : Value → Read (Option β)} {write : β → Value}
    {read : Entries Value → Read β} {stored : β → Entries Value} {parts : Part β → Prop}
    (hasm : Assembled parts read stored) (hparts : ∀ p, parts p → p.slot.Sound)
    (hread : ∀ {es b}, whole (.mapping es) = .ok b ↔ ∃ r, read es = .ok r ∧ some r = b)
    (hwrite : ∀ b, (write b).canonical = .mapping (stored b)) :
    (Slot.of none whole (Option.map write)).IsMapping some read stored := by
  have hsome : ∀ b, (Slot.of none whole (Option.map write)).write (some b) =
      some (.mapping (stored b)) := fun b => congrArg some (hwrite b)
  refine ⟨⟨fun a => ?_, fun {a v} h => ?_, fun h => ?_⟩, fun {es a} _ => hread, fun a => ?_,
    fun b => .inl (hsome b)⟩
  · cases a with
    | none => rfl
    | some b =>
      rw [hsome]
      exact hread.2 ⟨b, hasm.read_write hparts b, rfl⟩
  · cases a with
    | none => cases h
    | some b =>
      rw [hsome] at h
      cases h
      exact hasm.canonical_write b
  · cases h
    rfl
  · cases a with
    | none => exact .inl rfl
    | some b => exact .inr ⟨b, rfl, hsome b⟩

/-- What a record is written as, once its keys are in order. -/
theorem canonical_written {ρ : Type} (comps : List (Component ρ)) (r : ρ) :
    (Value.mapping (Component.written comps r)).canonical =
      .mapping (Component.stored comps r) := by
  rw [Value.canonical]
  rfl

end ComposeMerge
