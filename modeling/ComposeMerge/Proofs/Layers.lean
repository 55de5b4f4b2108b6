import ComposeMerge.Proofs.KeyPaths

/-!
# Grouping of layers

Of three definitions that are laid over each other, either two neighbours may be joined first, as
long as the middle one does not come between two values that belong together.

* `KeepsKind` says so of three values of one key, and `KeepsKinds` of everything in three values;
* `overlay_assoc` takes three values together, by recursion on the last one;
* `overlayService_assoc` is the result for services.
-/

namespace ComposeMerge

open Entries (get? Sorted)

/-- Under `key`, the value `b` between `a` and `c` is of their kind if they are of a kind that is
joined. -/
def KeepsKind (key : String) (a b c : Value) : Prop :=
  (a.isMapping = true → c.isMapping = true → b.isMapping = true) ∧
    (key ≠ "links" → key ≠ "volumes_from" →
      a.isSequence = true → c.isSequence = true → b.isSequence = true)

/-- At every path of keys where three values are found, the one between the others keeps their
kind. The values themselves belong to `field`. -/
def KeepsKinds (field : String) (a b c : Value) : Prop :=
  ∀ path x y z, a.at? path = some x → b.at? path = some y → c.at? path = some z →
    KeepsKind (path.getLastD field) x y z

namespace KeepsKinds

variable {field : String} {a b c : Value}

theorem keepsKind (h : KeepsKinds field a b c) : KeepsKind field a b c :=
  h [] a b c (Value.at?_nil a) (Value.at?_nil b) (Value.at?_nil c)

theorem entry {as bs cs : Entries Value}
    (h : KeepsKinds field (.mapping as) (.mapping bs) (.mapping cs)) {name : String}
    (ha : get? name as = some a) (hb : get? name bs = some b) (hc : get? name cs = some c) :
    KeepsKinds name a b c := by
  intro path x y z hx hy hz
  have hkeep := h (name :: path) x y z
  rw [Value.at?_mapping_cons, Value.at?_mapping_cons, Value.at?_mapping_cons, ha, hb, hc,
    List.getLastD_cons] at hkeep
  exact hkeep hx hy hz

end KeepsKinds

/-! ### Three values -/

section Values

variable {field : String}

theorem Value.isMapping_iff {v : Value} : v.isMapping = true ↔ ∃ es, v = .mapping es := by
  cases v <;> simp [Value.isMapping]

theorem Value.isSequence_iff {v : Value} : v.isSequence = true ↔ ∃ vs, v = .sequence vs := by
  cases v <;> simp [Value.isSequence]

theorem isSequence_overlay (field : String) (u v : Value) :
    (overlay field u v).isSequence = v.isSequence := by
  cases v with
  | scalar s => simp
  | sequence vs => cases u <;> simp [overlay_sequence, Value.isSequence]
  | mapping es => cases u <;> simp [Value.isSequence]

theorem Joins.symm {u v : Value} (h : Joins field u v) : Joins field v u :=
  h.imp And.symm fun h => ⟨h.1, h.2.symm⟩

theorem Joins.trans {u v w : Value} (huv : Joins field u v) (hvw : Joins field v w) :
    Joins field u w := by
  rcases huv with ⟨hu, hv⟩ | ⟨hfield, hu, hv⟩
  · obtain ⟨es, rfl⟩ := Value.isMapping_iff.1 hv
    exact .inl ⟨hu, (hvw.resolve_right fun h => Bool.false_ne_true h.2.1).2⟩
  · obtain ⟨vs, rfl⟩ := Value.isSequence_iff.1 hv
    exact .inr ⟨hfield, hu, (hvw.resolve_left fun h => Bool.false_ne_true h.1).2.2⟩

/-- Whether a value is joined does not depend on what is below it. -/
theorem joins_overlay_right_iff {a b c : Value} :
    Joins field a (overlay field b c) ↔ Joins field a c := by
  rw [Joins, isMapping_overlay, isSequence_overlay, Joins]

theorem joins_overlay_left_iff {a b c : Value} :
    Joins field (overlay field a b) c ↔ Joins field b c := by
  rw [Joins, isMapping_overlay, isSequence_overlay, Joins]

theorem KeepsKind.joins {a b c : Value} (h : KeepsKind field a b c) (hac : Joins field a c) :
    Joins field b c := by
  rcases hac with ⟨ha, hc⟩ | ⟨hfield, ha, hc⟩
  · exact .inl ⟨h.1 ha hc, hc⟩
  · obtain ⟨hlinks, hvolumes⟩ := isReplaced_eq_false_iff.1 hfield
    exact .inr ⟨hfield, h.2 hlinks hvolumes ha hc, hc⟩

/-- Laid over values one after the other, a value that is not joined with the second of them. -/
theorem overlay_assoc_of_not_joins {a b c : Value} (h : KeepsKind field a b c)
    (hbc : ¬ Joins field b c) :
    overlay field (overlay field a b) c = overlay field a (overlay field b c) := by
  rw [overlay_of_not_joins hbc, overlay_of_not_joins (mt joins_overlay_left_iff.1 hbc),
    overlay_of_not_joins (mt h.joins hbc)]

/-- Three values of which the first two are not joined, while the last two are. -/
theorem overlay_assoc_of_joins {a b c : Value} (hab : ¬ Joins field a b) (hbc : Joins field b c) :
    overlay field (overlay field a b) c = overlay field a (overlay field b c) := by
  have hac : ¬ Joins field a c := fun hac => hab (hac.trans hbc.symm)
  rw [overlay_of_not_joins hab, overlay_of_not_joins (mt joins_overlay_right_iff.1 hac)]

theorem overlay_sequences_assoc (as bs cs : List Value) :
    overlay field (overlay field (.sequence as) (.sequence bs)) (.sequence cs) =
      overlay field (.sequence as) (overlay field (.sequence bs) (.sequence cs)) := by
  simp only [overlay_sequence]
  split <;> simp

/-- Three mappings of which the values at each key can be grouped. -/
theorem overlayEntries_assoc {as bs cs : Entries Value} (has : Sorted as) (hbs : Sorted bs)
    (hcs : Sorted cs)
    (h : ∀ name a b c, get? name as = some a → get? name bs = some b → get? name cs = some c →
      overlay name (overlay name a b) c = overlay name a (overlay name b c)) :
    overlayEntries (overlayEntries as bs) cs = overlayEntries as (overlayEntries bs cs) := by
  refine ((has.overlayEntries bs).overlayEntries cs).eq_of_get? (has.overlayEntries _) fun name => ?_
  rw [get?_overlayEntries hcs.distinct, get?_overlayEntries hbs.distinct,
    get?_overlayEntries (hbs.overlayEntries cs).distinct, get?_overlayEntries hcs.distinct]
  cases ha : get? name as with
  | none => simp
  | some a =>
    cases hb : get? name bs with
    | none => simp
    | some b =>
      cases hc : get? name cs with
      | none => simp
      | some c => simpa using h name a b c ha hb hc

theorem sizeOf_lt_of_get? {es : Entries Value} {name : String} {v : Value}
    (h : get? name es = some v) : sizeOf v < sizeOf (Value.mapping es) := by
  have hmem := List.sizeOf_lt_of_mem (Entries.mem_of_get? h)
  simp only [Prod.mk.sizeOf_spec, Value.mapping.sizeOf_spec] at hmem ⊢
  omega

end Values

/-- **Three values can be grouped either way** where the middle one keeps the kinds. -/
theorem overlay_assoc {field : String} {a b c : Value} (ha : a.Canonical) (hb : b.Canonical)
    (hc : c.Canonical) (h : KeepsKinds field a b c) :
    overlay field (overlay field a b) c = overlay field a (overlay field b c) := by
  induction hn : sizeOf c using Nat.strong_induction_on generalizing field a b c with
  | _ n ih
  by_cases hbc : Joins field b c
  · by_cases hab : Joins field a b
    · rcases hbc with ⟨hbm, hcm⟩ | ⟨hfield, hbs, hcs⟩
      · obtain ⟨bs, rfl⟩ := Value.isMapping_iff.1 hbm
        obtain ⟨cs, rfl⟩ := Value.isMapping_iff.1 hcm
        obtain ⟨as, rfl⟩ := Value.isMapping_iff.1 (hab.resolve_right (by simp [Value.isSequence])).1
        simp only [overlay_mapping]
        refine congrArg _ (overlayEntries_assoc ha.sorted hb.sorted hc.sorted ?_)
        intro name a' b' c' ha' hb' hc'
        exact ih _ (hn ▸ sizeOf_lt_of_get? hc') (ha.get? ha') (hb.get? hb') (hc.get? hc')
          (h.entry ha' hb' hc') rfl
      · obtain ⟨bs, rfl⟩ := Value.isSequence_iff.1 hbs
        obtain ⟨cs, rfl⟩ := Value.isSequence_iff.1 hcs
        obtain ⟨as, rfl⟩ := Value.isSequence_iff.1 (hab.resolve_left (by simp [Value.isMapping])).2.1
        exact overlay_sequences_assoc as bs cs
    · exact overlay_assoc_of_joins hab hbc
  · exact overlay_assoc_of_not_joins h.keepsKind hbc

/-! ### Three services -/

theorem keepsKinds_of_fieldAt? {a b c : RawService}
    (h : ∀ path key x y z, fieldAt? a (path ++ [key]) = some x →
      fieldAt? b (path ++ [key]) = some y → fieldAt? c (path ++ [key]) = some z →
        KeepsKind key x y z) (field : String) :
    KeepsKinds field (.mapping a) (.mapping b) (.mapping c) := by
  intro path x y z hx hy hz
  rcases List.eq_nil_or_concat path with rfl | ⟨path, key, rfl⟩
  · cases hx
    cases hy
    exact ⟨fun _ _ => rfl, fun _ _ h => by cases h⟩
  · rw [List.concat_eq_append] at hx hy hz ⊢
    rw [List.getLastD_concat]
    exact h path key x y z hx hy hz

/-- **Layers can be grouped either way**, unless a middle layer changes the kind of a value between
two mappings, or between two sequences that are joined. The service without fields is the identity
on both sides. -/
theorem overlayService_assoc {a b c : RawService} (ha : (Value.mapping a).Canonical)
    (hb : (Value.mapping b).Canonical) (hc : (Value.mapping c).Canonical) :
    ((∀ path key x y z, fieldAt? a (path ++ [key]) = some x →
        fieldAt? b (path ++ [key]) = some y → fieldAt? c (path ++ [key]) = some z →
          KeepsKind key x y z) →
      overlayService (overlayService a b) c = overlayService a (overlayService b c)) ∧
    overlayService [] a = a ∧ overlayService a [] = a := by
  refine ⟨fun h => ?_, overlayEntries_nil_left ha.sorted, by simp [overlayService, overlayEntries]⟩
  -- The name of the whole service plays no part.
  have hassoc := overlay_assoc ha hb hc (keepsKinds_of_fieldAt? h "")
  simp only [overlay_mapping] at hassoc
  exact Value.mapping.inj hassoc

theorem at?_singleton_cons_iff {name k : String} {v x : Value} {path : List String} :
    (Value.mapping [(name, v)]).at? (k :: path) = some x ↔ name = k ∧ v.at? path = some x := by
  rw [Value.at?_mapping_cons, Entries.get?_cons]
  by_cases hk : name = k <;> simp [hk]

/-- Labels that are added by three layers. -/
theorem overlayService_assoc_labels :
    let layer (name text : String) : RawService :=
      [("labels", .mapping [(name, .string text)])]
    let a := layer "a" "1"
    let b := layer "b" "2"
    let c := layer "c" "3"
    (∀ s ∈ [a, b, c], (Value.mapping s).Canonical) ∧
      (∀ path key x y z, fieldAt? a (path ++ [key]) = some x →
        fieldAt? b (path ++ [key]) = some y → fieldAt? c (path ++ [key]) = some z →
          KeepsKind key x y z) ∧
        overlayService (overlayService a b) c = overlayService a (overlayService b c) ∧
          fieldAt? (overlayService (overlayService a b) c) ["labels"] =
            some (.mapping [("a", .string "1"), ("b", .string "2"), ("c", .string "3")]) := by
  intro layer a b c
  have hcanonical : ∀ s ∈ [a, b, c], (Value.mapping s).Canonical := by
    simp [a, b, c, layer, Value.string, Entries.Sorted]
  have hkeeps : ∀ path key x y z, fieldAt? a (path ++ [key]) = some x →
      fieldAt? b (path ++ [key]) = some y → fieldAt? c (path ++ [key]) = some z →
        KeepsKind key x y z := by
    intro path key x y z hx hy hz
    cases path with
    | nil =>
      obtain ⟨-, hx⟩ := at?_singleton_cons_iff.1 hx
      obtain ⟨-, hy⟩ := at?_singleton_cons_iff.1 hy
      cases hx
      cases hy
      exact ⟨fun _ _ => rfl, fun _ _ h => by cases h⟩
    | cons k path =>
      -- Below the labels, no two layers have the same key.
      obtain ⟨-, hx⟩ := at?_singleton_cons_iff.1 hx
      obtain ⟨-, hy⟩ := at?_singleton_cons_iff.1 hy
      obtain ⟨l, rest, hpath⟩ : ∃ l rest, path.append [key] = l :: rest :=
        List.exists_cons_of_ne_nil (List.concat_ne_nil key path)
      rw [hpath] at hx hy
      exact absurd ((at?_singleton_cons_iff.1 hx).1.trans (at?_singleton_cons_iff.1 hy).1.symm)
        (by decide)
  exact ⟨hcanonical, hkeeps, (overlayService_assoc (hcanonical a (by simp))
    (hcanonical b (by simp)) (hcanonical c (by simp))).1 hkeeps, rfl⟩

/-- A middle layer that sets the labels to nothing hides the earlier ones from the later ones only
when it is laid over them first. -/
example :
    let a : RawService := [("labels", .mapping [("a", .string "1")])]
    let b : RawService := [("labels", .null)]
    let c : RawService := [("labels", .mapping [("c", .string "3")])]
    fieldAt? (overlayService (overlayService a b) c) ["labels", "a"] = none ∧
      fieldAt? (overlayService a (overlayService b c)) ["labels", "a"] = some (.string "1") :=
  ⟨rfl, rfl⟩

end ComposeMerge
