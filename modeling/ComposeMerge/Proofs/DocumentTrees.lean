import ComposeMerge.Document
import ComposeMerge.Proofs.Entries

/-!
# Document trees and their values

How a document tree is turned into a raw value, told from the nodes inside it.

* `Node.induct` is induction over document trees, `Node.Inside` says what occurs in one, and
  `Node.EveryMapping` that all mappings inside have some property;
* `Value.ofItems_eq_ok_iff` and `Value.ofEntries_eq_ok_iff` take a sequence and a mapping apart;
* `Value.exists_ofNode_iff` says which trees have a value, and `Value.eq_of_ofNode_eq_error` what
  is wrong with the others.
-/

namespace ComposeMerge

open Yaml (Node)

/-! ### Related lists -/

section Related

variable {α β : Type} {r s : α → β → Prop} {l : List α} {m : List β}

theorem forall₂_imp_of_mem (h : List.Forall₂ r l m) (himp : ∀ a ∈ l, ∀ b, r a b → s a b) :
    List.Forall₂ s l m := by
  induction h with
  | nil => exact .nil
  | cons hab _ ih => exact .cons (himp _ (by simp) _ hab) (ih fun a ha => himp a (by simp [ha]))

theorem exists_of_mem_forall₂ (h : List.Forall₂ r l m) {a : α} (ha : a ∈ l) : ∃ b ∈ m, r a b := by
  obtain ⟨i, hi, rfl⟩ := List.getElem_of_mem ha
  obtain ⟨hlength, hget⟩ := List.forall₂_iff_get.1 h
  exact ⟨_, List.get_mem _ _, hget i hi (hlength ▸ hi)⟩

/-- Of two relations, one decides about the other. -/
theorem forall₂_iff_of_forall₂ {p : α → Prop} (h : List.Forall₂ r l m)
    (hiff : ∀ a ∈ l, ∀ b, r a b → (s a b ↔ p a)) : List.Forall₂ s l m ↔ ∀ a ∈ l, p a := by
  induction h with
  | nil => simp
  | cons hab _ ih =>
    rw [List.forall₂_cons, List.forall_mem_cons, hiff _ (by simp) _ hab,
      ih fun a ha => hiff a (by simp [ha])]

end Related

namespace Yaml.Node

/-! ### Nodes inside a tree -/

theorem sizeOf_lt_of_mem_entries {e : Node × Node} {es : List (Node × Node)} (he : e ∈ es) :
    sizeOf e.1 < sizeOf es ∧ sizeOf e.2 < sizeOf es := by
  have hsize := List.sizeOf_lt_of_mem he
  obtain ⟨k, v⟩ := e
  simp at hsize ⊢
  omega

/-- Induction over document trees. -/
@[elab_as_elim]
theorem induct {motive : Node → Prop} (null : motive .null) (bool : ∀ b, motive (.bool b))
    (integer : ∀ n, motive (.integer n)) (float : ∀ x, motive (.float x))
    (text : ∀ s, motive (.text s))
    (sequence : ∀ items, (∀ n ∈ items, motive n) → motive (.sequence items))
    (mapping : ∀ es, (∀ e ∈ es, motive e.1) → (∀ e ∈ es, motive e.2) → motive (.mapping es))
    (tagged : ∀ tag n, motive n → motive (.tagged tag n)) : (n : Node) → motive n
  | .null => null
  | .bool b => bool b
  | .integer n => integer n
  | .float x => float x
  | .text s => text s
  | .sequence items =>
    sequence items fun n _ => induct null bool integer float text sequence mapping tagged n
  | .mapping es =>
    mapping es (fun e _ => induct null bool integer float text sequence mapping tagged e.1)
      fun e _ => induct null bool integer float text sequence mapping tagged e.2
  | .tagged tag n =>
    tagged tag n (induct null bool integer float text sequence mapping tagged n)
termination_by n => sizeOf n
decreasing_by
  · have hsize := List.sizeOf_lt_of_mem ‹_›
    simp
    omega
  · have hsize := (sizeOf_lt_of_mem_entries ‹_›).1
    simp
    omega
  · have hsize := (sizeOf_lt_of_mem_entries ‹_›).2
    simp
    omega
  · simp

/-- A node is inside another one when it is that node or occurs in it, keys left aside. -/
inductive Inside : Node → Node → Prop where
  | self (n : Node) : Inside n n
  | item {m n : Node} {items : List Node} (hn : n ∈ items) (h : Inside m n) :
      Inside m (.sequence items)
  | entry {m : Node} {e : Node × Node} {es : List (Node × Node)} (he : e ∈ es)
      (h : Inside m e.2) : Inside m (.mapping es)
  | under {m n : Node} {tag : String} (h : Inside m n) : Inside m (.tagged tag n)

/-- The entries of every mapping inside a node have some property. -/
def EveryMapping (p : List (Node × Node) → Prop) (n : Node) : Prop :=
  ∀ es, (Node.mapping es).Inside n → p es

variable {p q : List (Node × Node) → Prop}

theorem everyMapping_sequence_iff {items : List Node} :
    (Node.sequence items).EveryMapping p ↔ ∀ n ∈ items, n.EveryMapping p := by
  constructor
  · exact fun h n hn es hes => h es (.item hn hes)
  · intro h es hes
    cases hes with
    | item hn hes => exact h _ hn es hes

theorem everyMapping_mapping_iff {es : List (Node × Node)} :
    (Node.mapping es).EveryMapping p ↔ p es ∧ ∀ e ∈ es, e.2.EveryMapping p := by
  constructor
  · exact fun h => ⟨h es (.self _), fun e he fs hfs => h fs (.entry he hfs)⟩
  · rintro ⟨hes, h⟩ fs hfs
    cases hfs with
    | self => exact hes
    | entry he hfs => exact h _ he fs hfs

theorem everyMapping_tagged_iff {tag : String} {n : Node} :
    (Node.tagged tag n).EveryMapping p ↔ n.EveryMapping p := by
  constructor
  · exact fun h es hes => h es (.under hes)
  · intro h es hes
    cases hes with
    | under hes => exact h es hes

theorem EveryMapping.imp {n : Node} (h : n.EveryMapping p) (hpq : ∀ es, p es → q es) :
    n.EveryMapping q :=
  fun es hes => hpq es (h es hes)

/-! ### Keys -/

/-- Whether a node is a scalar, under any tags. -/
def IsScalar : Node → Prop
  | .sequence _ => False
  | .mapping _ => False
  | .tagged _ n => IsScalar n
  | _ => True

/-- Every key is a scalar. -/
def ScalarKeys (n : Node) : Prop := n.EveryMapping fun es => ∀ e ∈ es, e.1.IsScalar

/-- Every key is a string. -/
def TextKeys (n : Node) : Prop := n.EveryMapping fun es => ∀ e ∈ es, ∃ s, e.1 = .text s

theorem TextKeys.scalarKeys {n : Node} (h : n.TextKeys) : n.ScalarKeys := by
  refine EveryMapping.imp h fun es hes e he => ?_
  obtain ⟨s, hs⟩ := hes e he
  rw [hs]
  trivial

theorem exists_keyText_iff : (k : Node) → ((∃ s, k.keyText = .ok s) ↔ k.IsScalar)
  | .null | .bool _ | .integer _ | .float _ | .text _ => by simp [keyText, IsScalar]
  | .sequence _ | .mapping _ => by simp [keyText, IsScalar]
  | .tagged _ k => by
    rw [keyText, IsScalar]
    exact exists_keyText_iff k

theorem eq_of_keyText_eq_error : (k : Node) → {fault : FormatFault} →
    k.keyText = .error fault → fault = .compoundKey
  | .sequence _, _, h | .mapping _, _, h => by
    cases h
    rfl
  | .tagged _ k, _, h => eq_of_keyText_eq_error k h

end Yaml.Node

namespace Value

open Yaml.Node

/-! ### Values of trees -/

theorem ofItems_eq_mapM (ns : List Node) : ofItems ns = ns.mapM ofNode := by
  induction ns with
  | nil => rfl
  | cons n ns ih =>
    rw [ofItems, List.mapM_cons, ih]
    rfl

theorem ofItems_eq_ok_iff {ns : List Node} {vs : List Value} :
    ofItems ns = .ok vs ↔ List.Forall₂ (fun n v => ofNode n = .ok v) ns vs := by
  rw [ofItems_eq_mapM, Outcome.mapM_eq_ok_iff_forall₂]

/-- The name and the value that an entry of a mapping is turned into. -/
def ofEntry (e : Node × Node) : Except FormatFault (String × Value) := do
  let key ← e.1.keyText
  let v ← ofNode e.2
  .ok (key, v)

theorem ofEntry_eq_ok_iff {e : Node × Node} {p : String × Value} :
    ofEntry e = .ok p ↔ e.1.keyText = .ok p.1 ∧ ofNode e.2 = .ok p.2 := by
  obtain ⟨name, v⟩ := p
  simp only [ofEntry, Outcome.bind_eq_ok_iff, Except.ok.injEq, Prod.mk.injEq]
  constructor
  · rintro ⟨key, hkey, w, hw, rfl, rfl⟩
    exact ⟨hkey, hw⟩
  · rintro ⟨hkey, hv⟩
    exact ⟨name, hkey, v, hv, rfl, rfl⟩

theorem ofEntries_eq_mapM (es : List (Node × Node)) : ofEntries es = es.mapM ofEntry := by
  induction es with
  | nil => rfl
  | cons e es ih =>
    obtain ⟨k, n⟩ := e
    rw [ofEntries, List.mapM_cons, ih, ofEntry]
    cases k.keyText with
    | error fault => rfl
    | ok key => cases ofNode n <;> rfl

theorem ofEntries_eq_ok_iff {es : List (Node × Node)} {pairs : Entries Value} :
    ofEntries es = .ok pairs ↔
      List.Forall₂ (fun e p => e.1.keyText = .ok p.1 ∧ ofNode e.2 = .ok p.2) es pairs := by
  rw [ofEntries_eq_mapM, Outcome.mapM_eq_ok_iff_forall₂]
  simp only [ofEntry_eq_ok_iff]

/-- A tree has a value when all its keys are scalars. -/
theorem exists_ofNode_iff (n : Node) : (∃ v, ofNode n = .ok v) ↔ n.ScalarKeys := by
  induction n using Node.induct with
  | sequence items ih =>
    rw [ofNode, Outcome.exists_map_eq_ok_iff, ofItems_eq_mapM, Outcome.exists_mapM_eq_ok_iff,
      ScalarKeys, everyMapping_sequence_iff]
    exact forall₂_congr ih
  | mapping es _ ih =>
    rw [ofNode, Outcome.exists_map_eq_ok_iff, ofEntries_eq_mapM, Outcome.exists_mapM_eq_ok_iff,
      ScalarKeys, everyMapping_mapping_iff, ← forall₂_and]
    refine forall₂_congr fun e he => ?_
    simp only [ofEntry_eq_ok_iff, Prod.exists, exists_and_left, exists_and_right]
    rw [exists_keyText_iff, ih e he, ScalarKeys]
  | tagged tag n ih =>
    rw [ofNode, ih]
    exact everyMapping_tagged_iff.symm
  | _ => exact iff_of_true ⟨_, rfl⟩ fun es hes => by cases hes

/-- Only a key can keep a tree from having a value. -/
theorem eq_of_ofNode_eq_error (n : Node) {fault : FormatFault} (h : ofNode n = .error fault) :
    fault = .compoundKey := by
  induction n using Node.induct with
  | sequence items ih =>
    rw [ofNode, Outcome.map_eq_error_iff, ofItems_eq_mapM] at h
    obtain ⟨n, hn, h⟩ := Outcome.exists_of_mapM_eq_error h
    exact ih n hn h
  | mapping es _ ih =>
    rw [ofNode, Outcome.map_eq_error_iff, ofEntries_eq_mapM] at h
    obtain ⟨e, he, h⟩ := Outcome.exists_of_mapM_eq_error h
    obtain h | ⟨key, -, h⟩ := Outcome.bind_eq_error_iff.1 h
    · exact eq_of_keyText_eq_error e.1 h
    · obtain h | ⟨v, -, h⟩ := Outcome.bind_eq_error_iff.1 h
      · exact ih e he h
      · cases h
  | tagged tag n ih => exact ih h
  | _ => cases h

end Value
end ComposeMerge
