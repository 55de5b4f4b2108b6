import ComposeMerge.Proofs.DocumentTrees
import ComposeMerge.Yaml.Reading

/-!
# Keys of mappings as names

The keys of a mapping of a document become the names of its entries. Keys that the document tells
apart can become the same name, and then only the last of their entries is kept.

* `Value.Keeps` says that a value has all entries of a document tree;
* `Value.keeps_iff_distinctNames` says when it does: when the keys of each mapping become different
  names;
* `Node.keyText_eq_iff` says which keys become the same name;
* `Value.entries_kept_iff` puts this together.
-/

namespace ComposeMerge

open Entries (get? Distinct)
open Yaml (Node)

/-! ### Names of keys -/

namespace Yaml.Node

/-- The keys of each mapping are different nodes. -/
def DistinctKeys (n : Node) : Prop :=
  n.EveryMapping fun es => es.Pairwise fun a b => a.1.same b.1 = false

/-- The keys of each mapping become different names. -/
def DistinctNames (n : Node) : Prop :=
  n.EveryMapping fun es => es.Pairwise fun a b => a.1.keyText ≠ b.1.keyText

/-- Whether a key is null, a truth value or an integer. -/
def IsLiteral : Node → Prop
  | .null | .bool _ | .integer _ => True
  | _ => False

theorem IsLiteral.isScalar {k : Node} (h : k.IsLiteral) : k.IsScalar := by
  cases k with
  | null | bool | integer => trivial
  | _ => cases h

/-- The key of this kind that becomes a name. -/
def ofName? (name : String) : Option Node :=
  if name = "" then some .null
  else if name = "true" then some (.bool true)
  else if name = "false" then some (.bool false)
  else name.toInt?.map .integer

theorem ofName?_of_keyText {k : Node} {name : String} (hk : k.IsLiteral)
    (h : k.keyText = .ok name) : ofName? name = some k := by
  cases k with
  | null =>
    cases h
    rfl
  | bool b =>
    cases h
    cases b <;> rfl
  | integer n =>
    cases h
    have hint : (toString n).toInt? = some n := Int.toInt?_repr n
    -- The other names are not read as integers.
    have hne : ∀ other : String, other.toInt? = none → toString n ≠ other := by
      rintro other hother rfl
      rw [hint] at hother
      cases hother
    rw [ofName?, if_neg (hne "" (by cbv)), if_neg (hne "true" (by cbv)),
      if_neg (hne "false" (by cbv)), hint]
    rfl
  | _ => cases hk

/-- Two different keys of these kinds become the same name only if one of them is this name. -/
theorem keyText_eq_iff {k l : Node} (hk : k.IsLiteral ∨ ∃ s, k = .text s)
    (hl : l.IsLiteral ∨ ∃ s, l = .text s) :
    k.keyText = l.keyText ↔
      k = l ∨ (∃ s, k = .text s ∧ l.keyText = .ok s) ∨ ∃ s, l = .text s ∧ k.keyText = .ok s := by
  constructor
  · intro h
    rcases hk with hk | ⟨s, rfl⟩
    · rcases hl with hl | ⟨s, rfl⟩
      · obtain ⟨name, hname⟩ := (exists_keyText_iff k).2 hk.isScalar
        have hlname := ofName?_of_keyText hl (h ▸ hname)
        rw [ofName?_of_keyText hk hname] at hlname
        exact .inl (Option.some.inj hlname)
      · exact .inr (.inr ⟨s, rfl, h⟩)
    · exact .inr (.inl ⟨s, rfl, h.symm⟩)
  · rintro (rfl | ⟨s, rfl, h⟩ | ⟨s, rfl, h⟩)
    · rfl
    · exact h.symm
    · exact h

end Yaml.Node

namespace Value

open Yaml.Node

/-! ### Entries that are kept -/

/-- A value keeps what a document tree has: a mapping has as many entries as the one that it comes
from, and under the name of each key a value that keeps its node. -/
inductive Keeps : Node → Value → Prop where
  | null : Keeps .null .null
  | bool (b : Bool) : Keeps (.bool b) (.scalar (.bool b))
  | integer (n : Int) : Keeps (.integer n) (.scalar (.ofInteger n))
  | float (x : Double) : Keeps (.float x) (.scalar (.float x))
  | text (s : String) : Keeps (.text s) (.string s)
  | sequence {items : List Node} {vs : List Value} (h : List.Forall₂ Keeps items vs) :
      Keeps (.sequence items) (.sequence vs)
  | mapping {es : List (Node × Node)} {fs : Entries Value} (hlength : fs.length = es.length)
      (hfound : ∀ e ∈ es, ∃ name v, e.1.keyText = .ok name ∧ get? name fs = some v)
      (hvalues : ∀ e ∈ es, ∀ name v, e.1.keyText = .ok name → get? name fs = some v →
        Keeps e.2 v) : Keeps (.mapping es) (.mapping fs)
  | tagged {tag : String} {n : Node} {v : Value} (h : Keeps n v) : Keeps (.tagged tag n) v

theorem map_keyText_eq {es : List (Node × Node)} {pairs : Entries Value}
    (h : List.Forall₂ (fun e p => e.1.keyText = .ok p.1 ∧ ofNode e.2 = .ok p.2) es pairs) :
    es.map (fun e => e.1.keyText) = pairs.map fun p => .ok p.1 := by
  induction h with
  | nil => rfl
  | cons hp _ ih => rw [List.map_cons, List.map_cons, hp.1, ih]

/-- The pairs have different names when the keys have. -/
theorem distinct_iff_of_ofEntries {es : List (Node × Node)} {pairs : Entries Value}
    (h : ofEntries es = .ok pairs) :
    Distinct pairs ↔ es.Pairwise fun a b => a.1.keyText ≠ b.1.keyText := by
  have hkeys : (es.Pairwise fun a b => a.1.keyText ≠ b.1.keyText) ↔
      (es.map fun e => e.1.keyText).Pairwise (· ≠ ·) := List.pairwise_map.symm
  rw [hkeys, map_keyText_eq (ofEntries_eq_ok_iff.1 h), List.pairwise_map]
  simp [Distinct]

/-- What becomes of an entry among entries of different names. -/
theorem exists_entry_of_mem {es : List (Node × Node)} {pairs : Entries Value}
    (h : ofEntries es = .ok pairs) (hdistinct : Distinct pairs) {e : Node × Node} (he : e ∈ es) :
    ∃ name v, e.1.keyText = .ok name ∧ ofNode e.2 = .ok v ∧
      get? name (Entries.ofList pairs) = some v := by
  obtain ⟨⟨name, v⟩, hp, hname, hv⟩ := exists_of_mem_forall₂ (ofEntries_eq_ok_iff.1 h) he
  refine ⟨name, v, hname, hv, ?_⟩
  rw [Entries.get?_ofList hdistinct, Entries.get?_eq_some_iff hdistinct]
  exact hp

/-- What is found under a name, among the entries in reverse. -/
theorem get?_of_forall₂ {es : List (Node × Node)} {pairs : Entries Value}
    (h : List.Forall₂ (fun e p => e.1.keyText = .ok p.1 ∧ ofNode e.2 = .ok p.2) es pairs)
    (name : String) (v : Value) :
    get? name pairs = some v ↔ ∃ before e after, es = before ++ e :: after ∧
      e.1.keyText = .ok name ∧ ofNode e.2 = .ok v ∧ ∀ a ∈ before, a.1.keyText ≠ .ok name := by
  induction h with
  | nil => simp
  | @cons e p es pairs hp _ ih =>
    obtain ⟨k, w⟩ := p
    obtain ⟨hkey, hw⟩ := hp
    rw [Entries.get?_cons]
    by_cases hk : k = name
    · subst hk
      rw [if_pos rfl]
      constructor
      · intro hv
        cases hv
        exact ⟨[], e, es, rfl, hkey, hw, by simp⟩
      · rintro ⟨before, e', after, hsplit, hkey', hv, hbefore⟩
        cases before with
        | nil =>
          cases hsplit
          cases hw.symm.trans hv
          rfl
        | cons b before =>
          cases hsplit
          exact absurd hkey (hbefore e (by simp))
    · rw [if_neg hk, ih]
      have hne : e.1.keyText ≠ .ok name := by
        rw [hkey]
        simpa using hk
      constructor
      · rintro ⟨before, e', after, rfl, hkey', hv, hbefore⟩
        exact ⟨e :: before, e', after, rfl, hkey', hv, List.forall_mem_cons.2 ⟨hne, hbefore⟩⟩
      · rintro ⟨before, e', after, hsplit, hkey', hv, hbefore⟩
        cases before with
        | nil =>
          cases hsplit
          exact absurd hkey' hne
        | cons b before =>
          cases hsplit
          exact ⟨before, e', after, rfl, hkey', hv, fun a ha => hbefore a (by simp [ha])⟩

/-- Of several entries whose keys become one name the last is kept. -/
theorem get?_of_ofNode {es : List (Node × Node)} {fs : Entries Value}
    (h : ofNode (.mapping es) = .ok (.mapping fs)) (name : String) (v : Value) :
    get? name fs = some v ↔ ∃ before e after, es = before ++ e :: after ∧
      e.1.keyText = .ok name ∧ ofNode e.2 = .ok v ∧ ∀ a ∈ after, a.1.keyText ≠ .ok name := by
  rw [ofNode] at h
  obtain ⟨pairs, hpairs, hfs⟩ := Outcome.map_eq_ok_iff.1 h
  cases hfs
  have hreverse := List.forall₂_reverse_iff.2 (ofEntries_eq_ok_iff.1 hpairs)
  rw [Entries.get?_ofList_eq_reverse, get?_of_forall₂ hreverse]
  constructor
  · rintro ⟨before, e, after, hsplit, hkey, hv, hbefore⟩
    refine ⟨after.reverse, e, before.reverse, ?_, hkey, hv, by simpa using hbefore⟩
    rw [← List.reverse_reverse es, hsplit]
    simp
  · rintro ⟨before, e, after, rfl, hkey, hv, hafter⟩
    exact ⟨after.reverse, e, before.reverse, by simp, hkey, hv, by simpa using hafter⟩

/-- A value keeps the entries of its tree when the keys of each mapping become different names. -/
theorem keeps_iff_distinctNames (n : Node) {v : Value} (h : ofNode n = .ok v) :
    Keeps n v ↔ n.DistinctNames := by
  induction n using Node.induct generalizing v with
  | sequence items ih =>
    rw [ofNode] at h
    obtain ⟨vs, hvs, rfl⟩ := Outcome.map_eq_ok_iff.1 h
    have hitems : List.Forall₂ Keeps items vs ↔ ∀ n ∈ items, n.DistinctNames :=
      forall₂_iff_of_forall₂ (ofItems_eq_ok_iff.1 hvs) fun n hn v hv => ih n hn hv
    rw [DistinctNames, everyMapping_sequence_iff]
    refine Iff.trans ⟨fun hkeeps => ?_, .sequence⟩ hitems
    cases hkeeps with
    | sequence hkeeps => exact hkeeps
  | mapping es _ ih =>
    rw [ofNode] at h
    obtain ⟨pairs, hpairs, rfl⟩ := Outcome.map_eq_ok_iff.1 h
    have hlength : pairs.length = es.length := (ofEntries_eq_ok_iff.1 hpairs).length_eq.symm
    rw [DistinctNames, everyMapping_mapping_iff, ← distinct_iff_of_ofEntries hpairs]
    constructor
    · intro hkeeps
      cases hkeeps with
      | mapping hkept _ hvalues =>
        have hdistinct := Entries.length_ofList_eq_iff.1 (hkept.trans hlength.symm)
        refine ⟨hdistinct, fun e he => ?_⟩
        obtain ⟨name, v, hname, hv, hget⟩ := exists_entry_of_mem hpairs hdistinct he
        exact (ih e he hv).1 (hvalues e he name v hname hget)
    · rintro ⟨hdistinct, hvalues⟩
      refine .mapping ((Entries.length_ofList_eq_iff.2 hdistinct).trans hlength)
        (fun e he => ?_) fun e he name v hname hget => ?_
      · obtain ⟨name, v, hname, -, hget⟩ := exists_entry_of_mem hpairs hdistinct he
        exact ⟨name, v, hname, hget⟩
      · obtain ⟨name', v', hname', hv', hget'⟩ := exists_entry_of_mem hpairs hdistinct he
        cases hname.symm.trans hname'
        cases hget.symm.trans hget'
        exact (ih e he hv').2 (hvalues e he)
  | tagged tag n ih =>
    rw [DistinctNames, everyMapping_tagged_iff, ← DistinctNames, ← ih h]
    constructor
    · intro hkeeps
      cases hkeeps with
      | tagged hkeeps => exact hkeeps
    · exact .tagged
  | _ =>
    cases h
    refine iff_of_true ?_ fun es hes => by cases hes
    constructor

/-- **Entries are kept when their names are different.** A document tree has a value just when all
its keys are scalars. The value keeps all entries just when the keys of each mapping become
different names; of entries with one name only the last is found. Two different keys that are
strings, integers, truth values or null become one name just when one of them is the text of the
other. -/
theorem entries_kept_iff (n : Node) :
    ((∃ v, ofNode n = .ok v) ↔ n.ScalarKeys) ∧
    (ofNode n = .error .compoundKey ↔ ¬n.ScalarKeys) ∧
    (∀ v, ofNode n = .ok v → (Keeps n v ↔ n.DistinctNames)) ∧
    (∀ es fs, ofNode (.mapping es) = .ok (.mapping fs) → ∀ name v,
      get? name fs = some v ↔ ∃ before e after, es = before ++ e :: after ∧
        e.1.keyText = .ok name ∧ ofNode e.2 = .ok v ∧ ∀ a ∈ after, a.1.keyText ≠ .ok name) ∧
    ∀ k l : Node, (k.IsLiteral ∨ ∃ s, k = .text s) → (l.IsLiteral ∨ ∃ s, l = .text s) → k ≠ l →
      (k.keyText = l.keyText ↔
        (∃ s, k = .text s ∧ l.keyText = .ok s) ∨ ∃ s, l = .text s ∧ k.keyText = .ok s) := by
  refine ⟨exists_ofNode_iff n, ?_, fun v => keeps_iff_distinctNames n,
    fun es fs => get?_of_ofNode, fun k l hk hl hne => ?_⟩
  · rw [← exists_ofNode_iff]
    constructor
    · rintro h ⟨v, hv⟩
      rw [h] at hv
      cases hv
    · intro hnone
      cases h : ofNode n with
      | error fault => rw [eq_of_ofNode_eq_error n h]
      | ok v => exact absurd ⟨v, h⟩ hnone
  · rw [keyText_eq_iff hk hl]
    exact or_iff_right hne

/-- A mapping with a number and the string of its digits as keys. -/
def numberBesideDigits : Node := .mapping [(.integer 1, .text "a"), (.text "1", .text "b")]

/-- The keys are different, and the first entry is lost. -/
theorem entry_lost_beside_digits :
    numberBesideDigits.DistinctKeys ∧
      ofNode numberBesideDigits = .ok (.mapping [("1", .string "b")]) ∧
      ¬Keeps numberBesideDigits (.mapping [("1", .string "b")]) := by
  have hvalue : ofNode numberBesideDigits = .ok (.mapping [("1", .string "b")]) := by
    rfl
  refine ⟨?_, hvalue, fun hkeeps => ?_⟩
  · refine everyMapping_mapping_iff.2 ⟨by decide, fun e he es hes => ?_⟩
    rcases List.mem_pair.1 he with rfl | rfl <;> cases hes
  · cases hkeeps with
    | mapping hlength => cases hlength

end Value
end ComposeMerge
