import ComposeMerge.Proofs.MappingKeys
import ComposeMerge.Proofs.RawForm

/-!
# Values and document trees

A raw value can be turned into a document tree and back, and a document tree into a raw value and
back.

* `Value.same_self_iff`: a value has its own content when no number in it is NaN;
* `Node.Rearranged` relates trees that differ in the order of entries, and `Node.Rearranged.same`
  says that such trees are equal as keys;
* `Node.Expressible` are the trees that a value can stand for;
* `Value.trees_survive_round_trip` puts both ways together.
-/

namespace ComposeMerge

open Entries (Distinct)
open Yaml (Node)

/-! ### Content of values -/

theorem Double.equal_self_iff {x : Double} : x.equal x = true ↔ x.isNaN = false := by
  simp [Double.equal]

namespace Value

/-- No floating point number inside a value is NaN. -/
inductive NoNaN : Value → Prop where
  | scalar {s : Scalar} (h : ∀ x, s = .float x → x.isNaN = false) : NoNaN (.scalar s)
  | sequence {vs : List Value} (h : ∀ v ∈ vs, NoNaN v) : NoNaN (.sequence vs)
  | mapping {es : Entries Value} (h : ∀ e ∈ es, NoNaN e.2) : NoNaN (.mapping es)

theorem noNaN_scalar_iff {s : Scalar} :
    (Value.scalar s).NoNaN ↔ ∀ x, s = .float x → x.isNaN = false := by
  refine ⟨fun h => ?_, .scalar⟩
  cases h with
  | scalar h => exact h

theorem noNaN_sequence_iff {vs : List Value} :
    (Value.sequence vs).NoNaN ↔ ∀ v ∈ vs, v.NoNaN := by
  refine ⟨fun h => ?_, .sequence⟩
  cases h with
  | sequence h => exact h

theorem noNaN_mapping_iff {es : Entries Value} :
    (Value.mapping es).NoNaN ↔ ∀ e ∈ es, e.2.NoNaN := by
  refine ⟨fun h => ?_, .mapping⟩
  cases h with
  | mapping h => exact h

mutual

/-- A value has its own content when no number in it is NaN. -/
theorem same_self_iff : (v : Value) → (v.same v = true ↔ v.NoNaN)
  | .scalar s => by
    rw [same, noNaN_scalar_iff]
    cases s with
    | float x => simp [Scalar.same, Double.equal_self_iff]
    | _ => simp [Scalar.same]
  | .sequence vs => by
    rw [same, noNaN_sequence_iff]
    exact sameItems_self_iff vs
  | .mapping es => by
    rw [same, noNaN_mapping_iff]
    exact sameEntries_self_iff es

theorem sameItems_self_iff : (vs : List Value) → (sameItems vs vs = true ↔ ∀ v ∈ vs, v.NoNaN)
  | [] => by simp [sameItems]
  | v :: vs => by
    rw [sameItems, Bool.and_eq_true, same_self_iff v, sameItems_self_iff vs, List.forall_mem_cons]

theorem sameEntries_self_iff :
    (es : List (String × Value)) → (sameEntries es es = true ↔ ∀ e ∈ es, e.2.NoNaN)
  | [] => by simp [sameEntries]
  | (k, v) :: es => by
    rw [sameEntries, List.forall_mem_cons, ← same_self_iff v, ← sameEntries_self_iff es]
    simp

end

theorem toItems_eq_map (vs : List Value) : toItems vs = vs.map toNode := by
  induction vs with
  | nil => rfl
  | cons v vs ih => rw [toItems, ih, List.map_cons]

theorem toEntries_eq_map (es : List (String × Value)) :
    toEntries es = es.map fun e => (.text e.1, toNode e.2) := by
  induction es with
  | nil => rfl
  | cons e es ih =>
    obtain ⟨k, v⟩ := e
    rw [toEntries, ih, List.map_cons]

end Value

/-! ### Trees up to the order of entries -/

namespace Yaml.Node

theorem sameFloat_self (x : Double) : sameFloat x x = true := by
  simp [sameFloat, Double.equal]

theorem sameItems_iff {as bs : List Node} :
    sameItems as bs = true ↔ List.Forall₂ (fun a b => a.same b = true) as bs := by
  induction as generalizing bs with
  | nil => cases bs <;> simp [sameItems]
  | cons a as ih =>
    cases bs with
    | nil => simp [sameItems]
    | cons b bs => rw [sameItems, Bool.and_eq_true, ih, List.forall₂_cons]

theorem includes_iff {es fs : List (Node × Node)} :
    includes es fs = true ↔ ∀ e ∈ es, ∃ f ∈ fs, e.1.same f.1 = true ∧ e.2.same f.2 = true := by
  induction es with
  | nil => simp [includes]
  | cons e es ih =>
    obtain ⟨k, v⟩ := e
    rw [includes, Bool.and_eq_true, ih, List.forall_mem_cons]
    simp

theorem same_self (n : Node) : n.same n = true := by
  induction n using Node.induct with
  | null => rfl
  | bool b => simp [same]
  | integer i => simp [same]
  | float x => exact sameFloat_self x
  | text s => simp [same]
  | sequence items ih => exact sameItems_iff.2 (List.forall₂_same.2 ih)
  | mapping es ihkeys ihvalues =>
    rw [same, Bool.and_eq_true]
    exact ⟨by simp, includes_iff.2 fun e he => ⟨e, he, ihkeys e he, ihvalues e he⟩⟩
  | tagged tag n ih =>
    rw [same, Bool.and_eq_true]
    exact ⟨by simp, ih⟩

/-- Two trees are equal up to the order of the entries of mappings. -/
inductive Rearranged : Node → Node → Prop where
  | refl (n : Node) : Rearranged n n
  | sequence {as bs : List Node} (h : List.Forall₂ Rearranged as bs) :
      Rearranged (.sequence as) (.sequence bs)
  | mapping {es fs gs : List (Node × Node)} (hkeys : List.Forall₂ (fun e f => e.1 = f.1) es fs)
      (hvalues : List.Forall₂ (fun e f => Rearranged e.2 f.2) es fs) (hperm : fs.Perm gs) :
      Rearranged (.mapping es) (.mapping gs)

/-- Trees that differ in the order of entries are equal as keys. -/
theorem Rearranged.same {n m : Node} (h : n.Rearranged m) : n.same m = true := by
  induction n using Node.induct generalizing m with
  | sequence items ih =>
    cases h with
    | refl => exact same_self _
    | sequence h =>
      exact sameItems_iff.2 (forall₂_imp_of_mem h fun a ha b hab => ih a ha hab)
  | mapping es _ ih =>
    cases h with
    | refl => exact same_self _
    | @mapping _ fs gs hkeys hvalues hperm =>
      rw [Node.same, Bool.and_eq_true, decide_eq_true_iff]
      refine ⟨hkeys.length_eq.trans hperm.length_eq, includes_iff.2 fun e he => ?_⟩
      have hentries : List.Forall₂ (fun e f => e.1 = f.1 ∧ e.2.Rearranged f.2) es fs :=
        List.Forall₂.mp (fun _ _ => And.intro) hkeys hvalues
      obtain ⟨f, hf, hkey, hvalue⟩ := exists_of_mem_forall₂ hentries he
      exact ⟨f, hperm.mem_iff.1 hf, by rw [← hkey, same_self], ih e he hvalue⟩
  | _ =>
    cases h with
    | refl => exact same_self _

/-! ### Trees that values stand for -/

theorem Inside.trans {l m n : Node} (hlm : l.Inside m) (hmn : m.Inside n) : l.Inside n := by
  induction hmn with
  | self => exact hlm
  | item hn _ ih => exact .item hn ih
  | entry he _ ih => exact .entry he ih
  | under _ ih => exact .under ih

/-- The trees that a value can stand for. Keys of a mapping are different in every document. -/
structure Expressible (n : Node) : Prop where
  /-- No node has a tag. -/
  untagged : ∀ tag m, ¬(Node.tagged tag m).Inside n
  /-- Integers have at most 64 bits with the sign. -/
  fits : ∀ i, (Node.integer i).Inside n → -2 ^ 63 ≤ i ∧ i < 2 ^ 63
  textKeys : n.TextKeys
  distinctKeys : n.DistinctKeys

theorem Expressible.of_inside {m n : Node} (h : n.Expressible) (hm : m.Inside n) :
    m.Expressible where
  untagged tag l hl := h.untagged tag l (hl.trans hm)
  fits i hi := h.fits i (hi.trans hm)
  textKeys es hes := h.textKeys es (hes.trans hm)
  distinctKeys es hes := h.distinctKeys es (hes.trans hm)

/-- Different keys that are strings are different names. -/
theorem Expressible.distinctNames {n : Node} (h : n.Expressible) : n.DistinctNames := by
  intro es hes
  refine List.Pairwise.imp_of_mem (fun {a b} ha hb hne heq => ?_) (h.distinctKeys es hes)
  obtain ⟨s, hs⟩ := h.textKeys es hes a ha
  obtain ⟨t, ht⟩ := h.textKeys es hes b hb
  rw [hs, ht] at hne heq
  cases heq
  exact absurd hne (by simp [same_self])

end Yaml.Node

theorem Scalar.ofInteger_of_fits {i : Int} (h : -2 ^ 63 ≤ i ∧ i < 2 ^ 63) :
    Scalar.ofInteger i = .int (Int64.ofInt i) :=
  if_pos h

namespace Value

open Yaml.Node

/-- What an integer is turned into is turned into that integer. -/
theorem toNode_ofInteger {i : Int} (h : -2 ^ 63 ≤ i ∧ i < 2 ^ 63) :
    toNode (.scalar (.ofInteger i)) = .integer i := by
  rw [Scalar.ofInteger_of_fits h, toNode, scalarNode, Int64.toInt_ofInt_of_le h.1 h.2]

/-- The tree of the value of a tree is that tree with its entries in another order. -/
theorem rearranged_of_ofNode (n : Node) (h : n.Expressible) {v : Value} (hv : ofNode n = .ok v) :
    n.Rearranged v.toNode := by
  induction n using Node.induct generalizing v with
  | null | bool | float | text =>
    cases hv
    exact .refl _
  | integer i =>
    cases hv
    rw [toNode_ofInteger (h.fits i (.self _))]
    exact .refl _
  | sequence items ih =>
    rw [ofNode] at hv
    obtain ⟨vs, hvs, rfl⟩ := Outcome.map_eq_ok_iff.1 hv
    have hitems : ∀ m ∈ items, m.Expressible := fun m hm => h.of_inside (.item hm (.self m))
    rw [toNode, toItems_eq_map]
    refine .sequence (List.forall₂_map_right_iff.2 ?_)
    exact forall₂_imp_of_mem (ofItems_eq_ok_iff.1 hvs) fun m hm w hw => ih m hm (hitems m hm) hw
  | mapping es _ ih =>
    rw [ofNode] at hv
    obtain ⟨pairs, hpairs, rfl⟩ := Outcome.map_eq_ok_iff.1 hv
    have hvalues : ∀ e ∈ es, e.2.Expressible := fun e he => h.of_inside (.entry he (.self e.2))
    -- Different keys are different names, so that no entry is lost when they are put in order.
    have hdistinct : Distinct pairs :=
      (distinct_iff_of_ofEntries hpairs).2 (h.distinctNames es (.self _))
    rw [toNode, toEntries_eq_map]
    have hentries := ofEntries_eq_ok_iff.1 hpairs
    refine .mapping ?_ ?_ ((Entries.perm_ofList hdistinct).symm.map _)
    · refine List.forall₂_map_right_iff.2 (forall₂_imp_of_mem hentries fun e he p hp => ?_)
      obtain ⟨s, hs⟩ := h.textKeys es (.self _) e he
      obtain ⟨hkey, -⟩ := hp
      rw [hs] at hkey ⊢
      cases hkey
      rfl
    · refine List.forall₂_map_right_iff.2 (forall₂_imp_of_mem hentries fun e he p hp => ?_)
      exact ih e he (hvalues e he) hp.2
  | tagged tag n => exact absurd (.self _) (h.untagged tag n)

/-- **Values and trees survive the round trip.** A value that is turned into a tree and back is the
same value, with the same content if no number in it is NaN. A tree without tags, whose keys are
different strings and whose integers fit in 64 bits, has a value, and the tree of that value
differs from it only in the order of entries. -/
theorem trees_survive_round_trip :
    (∀ v : Value, v.Canonical → ofNode v.toNode = .ok v ∧ (v.same v = true ↔ v.NoNaN)) ∧
    ∀ n : Node, n.Expressible →
      ∃ v, ofNode n = .ok v ∧ n.Rearranged v.toNode ∧ n.same v.toNode = true := by
  constructor
  · intro v hv
    refine ⟨?_, same_self_iff v⟩
    rw [ofNode_toNode, hv.canonical_eq]
  · intro n hn
    obtain ⟨v, hv⟩ := (exists_ofNode_iff n).2 hn.textKeys.scalarKeys
    have hrearranged := rearranged_of_ofNode n hn hv
    exact ⟨v, hv, hrearranged, hrearranged.same⟩

/-- An integer, an equal floating point number and the string of its digits, under keys that are
not in order. -/
def lookalikes : Node :=
  .mapping [(.text "b", .integer 1), (.text "a", .float (.ofRatio false 1 1)),
    (.text "c", .text "1")]

theorem expressible_lookalikes : lookalikes.Expressible := by
  have hinside : ∀ m, m.Inside lookalikes →
      m = lookalikes ∨ m = .integer 1 ∨ m = .float (.ofRatio false 1 1) ∨ m = .text "1" := by
    intro m hm
    cases hm with
    | self => exact .inl rfl
    | entry he hm =>
      simp only [List.mem_cons, List.not_mem_nil, or_false] at he
      rcases he with rfl | rfl | rfl <;> cases hm <;> simp
  have hmapping : ∀ es, (Node.mapping es).Inside lookalikes → Node.mapping es = lookalikes := by
    intro es hes
    simpa using hinside _ hes
  constructor
  case untagged =>
    intro tag m hm
    simpa [lookalikes] using hinside _ hm
  case fits =>
    intro i hi
    have heq : i = 1 := by simpa [lookalikes] using hinside _ hi
    omega
  case textKeys =>
    intro es hes
    cases hmapping es hes
    simp
  case distinctKeys =>
    intro es hes
    cases hmapping es hes
    decide

/-- The three are kept apart. -/
theorem lookalikes_survive :
    lookalikes.Expressible ∧ ∃ v, ofNode lookalikes = .ok v ∧ lookalikes.Rearranged v.toNode ∧
      v.Canonical ∧ v.NoNaN ∧ ofNode v.toNode = .ok v ∧ v.same v = true := by
  obtain ⟨hvalues, htrees⟩ := trees_survive_round_trip
  obtain ⟨v, hv, hrearranged, -⟩ := htrees lookalikes expressible_lookalikes
  have hcanonical : v.Canonical := canonical_ofNode _ hv
  have hnoNaN : v.NoNaN := by
    cases hv
    refine noNaN_mapping_iff.2 fun e he => ?_
    have hmem := mem_ofList he
    simp only [List.mem_cons, List.not_mem_nil, or_false] at hmem
    rcases hmem with rfl | rfl | rfl
    · exact noNaN_scalar_iff.2 fun x hx => by cases hx
    · refine noNaN_scalar_iff.2 fun x hx => ?_
      cases hx
      decide
    · exact noNaN_scalar_iff.2 fun x hx => by cases hx
  obtain ⟨hback, hsame⟩ := hvalues v hcanonical
  exact ⟨expressible_lookalikes, v, hv, hrearranged, hcanonical, hnoNaN, hback, hsame.2 hnoNaN⟩

end Value
end ComposeMerge
