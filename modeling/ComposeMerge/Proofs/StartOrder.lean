import ComposeMerge.Proofs.Search

/-!
# Start orders

The start order of services is found whenever there is one.

* `Graph.Sorts` says what an order is, and `Graph.sorts_of_startOrder` that the result is one;
* `Graph.exists_startOrder_iff`: there is a result just when the graph has no cycles, and
  `Graph.transGen_of_startOrder`: otherwise the service that is named lies on one;
* `Graph.culprit_on_cycle` says this of graphs made by any changes;
* `order_iff_acyclic` says this of stored services and their references.
-/

namespace ComposeMerge
namespace Dependency

open Relation (TransGen)

namespace Graph

variable {g : Graph} {order : List String}

/-- The services in an order in which each one comes after those that precede it. -/
structure Sorts (order : List String) (g : Graph) : Prop where
  perm : order.Perm g.services
  loopless : ∀ a ∈ order, ¬ g.Precedes a a
  ordered : order.Pairwise fun a b => ¬ g.Precedes b a

theorem Sorts.idxOf_lt (h : Sorts order g) (hg : g.WellFormed) {a b : String}
    (hab : g.Precedes a b) : order.idxOf a < order.idxOf b := by
  have ha := h.perm.symm.subset (hg.dependency_mem hab)
  have hb := h.perm.symm.subset (hg.dependent_mem hab)
  have hne : order.idxOf a ≠ order.idxOf b := by
    intro heq
    have hsame : a = b := (List.idxOf_inj ha).1 heq
    subst hsame
    exact h.loopless a ha hab
  -- Were `b` first, the order would forbid what is assumed.
  by_contra hnot
  have hlt : order.idxOf b < order.idxOf a := by omega
  have hpair := List.pairwise_iff_getElem.1 h.ordered _ _ (List.idxOf_lt_length_of_mem hb)
    (List.idxOf_lt_length_of_mem ha) hlt
  rw [List.getElem_idxOf, List.getElem_idxOf] at hpair
  exact hpair hab

theorem Sorts.acyclic (h : Sorts order g) (hg : g.WellFormed) : g.Acyclic := by
  have hlt : ∀ {a b}, TransGen g.Precedes a b → order.idxOf a < order.idxOf b := by
    intro a b hab
    induction hab with
    | single hab => exact h.idxOf_lt hg hab
    | tail _ hbc ih => exact ih.trans (h.idxOf_lt hg hbc)
  exact fun a ha => lt_irrefl _ (hlt ha)

/-- The first pass is a search from all services. -/
theorem search_of_finished (hg : g.WellFormed) {unmet finished : List String}
    (h : discoverAll g g.services (g.services, []) = .ok (unmet, finished)) :
    Search g g.services [] g.services unmet finished :=
  search_of_discoverAll (.start hg.nodup) (fun _ hx => .inl hx) h

/-- What the first pass finishes is every service, once. -/
theorem perm_of_search (hg : g.WellFormed) {unmet finished : List String}
    (h : Search g g.services [] g.services unmet finished) : finished.Perm g.services := by
  have hprogress := h.progress (.start hg.nodup)
  refine (List.perm_ext_iff_of_nodup hprogress.nodup_finished hg.nodup).2 fun x => ?_
  rw [h.mem_finished_iff hg.nodup]
  constructor
  · rintro (hx | ⟨hx, -⟩)
    · cases hx
    · exact hx
  · exact fun hx => .inr ⟨hx, h.not_mem_of_mem_stack hg.nodup hx⟩

/-- A start order sorts the services. -/
theorem sorts_of_startOrder (hg : g.WellFormed) (h : g.startOrder = .ok order) :
    Sorts order g := by
  unfold startOrder at h
  split at h
  · cases h
  · next unmet finished hfound =>
    split at h
    · cases h
    · next hretrace =>
      cases h
      have hsearch := search_of_finished hg hfound
      have hperm := perm_of_search hg hsearch
      exact ⟨hperm, (hsearch.progress (.start hg.nodup)).loopless,
        (retraceAll_eq_none_iff hperm).1 hretrace⟩

/-- Without cycles there is a start order. -/
theorem startOrder_of_acyclic (hg : g.WellFormed) (hacyclic : g.Acyclic) :
    ∃ order, g.startOrder = .ok order := by
  unfold startOrder
  split
  · next culprit hfound => exact absurd (.single (precedes_of_discoverAll hfound)) (hacyclic culprit)
  · next unmet finished hfound =>
    have hsearch := search_of_finished hg hfound
    have hordered := hsearch.ordered hacyclic (.start hg.nodup) .nil
    rw [(retraceAll_eq_none_iff (perm_of_search hg hsearch)).2 hordered]
    exact ⟨finished, rfl⟩

/-- There is a start order just when there is no cycle. -/
theorem exists_startOrder_iff (hg : g.WellFormed) :
    (∃ order, g.startOrder = .ok order) ↔ g.Acyclic :=
  ⟨fun ⟨_, h⟩ => (sorts_of_startOrder hg h).acyclic hg, startOrder_of_acyclic hg⟩

/-- The service that is named when there is no start order precedes itself: it is met by the second
pass right after one that it precedes, and the first pass had listed these the other way round. -/
theorem transGen_of_startOrder (hg : g.WellFormed) {culprit : String}
    (h : g.startOrder = .error culprit) : TransGen g.Precedes culprit culprit := by
  unfold startOrder at h
  split at h
  · next hfound =>
    cases h
    exact .single (precedes_of_discoverAll hfound)
  · next unmet finished hfound =>
    split at h
    · next hretrace =>
      cases h
      have hsearch := search_of_finished hg hfound
      obtain ⟨name, hprecedes, hsublist⟩ :=
        precedes_of_retraceAll (perm_of_search hg hsearch) hretrace
      have hback := (hsearch.backward (.start hg.nodup) .nil).sublist hsublist
      exact .head hprecedes (List.pairwise_pair.1 hback hprecedes)
    · cases h

/-! ### Cycles -/

/-- **Cycles.** In a graph made by any changes, there is no start order just when the recorded
dependencies have a cycle, be it that of a service which needs itself. The service that the error
names is on such a cycle. -/
theorem culprit_on_cycle (changes : List Change) :
    ((∃ e, (ofChanges changes).order = .error e) ↔ ∃ s, TransGen (Recorded changes) s s) ∧
      ∀ e, (ofChanges changes).order = .error e →
        ∃ s, e = .project (.cycle s) ∧ TransGen (Recorded changes) s s := by
  have hg := wellFormed_ofChanges changes
  have hculprit : ∀ e, (ofChanges changes).order = .error e →
      ∃ s, e = .project (.cycle s) ∧ TransGen (Recorded changes) s s := by
    intro e he
    unfold order at he
    cases horder : (ofChanges changes).startOrder with
    | ok names =>
      rw [horder] at he
      cases he
    | error culprit =>
      rw [horder] at he
      cases he
      exact ⟨culprit, rfl, precedes_ofChanges changes ▸ transGen_of_startOrder hg horder⟩
  refine ⟨⟨fun ⟨e, he⟩ => ?_, fun ⟨s, hs⟩ => ?_⟩, hculprit⟩
  · obtain ⟨s, -, hs⟩ := hculprit e he
    exact ⟨s, hs⟩
  · cases horder : (ofChanges changes).startOrder with
    | ok names =>
      rw [← precedes_ofChanges changes] at hs
      exact absurd hs ((exists_startOrder_iff hg).1 ⟨names, horder⟩ s)
    | error culprit => exact ⟨_, by rw [order, horder]; rfl⟩

end Graph

/-! ### Services -/

/-- **Start orders.** There is a start order just when no service needs itself through others. It
lists every stored service once, and each one after those that it needs. Otherwise the error names
a service. -/
theorem order_iff_acyclic (services : Services) :
    ((∃ order, (Graph.ofServices services).order = .ok order) ↔
        ∀ s, ¬ TransGen (Needs services) s s) ∧
      (∀ order, (Graph.ofServices services).order = .ok order →
        order.Nodup ∧ (∀ name, name ∈ order ↔ services.contains name = true) ∧
          ∀ d s, Needs services d s → order.idxOf d < order.idxOf s) ∧
      ((∃ s, TransGen (Needs services) s s) →
        ∃ s, (Graph.ofServices services).order = .error (.project (.cycle s))) := by
  have hrecords := Graph.records_ofServices services
  have hprecedes := Graph.precedes_ofServices services
  have horder : ∀ {order}, (Graph.ofServices services).order = .ok order ↔
      (Graph.ofServices services).startOrder = .ok order := Outcome.mapError_eq_ok_iff
  have hiff := Graph.exists_startOrder_iff hrecords.wellFormed
  simp only [Graph.Acyclic, hprecedes] at hiff
  simp only [horder]
  refine ⟨hiff, fun order h => ?_, fun ⟨s, hs⟩ => ?_⟩
  · have hsorts := Graph.sorts_of_startOrder hrecords.wellFormed h
    refine ⟨hsorts.perm.nodup_iff.2 hrecords.wellFormed.nodup, fun name => ?_, fun d s hneeds => ?_⟩
    · rw [hsorts.perm.mem_iff, hrecords.mem_iff]
    · exact hsorts.idxOf_lt hrecords.wellFormed (hprecedes ▸ hneeds)
  · cases h : (Graph.ofServices services).startOrder with
    | ok order => exact absurd hs (hiff.1 ⟨order, h⟩ s)
    | error culprit => exact ⟨culprit, by rw [Graph.order, h]; rfl⟩

end Dependency
end ComposeMerge
