import ComposeMerge.Dependency.Order
import ComposeMerge.Proofs.DependencyGraph

/-!
# Depth-first search

The search along a stack as a search by recursion, and what it finds.

* `Search` is the recursive search; `search_of_discover` has it for the search along a stack;
* `Search.progress` keeps the invariants of the services met and finished so far;
* `Search.backward`: where an edge leads back in the list of finished services, there is a cycle, and
  `Search.ordered`: without cycles, every service is finished after those that come after it;
* `retraceAll_eq_none_iff` says what the second pass along the finished services checks, and
  `precedes_of_retraceAll` what it finds.
-/

namespace ComposeMerge
namespace Dependency

/-- No service precedes itself, directly or through others. -/
def Graph.Acyclic (g : Graph) : Prop := ∀ a, ¬ Relation.TransGen g.Precedes a a

/-! ### Stacks -/

theorem mem_pushUnmet {unmet next : List String} {x : String} :
    x ∈ pushUnmet unmet next [] ↔ x ∈ next ∧ x ∈ unmet := by
  simp [pushUnmet]

theorem pushUnmet_append (unmet next stack more : List String) :
    pushUnmet unmet next (stack ++ more) = pushUnmet unmet next stack ++ more := by
  simp [pushUnmet]

/-- Searching along two stacks, one on top of the other. -/
theorem discover_append (g : Graph) (unmet finished stack more : List String) :
    discover g unmet finished (stack ++ more) =
      discover g unmet finished stack >>= fun found => discover g found.1 found.2 more := by
  fun_induction discover g unmet finished stack with
  | case1 => rfl
  | case2 unmet finished name stack hname hself =>
    rw [List.cons_append, discover, if_pos hname, if_pos hself, Outcome.bind_error]
  | case3 unmet finished name stack hname hself rest ih =>
    rw [List.cons_append, discover, if_pos hname, if_neg hself, ← ih, ← pushUnmet_append]
    rfl
  | case4 unmet finished name stack hname ih =>
    rw [List.cons_append, discover, if_neg hname]
    exact ih

/-- A depth-first search along a stack that meets no service twice: from the services unmet and
finished before it, to those after it. -/
inductive Search (g : Graph) : List String → List String → List String →
    List String → List String → Prop where
  | done (unmet finished : List String) : Search g unmet finished [] unmet finished
  | met {name : String} {unmet finished stack unmet' finished' : List String} :
      name ∉ unmet → Search g unmet finished stack unmet' finished' →
      Search g unmet finished (name :: stack) unmet' finished'
  | visit {name : String} {unmet finished unmet₁ finished₁ stack unmet' finished' : List String} :
      name ∈ unmet → ¬ g.Precedes name name →
      Search g (unmet.erase name) finished (pushUnmet (unmet.erase name) (g.dependents name) [])
        unmet₁ finished₁ →
      Search g unmet₁ (name :: finished₁) stack unmet' finished' →
      Search g unmet finished (name :: stack) unmet' finished'

namespace Search

variable {g : Graph} {unmet finished stack unmet' finished' : List String}

theorem sublist (h : Search g unmet finished stack unmet' finished') : unmet'.Sublist unmet := by
  induction h with
  | done => exact .refl _
  | met _ _ ih => exact ih
  | visit _ _ _ _ ih₁ ih₂ => exact (ih₂.trans ih₁).trans List.erase_sublist

theorem trans {more unmet₂ finished₂ : List String}
    (h : Search g unmet finished stack unmet' finished')
    (h' : Search g unmet' finished' more unmet₂ finished₂) :
    Search g unmet finished (stack ++ more) unmet₂ finished₂ := by
  induction h with
  | done => exact h'
  | met hname _ ih => exact .met hname (ih h')
  | visit hname hself hinner _ _ ih => exact .visit hname hself hinner (ih h')

/-- All services on the stack are met. -/
theorem not_mem_of_mem_stack (h : Search g unmet finished stack unmet' finished')
    (hunmet : unmet.Nodup) {x : String} (hx : x ∈ stack) : x ∉ unmet' := by
  induction h with
  | done => cases hx
  | met hname hrest ih =>
    rcases List.mem_cons.1 hx with rfl | hx
    · exact fun hmem => hname (hrest.sublist.subset hmem)
    · exact ih hunmet hx
  | visit hname _ hinner hrest _ ih =>
    rcases List.mem_cons.1 hx with rfl | hx
    · exact fun hmem =>
        hunmet.not_mem_erase ((hrest.sublist.trans hinner.sublist).subset hmem)
    · exact ih ((hunmet.erase _).sublist hinner.sublist) hx

/-- The services that are met are the ones that become finished. -/
theorem mem_finished_iff (h : Search g unmet finished stack unmet' finished')
    (hunmet : unmet.Nodup) :
    ∀ x, x ∈ finished' ↔ x ∈ finished ∨ (x ∈ unmet ∧ x ∉ unmet') := by
  induction h with
  | done => simp
  | met _ _ ih => exact ih hunmet
  | @visit name unmet finished unmet₁ finished₁ stack unmet' finished' hname _ hinner hrest ih₁ ih₂ =>
    have herase := hunmet.erase name
    have h₁ := ih₁ herase
    have h₂ := ih₂ (herase.sublist hinner.sublist)
    intro x
    have hx₁ := @hinner.sublist.subset _ _ _ x
    have hx₂ := @hrest.sublist.subset _ _ _ x
    rw [hunmet.mem_erase_iff] at hx₁
    rw [h₂ x, List.mem_cons, h₁ x, hunmet.mem_erase_iff]
    grind

theorem unmet_or_finished (h : Search g unmet finished stack unmet' finished')
    (hunmet : unmet.Nodup) {x : String} (hx : x ∈ unmet ∨ x ∈ finished) :
    x ∈ unmet' ∨ x ∈ finished' := by
  rw [h.mem_finished_iff hunmet]
  by_cases hx' : x ∈ unmet'
  · exact .inl hx'
  · exact .inr (hx.symm.imp_right fun h => ⟨h, hx'⟩)

/-- What is finished is found below the stack. -/
theorem reached (h : Search g unmet finished stack unmet' finished') :
    ∀ x ∈ finished', x ∈ finished ∨ ∃ y ∈ stack, Relation.ReflTransGen g.Precedes y x := by
  induction h with
  | done => exact fun x hx => .inl hx
  | @met name _ _ _ _ _ _ _ ih =>
    intro x hx
    exact (ih x hx).imp_right fun ⟨y, hy, hyx⟩ => ⟨y, List.mem_cons_of_mem _ hy, hyx⟩
  | @visit name _ _ _ _ _ _ _ _ _ _ _ ih₁ ih₂ =>
    intro x hx
    rcases ih₂ x hx with hx | ⟨y, hy, hyx⟩
    · rcases List.mem_cons.1 hx with rfl | hx
      · exact .inr ⟨x, by simp, .refl⟩
      · refine (ih₁ x hx).imp_right fun ⟨y, hy, hyx⟩ => ⟨name, by simp, ?_⟩
        exact .head (Graph.mem_dependents.1 (mem_pushUnmet.1 hy).1) hyx
    · exact .inr ⟨y, List.mem_cons_of_mem _ hy, hyx⟩

end Search

/-- How far a search has come: a finished service is met, and so is every service after it. -/
structure Progress (g : Graph) (unmet finished : List String) : Prop where
  nodup_unmet : unmet.Nodup
  nodup_finished : finished.Nodup
  disjoint : ∀ x ∈ finished, x ∉ unmet
  loopless : ∀ x ∈ finished, ¬ g.Precedes x x
  closed : ∀ a ∈ finished, ∀ b, g.Precedes a b → b ∉ unmet

namespace Progress

variable {g : Graph} {unmet finished : List String}

theorem start (h : g.services.Nodup) : Progress g g.services [] where
  nodup_unmet := h
  nodup_finished := .nil
  disjoint := by simp
  loopless := by simp
  closed := by simp

theorem erase (h : Progress g unmet finished) (name : String) :
    Progress g (unmet.erase name) finished where
  nodup_unmet := h.nodup_unmet.erase name
  nodup_finished := h.nodup_finished
  disjoint x hx hmem := h.disjoint x hx (List.mem_of_mem_erase hmem)
  loopless := h.loopless
  closed a ha b hb hmem := h.closed a ha b hb (List.mem_of_mem_erase hmem)

/-- A service is finished once all services after it that were unmet are finished. -/
theorem finish {name : String} {unmet₁ finished₁ : List String} (h : Progress g unmet finished)
    (h₁ : Progress g unmet₁ finished₁) (hname : name ∈ unmet) (hself : ¬ g.Precedes name name)
    (hinner : Search g (unmet.erase name) finished
      (pushUnmet (unmet.erase name) (g.dependents name) []) unmet₁ finished₁) :
    Progress g unmet₁ (name :: finished₁) where
  nodup_unmet := h₁.nodup_unmet
  nodup_finished := by
    refine List.nodup_cons.2 ⟨fun hmem => ?_, h₁.nodup_finished⟩
    rcases (hinner.mem_finished_iff (h.erase name).nodup_unmet name).1 hmem with hold | ⟨hrest, -⟩
    · exact h.disjoint name hold hname
    · exact h.nodup_unmet.not_mem_erase hrest
  disjoint := List.forall_mem_cons.2
    ⟨fun hmem => h.nodup_unmet.not_mem_erase (hinner.sublist.subset hmem), h₁.disjoint⟩
  loopless := List.forall_mem_cons.2 ⟨hself, h₁.loopless⟩
  closed := by
    refine List.forall_mem_cons.2 ⟨fun b hb hmem => ?_, h₁.closed⟩
    -- Had `b` been unmet, it would have been pushed, and met since then.
    have hpushed := mem_pushUnmet.2 ⟨Graph.mem_dependents.2 hb, hinner.sublist.subset hmem⟩
    exact hinner.not_mem_of_mem_stack (h.erase name).nodup_unmet hpushed hmem

end Progress

namespace Search

variable {g : Graph} {unmet finished stack unmet' finished' : List String}

theorem progress (h : Search g unmet finished stack unmet' finished')
    (hstart : Progress g unmet finished) : Progress g unmet' finished' := by
  induction h with
  | done => exact hstart
  | met _ _ ih => exact ih hstart
  | visit hname hself hinner _ ih₁ ih₂ =>
    exact ih₂ (hstart.finish (ih₁ (hstart.erase _)) hname hself hinner)

/-- What a search lists before a service that precedes it is before that service, too: the two are
on a cycle. -/
theorem backward (h : Search g unmet finished stack unmet' finished')
    (hstart : Progress g unmet finished)
    (hback : finished.Pairwise fun a b => g.Precedes b a → Relation.TransGen g.Precedes a b) :
    finished'.Pairwise fun a b => g.Precedes b a → Relation.TransGen g.Precedes a b := by
  induction h with
  | done => exact hback
  | met _ _ ih => exact ih hstart hback
  | @visit name unmet finished unmet₁ finished₁ _ _ _ hname hself hinner _ ih₁ ih₂ =>
    have hfirst := hinner.progress (hstart.erase name)
    refine ih₂ (hstart.finish hfirst hname hself hinner)
      (List.pairwise_cons.2 ⟨fun b hb hprecedes => ?_, ih₁ (hstart.erase name) hback⟩)
    -- Nothing unmet comes after a service finished before; the others are found below `name`.
    rcases hinner.reached b hb with hold | ⟨y, hy, hyb⟩
    · exact absurd hname (hstart.closed b hold name hprecedes)
    · have hny := Graph.mem_dependents.1 (mem_pushUnmet.1 hy).1
      exact .head' hny hyb

/-- Without cycles, a search lists every service before those that come after it. -/
theorem ordered (h : Search g unmet finished stack unmet' finished') (hacyclic : g.Acyclic)
    (hstart : Progress g unmet finished)
    (hordered : finished.Pairwise fun a b => ¬ g.Precedes b a) :
    finished'.Pairwise fun a b => ¬ g.Precedes b a := by
  have hback := h.backward hstart (hordered.imp fun hnot hprecedes => absurd hprecedes hnot)
  refine hback.imp ?_
  intro a b hcycle hprecedes
  exact hacyclic a ((hcycle hprecedes).tail hprecedes)

end Search

/-! ### The stack machine -/

/-- The search with a stack is the depth-first search, as long as what is on the stack and has been
met is finished. -/
theorem search_of_discover {g : Graph} {unmet finished stack unmet' finished' : List String}
    (hstart : Progress g unmet finished) (hstack : ∀ x ∈ stack, x ∈ unmet ∨ x ∈ finished)
    (h : discover g unmet finished stack = .ok (unmet', finished')) :
    Search g unmet finished stack unmet' finished' := by
  match stack, hstack, h with
  | [], _, h =>
    rw [discover] at h
    cases h
    exact .done _ _
  | name :: stack, hstack, h =>
    have hstack' : ∀ x ∈ stack, x ∈ unmet ∨ x ∈ finished := fun x hx => hstack x (by simp [hx])
    rw [discover] at h
    by_cases hname : name ∈ unmet
    · rw [if_pos hname] at h
      by_cases hself : name ∈ g.dependents name
      · rw [if_pos hself] at h
        cases h
      · rw [if_neg hself] at h
        dsimp only at h
        rw [← List.nil_append (name :: stack), pushUnmet_append, discover_append] at h
        obtain ⟨⟨unmet₁, finished₁⟩, hinner, hrest⟩ := Outcome.bind_eq_ok_iff.1 h
        have hlt := length_erase_lt hname
        have hvisit := search_of_discover (hstart.erase name)
          (fun x hx => .inl (mem_pushUnmet.1 hx).2) hinner
        have hself' : ¬ g.Precedes name name := fun h => hself (Graph.mem_dependents.2 h)
        have hnext := hstart.finish (hvisit.progress (hstart.erase name)) hname hself' hvisit
        -- Below what was pushed, `name` is met again, and finished.
        obtain ⟨hnew, -⟩ := List.nodup_cons.1 hnext.nodup_finished
        rw [discover, if_neg (hnext.disjoint name (by simp)), if_neg hnew] at hrest
        have hle := hvisit.sublist.length_le
        refine .visit hname hself' hvisit (search_of_discover hnext (fun x hx => ?_) hrest)
        by_cases hx' : x = name
        · exact .inr (by simp [hx'])
        · have hx'' := (hstack' x hx).imp_left (List.mem_erase_of_ne hx').2
          exact (hvisit.unmet_or_finished (hstart.erase name).nodup_unmet hx'').imp_right
            (List.mem_cons_of_mem name)
    · have hfinished : name ∈ finished := (hstack name (by simp)).resolve_left hname
      rw [if_neg hname, if_pos hfinished] at h
      exact .met hname (search_of_discover hstart hstack' h)
termination_by (unmet.length, stack.length)
decreasing_by
  · exact .left _ _ hlt
  · exact .left _ _ (hle.trans_lt hlt)
  · exact .right _ (by simp)

/-- The stack machine fails only at a service that precedes itself. -/
theorem precedes_of_discover {g : Graph} {unmet finished stack : List String} {culprit : String}
    (h : discover g unmet finished stack = .error culprit) : g.Precedes culprit culprit := by
  fun_induction discover g unmet finished stack with
  | case1 => cases h
  | case2 unmet finished name stack hname hself =>
    cases h
    exact Graph.mem_dependents.1 hself
  | case3 _ _ _ _ _ _ _ ih => exact ih h
  | case4 _ _ _ _ _ ih => exact ih h

/-- Searching from one service after the other is the same as searching along all of them. -/
theorem search_of_discoverAll {g : Graph} {names unmet finished unmet' finished' : List String}
    (hstart : Progress g unmet finished) (hnames : ∀ x ∈ names, x ∈ unmet ∨ x ∈ finished)
    (h : discoverAll g names (unmet, finished) = .ok (unmet', finished')) :
    Search g unmet finished names unmet' finished' := by
  induction names generalizing unmet finished with
  | nil =>
    cases h
    exact .done _ _
  | cons name names ih =>
    obtain ⟨hhead, hrest⟩ := List.forall_mem_cons.1 hnames
    rw [discoverAll] at h
    by_cases hname : name ∈ unmet
    · rw [if_pos hname] at h
      cases hfound : discover g unmet finished [name] with
      | error culprit =>
        rw [hfound] at h
        cases h
      | ok found =>
        rw [hfound] at h
        have hfirst := search_of_discover hstart (by simpa using hhead) hfound
        exact hfirst.trans (ih (hfirst.progress hstart)
          (fun x hx => hfirst.unmet_or_finished hstart.nodup_unmet (hrest x hx)) h)
    · rw [if_neg hname] at h
      exact .met hname (ih hstart hrest h)

theorem precedes_of_discoverAll {g : Graph} {names unmet finished : List String} {culprit : String}
    (h : discoverAll g names (unmet, finished) = .error culprit) : g.Precedes culprit culprit := by
  induction names generalizing unmet finished with
  | nil => cases h
  | cons name names ih =>
    rw [discoverAll] at h
    by_cases hname : name ∈ unmet
    · rw [if_pos hname] at h
      cases hfound : discover g unmet finished [name] with
      | error culprit' =>
        rw [hfound] at h
        cases h
        exact precedes_of_discover hfound
      | ok found =>
        rw [hfound] at h
        exact ih h
    · rw [if_neg hname] at h
      exact ih h

/-! ### The second pass -/

/-- Against the edges, a search meets nothing but the service it starts from just when none of the
services that precede it is unmet. What it meets next is one of these. -/
theorem retrace_singleton (g : Graph) {unmet : List String} {name : String} (hname : name ∈ unmet) :
    ((∀ d ∈ unmet.erase name, ¬ g.Precedes d name) ∧
        retrace g unmet [name] = ([name], unmet.erase name)) ∨
      ∃ culprit ∈ unmet.erase name, g.Precedes culprit name ∧
        ∃ met rest, retrace g unmet [name] = (name :: culprit :: met, rest) := by
  rw [retrace, if_pos hname]
  dsimp only
  cases hpushed : pushUnmet (unmet.erase name) (g.dependencies name) [] with
  | nil =>
    refine .inl ⟨fun d hd hprecedes => ?_, by rw [retrace]⟩
    have hmem := mem_pushUnmet.2 ⟨Graph.mem_dependencies.2 hprecedes, hd⟩
    rw [hpushed] at hmem
    cases hmem
  | cons d stack =>
    have hd := mem_pushUnmet.1 (hpushed ▸ List.mem_cons_self (a := d) (l := stack))
    refine .inr ⟨d, hd.2, Graph.mem_dependencies.1 hd.1, ?_⟩
    rw [retrace, if_pos hd.2]
    exact ⟨_, _, rfl⟩

/-- The second pass finds nothing just when no service comes before one that precedes it. -/
theorem retraceAll_eq_none_iff {g : Graph} {unmet names : List String} (hperm : names.Perm unmet) :
    retraceAll g unmet names = none ↔ names.Pairwise fun a b => ¬ g.Precedes b a := by
  induction names generalizing unmet with
  | nil => simp [retraceAll]
  | cons name names ih =>
    have hname : name ∈ unmet := hperm.subset (by simp)
    have hrest : names.Perm (unmet.erase name) := by
      simpa using hperm.erase name
    rw [retraceAll, List.pairwise_cons]
    rcases retrace_singleton g hname with ⟨hnone, hretrace⟩ | ⟨d, hd, hprecedes, _, _, hretrace⟩
    · rw [hretrace]
      dsimp only
      rw [ih hrest]
      exact ⟨fun h => ⟨fun b hb => hnone b (hrest.subset hb), h⟩, And.right⟩
    · rw [hretrace]
      refine iff_of_false (by simp) fun h => h.1 d (hrest.symm.subset hd) hprecedes

/-- The service that the second pass finds precedes one that comes before it. -/
theorem precedes_of_retraceAll {g : Graph} {unmet names : List String} {culprit : String}
    (hperm : names.Perm unmet) (h : retraceAll g unmet names = some culprit) :
    ∃ name, g.Precedes culprit name ∧ [name, culprit].Sublist names := by
  induction names generalizing unmet with
  | nil => cases h
  | cons name names ih =>
    have hname : name ∈ unmet := hperm.subset (by simp)
    have hrest : names.Perm (unmet.erase name) := by
      simpa using hperm.erase name
    rw [retraceAll] at h
    rcases retrace_singleton g hname with ⟨-, hretrace⟩ | ⟨d, hd, hprecedes, _, _, hretrace⟩
    · rw [hretrace] at h
      obtain ⟨a, ha, hsublist⟩ := ih hrest h
      exact ⟨a, ha, hsublist.cons name⟩
    · rw [hretrace] at h
      cases h
      have hmem : culprit ∈ names := hrest.symm.subset hd
      exact ⟨name, hprecedes, (List.singleton_sublist.2 hmem).cons_cons name⟩

end Dependency
end ComposeMerge
