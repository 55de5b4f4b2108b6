import ComposeMerge.Dependency.Services
import ComposeMerge.Proofs.Entries

/-!
# The dependency graph of services

What the graph says that is built from the references of services.

* `Graph.WellFormed`: every service is mentioned once, and edges join services that are mentioned;
* `Graph.ofChanges` is the graph that any changes make, and `Graph.precedes_ofChanges` its edges;
* `Needs` is the relation that the graph should record, told from the fields of the services;
* `Graph.precedes_ofServices`: the edges are this relation, and `Graph.records_ofServices` has the
  mentioned services, too.
-/

namespace ComposeMerge
namespace Dependency

namespace Graph

/-- One service has to be started before another. -/
def Precedes (g : Graph) (a b : String) : Prop := (⟨a, b⟩ : Edge) ∈ g.edges

/-- Every service is mentioned once, and every edge joins services that are mentioned. -/
structure WellFormed (g : Graph) : Prop where
  nodup : g.services.Nodup
  dependency_mem : ∀ {a b}, g.Precedes a b → a ∈ g.services
  dependent_mem : ∀ {a b}, g.Precedes a b → b ∈ g.services

/-! ### Building graphs -/

variable (g : Graph)

theorem mem_addService {name x : String} :
    x ∈ (g.addService name).services ↔ x ∈ g.services ∨ x = name := by
  unfold addService
  split
  · next h => exact ⟨.inl, fun hx => hx.elim id fun heq => heq ▸ h⟩
  · simp

theorem edges_addService (name : String) : (g.addService name).edges = g.edges := by
  unfold addService
  split <;> rfl

@[simp] theorem precedes_addService {name a b : String} :
    (g.addService name).Precedes a b ↔ g.Precedes a b := by
  rw [Precedes, edges_addService, Precedes]

@[simp] theorem precedes_addEdge {e : Edge} {a b : String} :
    (g.addEdge e).Precedes a b ↔ g.Precedes a b ∨ e = ⟨a, b⟩ := by
  unfold addEdge Precedes
  split
  · next h => exact ⟨.inl, fun hab => hab.elim id fun heq => heq ▸ h⟩
  · simp [or_comm, eq_comm]

theorem services_addEdge (e : Edge) : (g.addEdge e).services = g.services := by
  unfold addEdge
  split <;> rfl

theorem mem_addDependency {dependent dependency x : String} :
    x ∈ (g.addDependency dependent dependency).services ↔
      x ∈ g.services ∨ x = dependency ∨ x = dependent := by
  rw [addDependency, services_addEdge, mem_addService, mem_addService, or_assoc]

theorem precedes_addDependency {dependent dependency a b : String} :
    (g.addDependency dependent dependency).Precedes a b ↔
      g.Precedes a b ∨ a = dependency ∧ b = dependent := by
  simp [addDependency, eq_comm]

variable {g}

namespace WellFormed

theorem empty : Graph.empty.WellFormed where
  nodup := .nil
  dependency_mem h := by cases h
  dependent_mem h := by cases h

theorem addService (h : g.WellFormed) (name : String) : (g.addService name).WellFormed where
  nodup := by
    unfold Graph.addService
    split
    · exact h.nodup
    · next hname =>
      rw [← List.concat_eq_append]
      exact h.nodup.concat hname
  dependency_mem hab := (g.mem_addService).2 (.inl (h.dependency_mem ((precedes_addService g).1 hab)))
  dependent_mem hab := (g.mem_addService).2 (.inl (h.dependent_mem ((precedes_addService g).1 hab)))

theorem addDependency (h : g.WellFormed) (dependent dependency : String) :
    (g.addDependency dependent dependency).WellFormed where
  nodup := by
    rw [Graph.addDependency, services_addEdge]
    exact ((h.addService dependency).addService dependent).nodup
  dependency_mem hab := by
    rw [mem_addDependency]
    rcases (precedes_addDependency g).1 hab with hab | ⟨rfl, -⟩
    · exact .inl (h.dependency_mem hab)
    · exact .inr (.inl rfl)
  dependent_mem hab := by
    rw [mem_addDependency]
    rcases (precedes_addDependency g).1 hab with hab | ⟨-, rfl⟩
    · exact .inl (h.dependent_mem hab)
    · exact .inr (.inr rfl)

end WellFormed
end Graph

/-! ### Graphs made by changes -/

/-- A change to a dependency graph. -/
inductive Change where
  /-- A service is mentioned. -/
  | service (name : String)
  /-- A service is recorded to need another one. -/
  | dependency (dependent dependency : String)
  deriving DecidableEq

/-- One service has to be started before another, as changes record it. -/
def Recorded (changes : List Change) (dependency dependent : String) : Prop :=
  .dependency dependent dependency ∈ changes

namespace Graph

/-- The graph with one change made to it. -/
def change (g : Graph) : Change → Graph
  | .service name => g.addService name
  | .dependency dependent dependency => g.addDependency dependent dependency

/-- The graph that changes make, one after the other. -/
def ofChanges (changes : List Change) : Graph := changes.foldl change .empty

theorem WellFormed.change {g : Graph} (h : g.WellFormed) : (c : Change) → (g.change c).WellFormed
  | .service name => h.addService name
  | .dependency dependent dependency => h.addDependency dependent dependency

theorem precedes_change {g : Graph} {c : Change} {a b : String} :
    (g.change c).Precedes a b ↔ g.Precedes a b ∨ .dependency b a = c := by
  cases c with
  | service name => simp [change]
  | dependency dependent dependency => simp [change, precedes_addDependency, and_comm]

theorem wellFormed_ofChanges (changes : List Change) : (ofChanges changes).WellFormed :=
  List.foldlRecOn changes change .empty fun _ h c _ => h.change c

/-- In a graph made by changes, a service precedes those that are recorded to need it. -/
theorem precedes_ofChanges (changes : List Change) :
    (ofChanges changes).Precedes = Recorded changes := by
  have hfold : ∀ (g : Graph) a b, (changes.foldl change g).Precedes a b ↔
      g.Precedes a b ∨ Recorded changes a b := by
    induction changes with
    | nil => simp [Recorded]
    | cons c changes ih =>
      intro g a b
      rw [List.foldl_cons, ih, precedes_change, or_assoc, Recorded, Recorded, List.mem_cons]
  funext a b
  exact propext ((hfold .empty a b).trans (or_iff_right (by simp [Precedes, empty])))

end Graph

/-! ### References of services -/

/-- The text before the first colon, or all of it. -/
def upToColon (reference : String) : String :=
  String.ofList (reference.toList.takeWhile (· ≠ ':'))

/-- A service refers to another one. -/
inductive RefersTo (c : ServiceConfig) : String → Prop where
  | dependsOn {name : String} : name ∈ c.dependsOn → RefersTo c name
  | link {link : String} : link ∈ c.links → RefersTo c (upToColon link)
  | volumes {source : String} : source ∈ c.volumesFrom →
      ¬ "container:".toList <+: source.toList → ¬ "service:".toList <+: source.toList →
      RefersTo c (upToColon source)
  | serviceVolumes {source rest : String} : source ∈ c.volumesFrom →
      source.toList = "service:".toList ++ rest.toList → RefersTo c (upToColon rest)

/-- A stored service needs another one, if it refers to it. -/
structure Needs (services : Services) (dependency dependent : String) : Prop where
  ne : dependency ≠ dependent
  stored : services.contains dependency = true
  refers : ∃ c, services.get? dependent = some c ∧ RefersTo c dependency

theorem beforeColon_eq_takeWhile (s : List Char) : beforeColon s = s.takeWhile (· ≠ ':') := by
  unfold beforeColon
  induction s with
  | nil => rfl
  | cons c s ih =>
    rw [Text.splitFirst, List.takeWhile_cons]
    by_cases hc : c = ':'
    · simp [hc]
    · rw [if_neg hc, if_pos (by simpa using hc), ← ih]
      cases Text.splitFirst ':' s <;> rfl

theorem linkTarget_eq (link : String) : linkTarget link = upToColon link := by
  rw [linkTarget, beforeColon_eq_takeWhile, upToColon]

theorem volumeSource?_eq_some_iff {source name : String} :
    volumeSource? source = some name ↔
      (¬ "container:".toList <+: source.toList ∧ ¬ "service:".toList <+: source.toList ∧
          name = upToColon source) ∨
        ∃ rest : String, source.toList = "service:".toList ++ rest.toList ∧
          name = upToColon rest := by
  have hservice : ∀ rest, Text.dropStart? "service:".toList source.toList = some rest ↔
      source.toList = "service:".toList ++ rest := fun rest => Text.dropStart?_eq_some_iff
  unfold volumeSource?
  dsimp only
  cases hdrop : Text.dropStart? "service:".toList source.toList with
  | some rest =>
    -- A text does not start in both ways.
    have hsource := (hservice rest).1 hdrop
    have hcontainer : ¬ "container:".toList <+: source.toList := by
      rw [hsource]
      exact fun h => by simp at h
    rw [if_neg (by rwa [Text.startsWith_iff]), Option.getD_some, beforeColon_eq_takeWhile]
    constructor
    · intro h
      refine .inr ⟨String.ofList rest, by simpa using hsource, ?_⟩
      simpa [upToColon] using h.symm
    · rintro (⟨-, h, -⟩ | ⟨rest', h, rfl⟩)
      · exact absurd ⟨rest, hsource.symm⟩ h
      · rw [hsource] at h
        rw [List.append_cancel_left h]
        rfl
  | none =>
    have hprefix : ¬ "service:".toList <+: source.toList := by
      rintro ⟨rest, h⟩
      rw [(hservice rest).2 h.symm] at hdrop
      cases hdrop
    have hrest : ¬ ∃ rest : String, source.toList = "service:".toList ++ rest.toList ∧
        name = upToColon rest := fun ⟨rest, h, _⟩ => hprefix ⟨rest.toList, h.symm⟩
    rw [Option.getD_none, beforeColon_eq_takeWhile]
    by_cases hcontainer : "container:".toList <+: source.toList
    · rw [if_pos (Text.startsWith_iff.2 hcontainer)]
      exact iff_of_false (fun h => by cases h)
        fun h => h.elim (fun h => h.1 hcontainer) hrest
    · rw [if_neg (by rwa [Text.startsWith_iff])]
      constructor
      · exact fun h => .inl ⟨hcontainer, hprefix, (Option.some.inj h).symm⟩
      · rintro (⟨-, -, rfl⟩ | h)
        · rfl
        · exact absurd h hrest

theorem mem_references_iff {c : ServiceConfig} {name : String} :
    name ∈ references c ↔ RefersTo c name := by
  simp only [references, List.mem_append, List.mem_map, List.mem_filterMap,
    volumeSource?_eq_some_iff, linkTarget_eq]
  constructor
  · rintro ((h | ⟨link, h, rfl⟩) | ⟨source, h, ⟨h₁, h₂, rfl⟩ | ⟨rest, h₁, rfl⟩⟩)
    · exact .dependsOn h
    · exact .link h
    · exact .volumes h h₁ h₂
    · exact .serviceVolumes h h₁
  · rintro (h | h | ⟨h, h₁, h₂⟩ | ⟨h, h₁⟩)
    · exact .inl (.inl h)
    · exact .inl (.inr ⟨_, h, rfl⟩)
    · exact .inr ⟨_, h, .inl ⟨h₁, h₂, rfl⟩⟩
    · exact .inr ⟨_, h, .inr ⟨_, h₁, rfl⟩⟩

/-! ### The graph of services -/

namespace Graph

/-- A graph of the stored services, in which the dependencies of some of them are recorded. -/
structure Records (g : Graph) (services : Services) (recorded : Entries ServiceConfig) :
    Prop where
  wellFormed : g.WellFormed
  mem_iff : ∀ name, name ∈ g.services ↔ services.contains name = true
  precedes_iff : ∀ a b, g.Precedes a b ↔
    ∃ c, (b, c) ∈ recorded ∧ RefersTo c a ∧ services.contains a = true ∧ a ≠ b

/-- The names of services, mentioned one after the other. -/
theorem mention_names {g : Graph} (hg : g.WellFormed) (names : List String) :
    (names.foldl addService g).WellFormed ∧
      (∀ x, x ∈ (names.foldl addService g).services ↔ x ∈ g.services ∨ x ∈ names) ∧
      ∀ a b, (names.foldl addService g).Precedes a b ↔ g.Precedes a b := by
  induction names generalizing g with
  | nil => simp [hg]
  | cons name names ih =>
    obtain ⟨hwf, hmem, hprecedes⟩ := ih (hg.addService name)
    refine ⟨hwf, fun x => ?_, fun a b => ?_⟩
    · rw [List.foldl_cons, hmem, mem_addService, List.mem_cons, or_assoc]
    · rw [List.foldl_cons, hprecedes, precedes_addService]

/-- Dependencies of one service, added one after the other, between services already mentioned. -/
theorem add_dependencies {g : Graph} (hg : g.WellFormed) {name : String}
    (hname : name ∈ g.services) {ds : List String} (hds : ∀ d ∈ ds, d ∈ g.services) :
    let g' := ds.foldl (fun g d => g.addDependency name d) g
    g'.WellFormed ∧ (∀ x, x ∈ g'.services ↔ x ∈ g.services) ∧
      ∀ a b, g'.Precedes a b ↔ g.Precedes a b ∨ a ∈ ds ∧ b = name := by
  induction ds generalizing g with
  | nil => simp [hg]
  | cons d ds ih =>
    obtain ⟨hd, hds⟩ := List.forall_mem_cons.1 hds
    have hsame : ∀ x, x ∈ (g.addDependency name d).services ↔ x ∈ g.services := by
      intro x
      rw [mem_addDependency]
      exact ⟨by rintro (h | rfl | rfl) <;> assumption, .inl⟩
    obtain ⟨hwf, hmem, hprecedes⟩ := ih (hg.addDependency name d) ((hsame name).2 hname)
      fun e he => (hsame e).2 (hds e he)
    refine ⟨hwf, fun x => (hmem x).trans (hsame x), fun a b => ?_⟩
    rw [List.foldl_cons, hprecedes, precedes_addDependency, List.mem_cons, or_and_right, or_assoc]

namespace Records

variable {g : Graph} {services : Services} {recorded : Entries ServiceConfig}

/-- At first only the names are there. -/
theorem start (services : Services) :
    Records (services.names.foldl addService .empty) services [] := by
  obtain ⟨hwf, hmem, hprecedes⟩ := mention_names .empty services.names
  refine ⟨hwf, fun name => ?_, fun a b => ?_⟩
  · rw [hmem, Table.mem_names_iff]
    exact ⟨fun h => h.resolve_left (by simp [Graph.empty]), .inr⟩
  · rw [hprecedes]
    simp [Precedes, Graph.empty]

/-- One more service has its dependencies recorded. -/
theorem add (h : Records g services recorded) {name : String} {c : ServiceConfig}
    (hname : services.contains name = true) :
    Records (addReferences services g name c) services (recorded ++ [(name, c)]) := by
  have hmem : ∀ d, d ∈ (references c).filter (fun d => services.contains d && d ≠ name) ↔
      RefersTo c d ∧ services.contains d = true ∧ d ≠ name := by
    intro d
    simp [mem_references_iff]
  obtain ⟨hwf, hservices, hprecedes⟩ := add_dependencies h.wellFormed ((h.mem_iff name).2 hname)
    fun d hd => (h.mem_iff d).2 ((hmem d).1 hd).2.1
  refine ⟨hwf, fun x => (hservices x).trans (h.mem_iff x), fun a b => ?_⟩
  rw [addReferences, hprecedes, h.precedes_iff, hmem]
  simp only [List.mem_append, List.mem_singleton, Prod.mk.injEq, or_and_right, exists_or]
  refine or_congr Iff.rfl ⟨?_, ?_⟩
  · rintro ⟨⟨hrefers, hstored, hne⟩, rfl⟩
    exact ⟨c, ⟨rfl, rfl⟩, hrefers, hstored, hne⟩
  · rintro ⟨_, ⟨rfl, rfl⟩, hrefers, hstored, hne⟩
    exact ⟨⟨hrefers, hstored, hne⟩, rfl⟩

theorem addAll (h : Records g services recorded) {rest : Entries ServiceConfig}
    (hrest : ∀ e ∈ rest, services.contains e.1 = true) :
    Records (rest.foldl (fun g e => addReferences services g e.1 e.2) g) services
      (recorded ++ rest) := by
  induction rest generalizing g recorded with
  | nil => simpa using h
  | cons e rest ih =>
    obtain ⟨he, hrest⟩ := List.forall_mem_cons.1 hrest
    rw [List.append_cons]
    exact ih (h.add he) hrest

end Records

/-- In the graph of some services, all dependencies are recorded. -/
theorem records_ofServices (services : Services) :
    Records (ofServices services) services services.entries := by
  refine (Records.start services).addAll fun e he => Table.mem_names_iff.1 ?_
  exact List.mem_map_of_mem he

/-- In the graph of some services, a service precedes those that need it. -/
theorem precedes_ofServices (services : Services) :
    (ofServices services).Precedes = Needs services := by
  funext a b
  refine propext (((records_ofServices services).precedes_iff a b).trans ⟨?_, ?_⟩)
  · rintro ⟨c, hc, hrefers, hstored, hne⟩
    exact ⟨hne, hstored, c, (Entries.get?_eq_some_iff services.sorted.distinct).2 hc, hrefers⟩
  · rintro ⟨hne, hstored, c, hc, hrefers⟩
    exact ⟨c, Entries.mem_of_get? hc, hrefers, hstored, hne⟩

end Graph

end Dependency
end ComposeMerge
