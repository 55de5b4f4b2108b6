import ComposeMerge.Dependency.Register
import ComposeMerge.Proofs.DependencyGraph

/-!
# Numbers of services

In a register, the numbers under the names and the nodes of the graph stay in step.

* `Register.InStep` says what a register holds after some services have been mentioned and some
  dependencies recorded, and `Register.KeptBy` that what has a number keeps it;
* `Register.InStep.addService` and `Register.InStep.addDependency` are what one change preserves,
  `Register.InStep.makeChanges` is what a run of changes preserves;
* `Register.ofChanges_in_step` says this of a register made by any changes;
* `Register.named_ofChanges`: such a register stands for the graph that the same changes make, and
  the numbers are the places of the services in it.

All but the last is said of any graph with numbered nodes.
-/

namespace ComposeMerge
namespace Dependency

open NodeGraph (nodeCount text? edges addNode updateEdge)

/-! ### Graphs with numbered nodes -/

namespace LawfulNodeGraph

variable {G : Type} [NodeGraph G] [LawfulNodeGraph G] {g g' : G} {i j : Nat}

theorem text?_empty (i : Nat) : text? (NodeGraph.empty : G) i = none := by
  have h := isSome_text?_iff (NodeGraph.empty : G) i
  rw [nodeCount_empty] at h
  simpa using h

theorem lt_nodeCount {text : String} (h : text? g i = some text) : i < nodeCount g :=
  (isSome_text?_iff g i).1 (by simp [h])

/-- Without gaps, a new node gets the next number. -/
theorem number_addNode (g : G) (text : String) : (addNode g text).2 = nodeCount g := by
  have hfree : ¬ (addNode g text).2 < nodeCount g := by
    rw [← isSome_text?_iff, text?_number_addNode]
    simp
  have hthere : (addNode g text).2 < nodeCount (addNode g text).1 := by
    rw [← isSome_text?_iff, text?_addNode, if_pos rfl]
    rfl
  rw [nodeCount_addNode] at hthere
  omega

theorem nodeCount_updateEdge (h : updateEdge g i j = some g') : nodeCount g' = nodeCount g := by
  refine eq_of_forall_lt_iff fun k => ?_
  rw [← isSome_text?_iff, text?_updateEdge h, isSome_text?_iff]

theorem mem_edges_updateEdge (h : updateEdge g i j = some g') (e : Nat × Nat) :
    e ∈ edges g' ↔ e ∈ edges g ∨ e = (i, j) := by
  rw [(edges_updateEdge h).mem_iff]
  split
  · next hmem => exact (or_iff_left_of_imp fun heq => heq ▸ hmem).symm
  · rw [List.mem_cons, or_comm]

theorem nodup_edges_updateEdge (h : updateEdge g i j = some g') (hg : (edges g).Nodup) :
    (edges g').Nodup := by
  rw [(edges_updateEdge h).nodup_iff]
  split
  · exact hg
  · next hnew => exact hg.cons hnew

end LawfulNodeGraph

instance : LawfulNodeGraph EdgeList where
  nodeCount_empty := rfl
  edges_empty := rfl
  isSome_text?_iff g i := by simp [text?, nodeCount]
  nodeCount_addNode g text := by simp [nodeCount, addNode, EdgeList.addNode]
  text?_number_addNode g text := by simp [text?, addNode, EdgeList.addNode]
  text?_addNode g text i := by
    simp only [text?, addNode, EdgeList.addNode]
    grind
  edges_addNode _ _ := rfl
  exists_updateEdge hi hj := ⟨_, if_pos ⟨hi, hj⟩⟩
  text?_updateEdge h k := by
    simp only [updateEdge, EdgeList.updateEdge] at h
    simp only [text?]
    grind
  edges_updateEdge h := by
    simp only [updateEdge, EdgeList.updateEdge] at h
    simp only [edges]
    split at h
    · cases h
      split <;> rfl
    · cases h

/-! ### Changes -/

/-- The services that a change mentions, in order. -/
def Change.mentions : Change → List String
  | .service name => [name]
  | .dependency dependent needed => [needed, dependent]

/-- The services that changes mention, in order, each as often as it is mentioned. -/
def mentions (changes : List Change) : List String := changes.flatMap Change.mentions

namespace Register

variable {G : Type} [NodeGraph G] {r r' : Register G}

/-- The register with one change made to it. -/
def change (r : Register G) : Change → Option (Register G)
  | .service name => some (r.addService name).1
  | .dependency dependent dependency => r.addDependency dependent dependency

/-- The register with changes made to it, one after the other. -/
def makeChanges (r : Register G) (changes : List Change) : Option (Register G) :=
  changes.foldlM change r

/-- The register that changes make. -/
def ofChanges (changes : List Change) : Option (Register G) := empty.makeChanges changes

theorem makeChanges_cons (r : Register G) (c : Change) (changes : List Change) :
    r.makeChanges (c :: changes) = (r.change c).bind (·.makeChanges changes) := rfl

theorem ofChanges_append (changes later : List Change) :
    (ofChanges (changes ++ later) : Option (Register G)) =
      (ofChanges changes).bind (·.makeChanges later) :=
  List.foldlM_append

/-! ### Registers in step -/

/-- A register after some services have been mentioned and some dependencies recorded. -/
structure InStep (r : Register G) (mentioned : List String) (recorded : String → String → Prop) :
    Prop where
  /-- The services that are mentioned have numbers, and no others. -/
  mem_mentioned_iff : ∀ name, name ∈ mentioned ↔ ∃ i, r.numbers.get? name = some i
  /-- A node carries a name just when its number stands under that name. So each service has one
  node, and each node one service. -/
  text?_eq_some_iff : ∀ name i, text? r.graph i = some name ↔ r.numbers.get? name = some i
  /-- The numbers are those below the number of nodes. -/
  lt_nodeCount_iff : ∀ i, i < nodeCount r.graph ↔ ∃ name, r.numbers.get? name = some i
  /-- They follow the order in which the services were first mentioned. -/
  number_lt_iff : ∀ {a b i j}, r.numbers.get? a = some i → r.numbers.get? b = some j →
    (i < j ↔ mentioned.idxOf a < mentioned.idxOf b)
  /-- No edge is there twice. -/
  nodup_edges : (edges r.graph).Nodup
  /-- The edges go from the number of a dependency to that of a service which needs it. -/
  mem_edges_iff : ∀ i j, (i, j) ∈ edges r.graph ↔
    ∃ a b, recorded a b ∧ r.numbers.get? a = some i ∧ r.numbers.get? b = some j
  /-- Both services of a dependency are mentioned. -/
  mentioned_of_recorded : ∀ {a b}, recorded a b → a ∈ mentioned ∧ b ∈ mentioned

namespace InStep

variable {mentioned : List String} {recorded : String → String → Prop}
  (h : r.InStep mentioned recorded)

include h

theorem lt_nodeCount {name : String} {i : Nat} (hi : r.numbers.get? name = some i) :
    i < nodeCount r.graph :=
  (h.lt_nodeCount_iff i).2 ⟨name, hi⟩

theorem mem_mentioned {name : String} {i : Nat} (hi : r.numbers.get? name = some i) :
    name ∈ mentioned :=
  (h.mem_mentioned_iff name).2 ⟨i, hi⟩

theorem notMem_mentioned {name : String} (hname : r.numbers.get? name = none) :
    name ∉ mentioned := by
  rw [h.mem_mentioned_iff, hname]
  simp

/-- What is mentioned later does not matter for the first mention of a service with a number. -/
theorem idxOf_append (later : List String) {name : String} {i : Nat}
    (hi : r.numbers.get? name = some i) : (mentioned ++ later).idxOf name = mentioned.idxOf name :=
  List.idxOf_append_of_mem (h.mem_mentioned hi)

/-- A service that has a number is mentioned again. -/
theorem mention_again {name : String} {i : Nat} (hi : r.numbers.get? name = some i) :
    r.InStep (mentioned ++ [name]) recorded where
  mem_mentioned_iff other := by
    rw [List.mem_append, List.mem_singleton, h.mem_mentioned_iff]
    exact or_iff_left_of_imp fun heq => ⟨i, heq ▸ hi⟩
  text?_eq_some_iff := h.text?_eq_some_iff
  lt_nodeCount_iff := h.lt_nodeCount_iff
  number_lt_iff ha hb := by
    rw [h.idxOf_append _ ha, h.idxOf_append _ hb]
    exact h.number_lt_iff ha hb
  nodup_edges := h.nodup_edges
  mem_edges_iff := h.mem_edges_iff
  mentioned_of_recorded hab :=
    (h.mentioned_of_recorded hab).imp (List.mem_append_left _) (List.mem_append_left _)

end InStep

/-- Numbers and nodes of one register are the same in another one. -/
structure KeptBy (r r' : Register G) : Prop where
  number : ∀ {name i}, r.numbers.get? name = some i → r'.numbers.get? name = some i
  text : ∀ {i name}, text? r.graph i = some name → text? r'.graph i = some name

theorem KeptBy.refl (r : Register G) : r.KeptBy r := ⟨id, id⟩

theorem KeptBy.trans {r'' : Register G} (h : r.KeptBy r') (h' : r'.KeptBy r'') : r.KeptBy r'' :=
  ⟨fun hi => h'.number (h.number hi), fun hi => h'.text (h.text hi)⟩

/-! ### What changes do -/

theorem addService_of_eq_some {name : String} {i : Nat} (h : r.numbers.get? name = some i) :
    r.addService name = (r, i) := by
  rw [addService, h]

theorem addDependency_eq (r : Register G) (dependent dependency : String) :
    r.addDependency dependent dependency =
      (updateEdge ((r.addService dependency).1.addService dependent).1.graph
        (r.addService dependency).2 ((r.addService dependency).1.addService dependent).2).map
          fun graph => { ((r.addService dependency).1.addService dependent).1 with graph } :=
  rfl

section

open LawfulNodeGraph

variable [LawfulNodeGraph G]

theorem addService_of_eq_none {name : String} (h : r.numbers.get? name = none) :
    r.addService name =
      (⟨r.numbers.insert name (nodeCount r.graph), (addNode r.graph name).1⟩,
        nodeCount r.graph) := by
  rw [addService, h]
  simp only [number_addNode]

/-- A service has the number that is given when it is mentioned; the others keep theirs. -/
theorem get?_addService (r : Register G) (name other : String) :
    (r.addService name).1.numbers.get? other =
      if other = name then some (r.addService name).2 else r.numbers.get? other := by
  cases h : r.numbers.get? name with
  | some i =>
    rw [addService_of_eq_some h]
    split
    · next heq => rw [heq, h]
    · rfl
  | none =>
    rw [addService_of_eq_none h]
    exact Table.get?_insert ..

theorem get?_addService_self (r : Register G) (name : String) :
    (r.addService name).1.numbers.get? name = some (r.addService name).2 := by
  rw [get?_addService, if_pos rfl]

/-- The number of a new service is the number of nodes before it. -/
theorem get?_addService_eq_some_iff {name : String} (hname : r.numbers.get? name = none)
    {other : String} {i : Nat} : (r.addService name).1.numbers.get? other = some i ↔
      other = name ∧ i = nodeCount r.graph ∨ r.numbers.get? other = some i := by
  rw [get?_addService, addService_of_eq_none hname]
  by_cases heq : other = name
  · simp [heq, hname, eq_comm]
  · simp [heq]

theorem nodeCount_addService {name : String} (hname : r.numbers.get? name = none) :
    nodeCount (r.addService name).1.graph = nodeCount r.graph + 1 := by
  rw [addService_of_eq_none hname, nodeCount_addNode]

theorem text?_addService (r : Register G) (name : String) (i : Nat) :
    text? (r.addService name).1.graph i =
      if r.numbers.get? name = none ∧ i = nodeCount r.graph then some name
      else text? r.graph i := by
  cases h : r.numbers.get? name with
  | some j => rw [addService_of_eq_some h, if_neg (by simp)]
  | none =>
    rw [addService_of_eq_none h]
    simp [text?_addNode, number_addNode]

theorem edges_addService (r : Register G) (name : String) :
    edges (r.addService name).1.graph = edges r.graph := by
  cases h : r.numbers.get? name with
  | some i => rw [addService_of_eq_some h]
  | none => rw [addService_of_eq_none h, edges_addNode]

theorem keptBy_addService (r : Register G) (name : String) : r.KeptBy (r.addService name).1 where
  number {other i} hi := by
    rw [get?_addService]
    split
    · next heq =>
      subst heq
      rw [addService_of_eq_some hi]
    · exact hi
  text {i other} hi := by
    have hlt := lt_nodeCount hi
    rw [text?_addService, if_neg (by omega), hi]

/-! ### What one change preserves -/

namespace InStep

variable {mentioned : List String} {recorded : String → String → Prop}

/-- At first nothing is mentioned. -/
theorem empty : (Register.empty : Register G).InStep [] fun _ _ => False where
  mem_mentioned_iff := by simp [Register.empty]
  text?_eq_some_iff := by simp [Register.empty, text?_empty]
  lt_nodeCount_iff := by simp [Register.empty, nodeCount_empty]
  number_lt_iff hi := by simp [Register.empty] at hi
  nodup_edges := by simp [Register.empty, edges_empty]
  mem_edges_iff := by simp [Register.empty, edges_empty]
  mentioned_of_recorded h := h.elim

variable (h : r.InStep mentioned recorded)

include h

section

variable {name : String} (hname : r.numbers.get? name = none)

include hname

theorem get?_addService_of_mem {other : String} (hother : other ∈ mentioned) :
    (r.addService name).1.numbers.get? other = r.numbers.get? other := by
  rw [get?_addService, if_neg]
  rintro rfl
  exact h.notMem_mentioned hname hother

/-- A new service has the greatest number, and it is the last one to be mentioned first. -/
theorem number_lt_iff_addService {a b : String} {i j : Nat}
    (ha : (r.addService name).1.numbers.get? a = some i)
    (hb : (r.addService name).1.numbers.get? b = some j) :
    i < j ↔ (mentioned ++ [name]).idxOf a < (mentioned ++ [name]).idxOf b := by
  have hlast : (mentioned ++ [name]).idxOf name = mentioned.length := by
    simp [List.idxOf_append_of_notMem (h.notMem_mentioned hname)]
  have hbefore : ∀ {other k}, r.numbers.get? other = some k →
      k < nodeCount r.graph ∧ (mentioned ++ [name]).idxOf other < mentioned.length := by
    intro other k hk
    rw [h.idxOf_append _ hk]
    exact ⟨h.lt_nodeCount hk, List.idxOf_lt_length_of_mem (h.mem_mentioned hk)⟩
  -- Each of the two may be the new service.
  rcases (get?_addService_eq_some_iff hname).1 ha with ⟨rfl, rfl⟩ | hold <;>
    rcases (get?_addService_eq_some_iff hname).1 hb with ⟨rfl, rfl⟩ | hold'
  · simp
  · have := hbefore hold'
    omega
  · have := hbefore hold
    omega
  · rw [h.idxOf_append _ hold, h.idxOf_append _ hold']
    exact h.number_lt_iff hold hold'

/-- A service is mentioned for the first time. -/
theorem mention_new : (r.addService name).1.InStep (mentioned ++ [name]) recorded where
  mem_mentioned_iff other := by
    simp [get?_addService_eq_some_iff hname, exists_or, h.mem_mentioned_iff, or_comm]
  text?_eq_some_iff other i := by
    rw [get?_addService_eq_some_iff hname, text?_addService, ← h.text?_eq_some_iff]
    by_cases hi : i = nodeCount r.graph
    · have hnone : text? r.graph i ≠ some other := fun hsome =>
        absurd (LawfulNodeGraph.lt_nodeCount hsome) (by omega)
      simp [hi ▸ hnone, hname, hi, eq_comm]
    · simp [hi]
  lt_nodeCount_iff i := by
    simp only [get?_addService_eq_some_iff hname, nodeCount_addService hname, exists_or,
      exists_eq_left, ← h.lt_nodeCount_iff]
    omega
  number_lt_iff ha hb := h.number_lt_iff_addService hname ha hb
  nodup_edges := by
    rw [edges_addService]
    exact h.nodup_edges
  mem_edges_iff i j := by
    rw [edges_addService, h.mem_edges_iff]
    refine exists₂_congr fun a b => and_congr_right fun hab => ?_
    obtain ⟨ha, hb⟩ := h.mentioned_of_recorded hab
    rw [h.get?_addService_of_mem hname ha, h.get?_addService_of_mem hname hb]
  mentioned_of_recorded hab :=
    (h.mentioned_of_recorded hab).imp (List.mem_append_left _) (List.mem_append_left _)

end

/-- A service is mentioned. -/
theorem addService (name : String) :
    (r.addService name).1.InStep (mentioned ++ [name]) recorded := by
  cases hname : r.numbers.get? name with
  | some i =>
    rw [addService_of_eq_some hname]
    exact h.mention_again hname
  | none => exact h.mention_new hname

/-- An edge joins the nodes of two services. -/
theorem updateEdge {a b : String} {i j : Nat} (ha : r.numbers.get? a = some i)
    (hb : r.numbers.get? b = some j) :
    ∃ g, NodeGraph.updateEdge r.graph i j = some g ∧ r.KeptBy { r with graph := g } ∧
      InStep { r with graph := g } mentioned fun x y => recorded x y ∨ x = a ∧ y = b := by
  obtain ⟨g, hg⟩ := exists_updateEdge (h.lt_nodeCount ha) (h.lt_nodeCount hb)
  have htext := text?_updateEdge hg
  refine ⟨g, hg, ⟨id, fun hi => (htext _).trans hi⟩, ?_⟩
  constructor
  case mem_mentioned_iff => exact h.mem_mentioned_iff
  case text?_eq_some_iff =>
    intro name k
    rw [htext]
    exact h.text?_eq_some_iff name k
  case lt_nodeCount_iff =>
    rw [nodeCount_updateEdge hg]
    exact h.lt_nodeCount_iff
  case number_lt_iff => exact h.number_lt_iff
  case nodup_edges => exact nodup_edges_updateEdge hg h.nodup_edges
  case mem_edges_iff =>
    intro x y
    rw [mem_edges_updateEdge hg, h.mem_edges_iff]
    simp only [or_and_right, exists_or]
    refine or_congr Iff.rfl ⟨?_, ?_⟩
    · rintro ⟨⟩
      exact ⟨a, b, ⟨rfl, rfl⟩, ha, hb⟩
    · rintro ⟨_, _, ⟨rfl, rfl⟩, hx, hy⟩
      rw [ha] at hx
      rw [hb] at hy
      cases hx
      cases hy
      rfl
  case mentioned_of_recorded =>
    rintro x y (hxy | ⟨rfl, rfl⟩)
    · exact h.mentioned_of_recorded hxy
    · exact ⟨h.mem_mentioned ha, h.mem_mentioned hb⟩

/-- A dependency is recorded: its services are mentioned, and their nodes are joined. -/
theorem addDependency (dependent dependency : String) :
    ∃ r', r.addDependency dependent dependency = some r' ∧ r.KeptBy r' ∧
      r'.InStep (mentioned ++ [dependency, dependent])
        fun x y => recorded x y ∨ x = dependency ∧ y = dependent := by
  have hmentioned := (h.addService dependency).addService dependent
  have hkept := keptBy_addService r dependency
  have hkept' := keptBy_addService (r.addService dependency).1 dependent
  -- The number given first is still that of the dependency after the second mention.
  obtain ⟨g, hg, hkept'', hstep⟩ := hmentioned.updateEdge
    (hkept'.number (get?_addService_self r dependency)) (get?_addService_self _ dependent)
  rw [List.append_assoc, List.singleton_append] at hstep
  refine ⟨_, ?_, (hkept.trans hkept').trans hkept'', hstep⟩
  rw [addDependency_eq, hg, Option.map_some]

/-- Any change can be made. -/
theorem change (c : Change) :
    ∃ r', r.change c = some r' ∧ r.KeptBy r' ∧
      r'.InStep (mentioned ++ c.mentions) fun a b => recorded a b ∨ .dependency b a = c := by
  cases c with
  | service name =>
    refine ⟨_, rfl, keptBy_addService r name, ?_⟩
    simpa [Change.mentions] using h.addService name
  | dependency dependent dependency =>
    simpa [Change.mentions, Register.change, and_comm] using h.addDependency dependent dependency

/-! ### What a run preserves -/

/-- So can any changes, one after the other. -/
theorem makeChanges (changes : List Change) :
    ∃ r', r.makeChanges changes = some r' ∧ r.KeptBy r' ∧
      r'.InStep (mentioned ++ mentions changes) fun a b => recorded a b ∨ Recorded changes a b := by
  induction changes generalizing r mentioned recorded with
  | nil => exact ⟨r, rfl, .refl r, by simpa [mentions, Recorded] using h⟩
  | cons c changes ih =>
    -- The rest of the run starts from what the first change has mentioned and recorded.
    obtain ⟨r₁, hchange, hkept, hstep⟩ := h.change c
    obtain ⟨r', hrun, hkept', hstep'⟩ := ih hstep
    refine ⟨r', by rw [makeChanges_cons, hchange]; exact hrun, hkept.trans hkept', ?_⟩
    simpa [mentions, Recorded, or_assoc] using hstep'

end InStep

/-- **Numbers of services.** Any changes can be made, one after the other, and the register that
they make is in step with them. Whatever changes follow, what has a number keeps it. -/
theorem ofChanges_in_step (changes : List Change) :
    ∃ r : Register G, ofChanges changes = some r ∧
      r.InStep (mentions changes) (Recorded changes) ∧
      ∀ later, ∃ r', ofChanges (changes ++ later) = some r' ∧ r.KeptBy r' := by
  obtain ⟨r, hr, -, hstep⟩ := (InStep.empty (G := G)).makeChanges changes
  simp only [List.nil_append, false_or] at hstep
  refine ⟨r, hr, hstep, fun later => ?_⟩
  obtain ⟨r', hr', hkept, -⟩ := hstep.makeChanges later
  exact ⟨r', by rw [ofChanges_append, ofChanges, hr]; exact hr', hkept⟩

end

/-- A service that needs itself, a dependency that is recorded twice, and a service that is
mentioned again. -/
def repeatedChanges : List Change :=
  [.service "web", .dependency "web" "db", .dependency "web" "db", .dependency "db" "db",
    .service "web"]

/-- Two numbers and two edges. -/
theorem numbers_of_repeatedChanges :
    LawfulNodeGraph EdgeList ∧
      ∃ r : Register EdgeList, ofChanges repeatedChanges = some r ∧
        r = ⟨.ofList [("web", 0), ("db", 1)], ["web", "db"], [(1, 1), (1, 0)]⟩ ∧
        r.InStep (mentions repeatedChanges) (Recorded repeatedChanges) ∧
        ∀ later, ∃ r', ofChanges (repeatedChanges ++ later) = some r' ∧ r.KeptBy r' := by
  obtain ⟨r, hr, hstep, hlater⟩ := ofChanges_in_step (G := EdgeList) repeatedChanges
  exact ⟨inferInstance, r, hr, (Option.some.inj hr).symm, hstep, hlater⟩

/-! ### The graph of a register -/

theorem edge?_eq_some_iff {g : EdgeList} {pair : Nat × Nat} {e : Edge} :
    g.edge? pair = some e ↔
      g.texts[pair.1]? = some e.dependency ∧ g.texts[pair.2]? = some e.dependent := by
  obtain ⟨a, b⟩ := e
  simp [EdgeList.edge?, Option.bind_eq_some_iff]

namespace InStep

variable {r r' : Register EdgeList} {mentioned : List String} {recorded : String → String → Prop}
  (h : r.InStep mentioned recorded)

include h

theorem mem_named_services (name : String) :
    name ∈ r.named.services ↔ ∃ i, r.numbers.get? name = some i := by
  rw [named, List.mem_iff_getElem?]
  exact exists_congr fun i => h.text?_eq_some_iff name i

theorem mem_named_edges {a b : String} {i j : Nat} (ha : r.numbers.get? a = some i)
    (hb : r.numbers.get? b = some j) : ⟨a, b⟩ ∈ r.named.edges ↔ (i, j) ∈ r.graph.pairs := by
  rw [named, List.mem_filterMap]
  constructor
  · rintro ⟨⟨x, y⟩, hmem, hedge⟩
    obtain ⟨hx, hy⟩ := edge?_eq_some_iff.1 hedge
    have hx' := (h.text?_eq_some_iff a x).1 hx
    have hy' := (h.text?_eq_some_iff b y).1 hy
    rw [ha] at hx'
    rw [hb] at hy'
    cases hx'
    cases hy'
    exact hmem
  · intro hmem
    have hi := (h.text?_eq_some_iff a i).2 ha
    have hj := (h.text?_eq_some_iff b j).2 hb
    exact ⟨(i, j), hmem, edge?_eq_some_iff.2 ⟨hi, hj⟩⟩

/-- The number of a service is its place among the services of the graph. -/
theorem index_named {name : String} {i : Nat} (hi : r.numbers.get? name = some i) :
    r.named.index name = i := by
  have hmem := (h.mem_named_services name).2 ⟨i, hi⟩
  have hnumber := (h.text?_eq_some_iff name (r.named.index name)).1 (List.getElem?_idxOf hmem)
  rw [hi] at hnumber
  exact (Option.some.inj hnumber).symm

/-- One more node changes no edge. -/
theorem edge?_addNode (name : String) {pair : Nat × Nat} (hpair : pair ∈ r.graph.pairs) :
    (r.graph.addNode name).1.edge? pair = r.graph.edge? pair := by
  obtain ⟨a, b, -, ha, hb⟩ := (h.mem_edges_iff pair.1 pair.2).1 hpair
  simp only [EdgeList.edge?, EdgeList.addNode]
  rw [List.getElem?_append_left (h.lt_nodeCount ha), List.getElem?_append_left (h.lt_nodeCount hb)]

theorem named_addService (name : String) :
    (r.addService name).1.named = r.named.addService name := by
  have hmem := h.mem_named_services name
  cases hname : r.numbers.get? name with
  | some i =>
    rw [addService_of_eq_some hname, Graph.addService, if_pos (hmem.2 ⟨i, hname⟩)]
  | none =>
    rw [addService_of_eq_none hname, Graph.addService, if_neg (by simp [hmem, hname])]
    have hedges := List.filterMap_congr fun pair hpair => h.edge?_addNode name hpair
    exact congrArg (Graph.mk _) hedges

theorem named_updateEdge {a b : String} {i j : Nat} (ha : r.numbers.get? a = some i)
    (hb : r.numbers.get? b = some j) {g : EdgeList} (hg : r.graph.updateEdge i j = some g) :
    named { r with graph := g } = r.named.addEdge ⟨a, b⟩ := by
  have hmem := h.mem_named_edges ha hb
  rw [EdgeList.updateEdge, if_pos ⟨h.lt_nodeCount ha, h.lt_nodeCount hb⟩] at hg
  cases hg
  by_cases hthere : (i, j) ∈ r.graph.pairs
  · rw [Graph.addEdge, if_pos (hmem.2 hthere), if_pos hthere]
  · rw [Graph.addEdge, if_neg (hmem.not.2 hthere), if_neg hthere]
    have hedge : r.graph.edge? (i, j) = some ⟨a, b⟩ :=
      edge?_eq_some_iff.2 ⟨(h.text?_eq_some_iff a i).2 ha, (h.text?_eq_some_iff b j).2 hb⟩
    exact congrArg (Graph.mk _) (List.filterMap_cons_some hedge)

theorem named_addDependency {dependent dependency : String}
    (hr' : r.addDependency dependent dependency = some r') :
    r'.named = r.named.addDependency dependent dependency := by
  rw [addDependency_eq] at hr'
  obtain ⟨g, hg, rfl⟩ := Option.map_eq_some_iff.1 hr'
  have hfirst := h.addService dependency
  have hkept := keptBy_addService (r.addService dependency).1 dependent
  rw [(hfirst.addService dependent).named_updateEdge
    (hkept.number (get?_addService_self r dependency)) (get?_addService_self _ dependent) hg,
    hfirst.named_addService, h.named_addService, Graph.addDependency]

theorem named_change {c : Change} (hr' : r.change c = some r') : r'.named = r.named.change c := by
  cases c with
  | service name =>
    cases hr'
    exact h.named_addService name
  | dependency dependent dependency => exact h.named_addDependency hr'

theorem named_makeChanges {changes : List Change} (hr' : r.makeChanges changes = some r') :
    r'.named = changes.foldl Graph.change r.named := by
  induction changes generalizing r mentioned recorded with
  | nil =>
    cases hr'
    rfl
  | cons c changes ih =>
    obtain ⟨r₁, hchange, -, hstep⟩ := h.change c
    rw [makeChanges_cons, hchange] at hr'
    rw [ih hstep hr', h.named_change hchange, List.foldl_cons]

end InStep

/-- A register made by changes stands for the graph that the same changes make, so both have the
same start order, and the number of a service is its place among the services of that graph. -/
theorem named_ofChanges (changes : List Change) :
    ∃ r : Register EdgeList, ofChanges changes = some r ∧ r.named = Graph.ofChanges changes ∧
      ∀ name i, r.numbers.get? name = some i → (Graph.ofChanges changes).index name = i := by
  have hempty : (empty : Register EdgeList).InStep [] fun _ _ => False := .empty
  obtain ⟨r, hr, -, hstep⟩ := hempty.makeChanges changes
  have hnamed : r.named = Graph.ofChanges changes := hempty.named_makeChanges hr
  refine ⟨r, hr, hnamed, fun name i hi => ?_⟩
  rw [← hnamed, hstep.index_named hi]

/-- The changes by which the graph of some services is made. -/
def changesFor (services : Services) : List Change :=
  services.names.map .service ++ services.entries.flatMap fun e =>
    ((references e.2).filter fun d => services.contains d && d ≠ e.1).map (.dependency e.1)

theorem ofChanges_changesFor (services : Services) :
    Graph.ofChanges (changesFor services) = Graph.ofServices services := by
  rw [Graph.ofChanges, changesFor, List.foldl_append, List.foldl_map, List.foldl_flatMap]
  simp only [List.foldl_map]
  rfl

/-- The graph of some services is that of a register, too, with the numbers of the register. -/
theorem named_changesFor (services : Services) :
    ∃ r : Register EdgeList, ofChanges (changesFor services) = some r ∧
      r.named = Graph.ofServices services ∧
      ∀ name i, r.numbers.get? name = some i → (Graph.ofServices services).index name = i := by
  rw [← ofChanges_changesFor]
  exact named_ofChanges (changesFor services)

end Register
end Dependency
end ComposeMerge
