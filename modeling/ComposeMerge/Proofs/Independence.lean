import ComposeMerge.Proofs.AtomicLoad
import ComposeMerge.Proofs.NameByName

/-!
# Services do not influence one another

A run of manifests does to one service what it does when every manifest defines that service only.

* `Manifest.reduce` leaves one service in a document, and `Manifest.loadOnly` loads a manifest that
  way;
* `Project.Defines` and `Project.declarations` tell which manifests define a name, and how;
* `Project.foldlM_step_only` and its siblings say what the steps of one name come to;
* `Project.services_do_not_interfere` puts this together.
-/

namespace ComposeMerge

open Entries (Sorted get?)

/-! ### Documents with one service -/

namespace Manifest

/-- The manifest with the definition of one service only. -/
def only (s : String) (m : Manifest) : Manifest :=
  { m with services := m.services.filter fun e => e.1 = s }

/-- A mapping with the entry of one name only. -/
def onlyEntry (s : String) : Value → Value
  | .mapping es => .mapping (es.filter fun e => e.1 = s)
  | v => v

/-- The top-level entries of a document of some major version, without the other services. -/
def onlyIn (s : String) (major : Nat) (root : Entries Value) : Entries Value :=
  if major < 2 then root.filter fun e => e.1 = versionKey || e.1 = s
  else root.map fun e => (e.1, if e.1 = "services" then onlyEntry s e.2 else e.2)

/-- A document without the other services; `source` gives the text of its version. -/
def reduce (source : Except Error String) (s : String) (document : Value) :
    Except Error Value := do
  let root ← rootEntries document
  let version ← declaredVersion source root
  let major ← majorVersion version
  .ok (.mapping (onlyIn s major root))

/-- The manifest that some bytes hold, of which the other services are left out. -/
def loadOnly (s : String) (bytes : Bytes) : Except Error Manifest := do
  let document ← loadValue bytes
  let reduced ← reduce (versionText bytes) s document
  ofTree (versionText bytes) reduced

/-- A service that is left out is not defined. -/
theorem get?_only (s name : String) (m : Manifest) :
    get? name ((m.only s).entries .service) =
      if name = s then get? name (m.entries .service) else none := by
  have hfilter := Entries.get?_filter (fun key => decide (key = s)) name m.services
  simp only [decide_eq_true_eq] at hfilter
  exact hfilter

/-- The version stays, and so does what is no service. -/
theorem get?_onlyIn_of_ne {s name : String} {major : Nat} {root : Entries Value}
    (hkeep : name = versionKey ∨ ¬major < 2) (hname : name ≠ "services") :
    get? name (onlyIn s major root) = get? name root := by
  unfold onlyIn
  split
  · next hlegacy =>
    have hversion := hkeep.resolve_right (not_not_intro hlegacy)
    rw [Entries.get?_filter fun key => decide (key = versionKey) || decide (key = s)]
    simp [hversion]
  · rw [Entries.get?_map fun key v => if key = "services" then onlyEntry s v else v]
    simp [hname]

theorem section?_onlyIn_of_ne {s name : String} {major : Nat} {root : Entries Value}
    (hmajor : ¬major < 2) (hname : name ≠ "services") :
    (section? (onlyIn s major root) name) = section? root name := by
  rw [section?, get?_onlyIn_of_ne (.inr hmajor) hname, section?]

theorem sectionEntries_onlyEntry {s name : String} {v : Value} {es : Entries Value}
    (h : sectionEntries name v = .ok es) :
    sectionEntries name (onlyEntry s v) = .ok (es.filter fun e => e.1 = s) := by
  unfold sectionEntries at h
  split at h
  · cases h
    rfl
  · cases h
    rfl
  · cases h

theorem section?_services_onlyIn {s : String} {major : Nat} {root es : Entries Value}
    (hmajor : ¬major < 2) (h : section? root "services" = .ok es) :
    (section? (onlyIn s major root) "services") = .ok (es.filter fun e => e.1 = s) := by
  have hget : get? "services" (onlyIn s major root) =
      (get? "services" root).map (onlyEntry s) := by
    rw [onlyIn, if_neg hmajor,
      Entries.get?_map fun key v => if key = "services" then onlyEntry s v else v]
    simp
  unfold section? at h ⊢
  rw [hget]
  cases hv : get? "services" root with
  | none =>
    rw [hv] at h
    cases h
    rfl
  | some v =>
    rw [hv] at h
    exact sectionEntries_onlyEntry h

theorem erase_version_onlyIn {s : String} {major : Nat} {root : Entries Value}
    (hlegacy : major < 2) :
    (onlyIn s major root).erase versionKey =
      (root.erase versionKey).filter fun e => e.1 = s := by
  rw [onlyIn, if_pos hlegacy, Entries.erase, Entries.erase, List.filter_filter,
    List.filter_filter]
  refine List.filter_congr fun e _ => ?_
  by_cases hversion : e.1 = versionKey <;> simp [hversion]

theorem serviceEntries_filter {entries : Entries Value} {services : RawServices} (s : String)
    (h : serviceEntries entries = .ok services) :
    serviceEntries (entries.filter fun e => e.1 = s) =
      .ok (services.filter fun e => e.1 = s) :=
  Entries.traverse_filter (fun name => decide (name = s)) h

/-- Leaving services out of a document leaves them out of its manifest. -/
theorem ofTree_reduce {source : Except Error String} {document : Value} {m : Manifest}
    (s : String) (h : ofTree source document = .ok m) :
    ∃ reduced, reduce source s document = .ok reduced ∧ ofTree source reduced = .ok (m.only s) := by
  obtain ⟨root, hroot, h⟩ := Outcome.bind_eq_ok_iff.1 h
  obtain ⟨version, hversion, h⟩ := Outcome.bind_eq_ok_iff.1 h
  obtain ⟨major, hmajor, h⟩ := Outcome.bind_eq_ok_iff.1 h
  refine ⟨.mapping (onlyIn s major root), ?_, ?_⟩
  · rw [reduce, hroot, Outcome.bind_ok, hversion, Outcome.bind_ok, hmajor]
    rfl
  · have hdeclared : declaredVersion source (onlyIn s major root) = .ok version := by
      rw [declaredVersion, get?_onlyIn_of_ne (.inl rfl) (by decide)]
      exact hversion
    rw [ofTree, rootEntries, Outcome.bind_ok, hdeclared, Outcome.bind_ok, hmajor, Outcome.bind_ok]
    by_cases hlegacy : major < 2
    · rw [if_pos hlegacy] at h ⊢
      obtain ⟨services, hservices, h⟩ := Outcome.bind_eq_ok_iff.1 h
      cases h
      rw [erase_version_onlyIn hlegacy, serviceEntries_filter s hservices]
      rfl
    · rw [if_neg hlegacy] at h ⊢
      obtain ⟨services, hservices, h⟩ := Outcome.bind_eq_ok_iff.1 h
      obtain ⟨volumes, hvolumes, h⟩ := Outcome.bind_eq_ok_iff.1 h
      obtain ⟨networks, hnetworks, h⟩ := Outcome.bind_eq_ok_iff.1 h
      cases h
      obtain ⟨es, hes, hservices⟩ := Outcome.bind_eq_ok_iff.1 hservices
      have hreduced : (section? (onlyIn s major root) "services").bind serviceEntries =
          .ok (services.filter fun e => e.1 = s) := by
        rw [section?_services_onlyIn hlegacy hes]
        exact serviceEntries_filter s hservices
      rw [hreduced, section?_onlyIn_of_ne hlegacy (by decide), hvolumes,
        Manifest.section?_onlyIn_of_ne hlegacy (by decide), hnetworks]
      rfl

theorem loadOnly_of_load {bytes : Bytes} {m : Manifest} (s : String) (h : load bytes = .ok m) :
    loadOnly s bytes = .ok (m.only s) := by
  obtain ⟨document, hdocument, h⟩ := Outcome.bind_eq_ok_iff.1 h
  obtain ⟨reduced, hreduced, h⟩ := ofTree_reduce s h
  rw [loadOnly, hdocument, Outcome.bind_ok, hreduced, Outcome.bind_ok, h]

/-! ### Names in order -/

theorem ordered_ofTree {source : Except Error String} {document : Value} {m : Manifest}
    (hdocument : document.Canonical) (h : ofTree source document = .ok m) : m.Ordered := by
  have hservices := (canonical_ofTree hdocument h).sorted
  obtain ⟨root, hroot, h⟩ := Outcome.bind_eq_ok_iff.1 h
  obtain ⟨version, -, h⟩ := Outcome.bind_eq_ok_iff.1 h
  obtain ⟨major, -, h⟩ := Outcome.bind_eq_ok_iff.1 h
  have hcanonical := canonical_rootEntries hdocument hroot
  by_cases hmajor : major < 2
  · rw [if_pos hmajor] at h
    obtain ⟨services, -, h⟩ := Outcome.bind_eq_ok_iff.1 h
    cases h
    intro k
    cases k with
    | service => exact hservices
    | volume => exact Entries.sorted_nil
    | network => exact Entries.sorted_nil
  · rw [if_neg hmajor] at h
    obtain ⟨services, -, h⟩ := Outcome.bind_eq_ok_iff.1 h
    obtain ⟨volumes, hvolumes, h⟩ := Outcome.bind_eq_ok_iff.1 h
    obtain ⟨networks, hnetworks, h⟩ := Outcome.bind_eq_ok_iff.1 h
    cases h
    intro k
    cases k with
    | service => exact hservices
    | volume => exact (canonical_section? hcanonical hvolumes).sorted
    | network => exact (canonical_section? hcanonical hnetworks).sorted

theorem ordered_load {bytes : Bytes} {m : Manifest} (h : load bytes = .ok m) : m.Ordered := by
  obtain ⟨document, hdocument, h⟩ := Outcome.bind_eq_ok_iff.1 h
  exact ordered_ofTree (canonical_loadValue hdocument) h

theorem Ordered.only {m : Manifest} (h : m.Ordered) (s : String) : (m.only s).Ordered := by
  intro k
  cases k with
  | service => exact (h .service).filter _
  | volume => exact h .volume
  | network => exact h .network

end Manifest

/-! ### Steps of one name -/

namespace Project

open Merging

variable {around : Surroundings} {options : Options} {ms : List (Path × Manifest)}

theorem step_of_none {k : Element} {name : String} {source : Path × Manifest}
    (h : get? name (source.2.entries k) = none) (x : Option k.Config) :
    step around options k name x source = .ok x := by
  rw [step, h]

theorem step_of_some {k : Element} {name : String} {source : Path × Manifest} {raw : k.Raw}
    (h : get? name (source.2.entries k) = some raw) (x : Option k.Config) :
    step around options k name x source = (elementOf around options source k name x raw).map some := by
  rw [step, h]

/-- A name that is not defined keeps what is stored under it. -/
theorem foldlM_step_of_none {k : Element} {name : String}
    (h : ∀ source ∈ ms, get? name (source.2.entries k) = none) (x : Option k.Config) :
    ms.foldlM (step around options k name) x = .ok x := by
  induction ms with
  | nil => rfl
  | cons source ms ih =>
    obtain ⟨hsource, hms⟩ := List.forall_mem_cons.1 h
    rw [List.foldlM_cons, step_of_none hsource, Outcome.bind_ok, ih hms]

/-- Something is stored under a name in the end when something was, or when it is defined. -/
theorem isSome_foldlM_step {k : Element} {name : String} {x y : Option k.Config}
    (h : ms.foldlM (step around options k name) x = .ok y) :
    y.isSome = true ↔ x.isSome = true ∨
      ∃ source ∈ ms, (get? name (source.2.entries k)).isSome = true := by
  induction ms generalizing x with
  | nil =>
    cases h
    simp
  | cons source ms ih =>
    obtain ⟨x', hx', hrest⟩ := Outcome.bind_eq_ok_iff.1 h
    rw [ih hrest]
    cases hget : get? name (source.2.entries k) with
    | none =>
      rw [step_of_none hget] at hx'
      cases hx'
      simp [hget]
    | some raw =>
      rw [step, hget] at hx'
      obtain ⟨c, -, rfl⟩ := Outcome.map_eq_ok_iff.1 hx'
      simp [hget]

/-- How manifests define a name, in their order. -/
def definitionsIn (k : Element) (name : String) (ms : List (Path × Manifest)) : List k.Raw :=
  ms.filterMap fun source => get? name (source.2.entries k)

/-- What depends on its definition alone ends as its last definition gives it. -/
theorem foldlM_step_of_last {k : Element} {name : String} {make : k.Raw → Except Error k.Config}
    (hmake : ∀ source x raw, elementOf around options source k name x raw = make raw)
    {x y : Option k.Config} (h : ms.foldlM (step around options k name) x = .ok y) :
    (definitionsIn k name ms).getLast?.elim (.ok x) (fun raw => (make raw).map some) = .ok y := by
  induction ms generalizing x with
  | nil => exact h
  | cons source ms ih =>
    obtain ⟨x', hx', hrest⟩ := Outcome.bind_eq_ok_iff.1 h
    have hlast := ih hrest
    cases hget : get? name (source.2.entries k) with
    | none =>
      rw [step_of_none hget] at hx'
      cases hx'
      have hskip : definitionsIn k name (source :: ms) = definitionsIn k name ms := by
        simp [definitionsIn, hget]
      rw [hskip]
      exact hlast
    | some raw =>
      rw [step, hget] at hx'
      dsimp only at hx'
      rw [hmake] at hx'
      have hcons : definitionsIn k name (source :: ms) = raw :: definitionsIn k name ms := by
        simp [definitionsIn, hget]
      rw [hcons, List.getLast?_cons]
      -- Later definitions count, if there are any.
      cases hlater : (definitionsIn k name ms).getLast? with
      | none =>
        rw [hlater] at hlast
        cases hlast
        exact hx'
      | some later =>
        rw [hlater] at hlast
        exact hlast

/-- Two manifests of which only one defines a name can change places. -/
theorem step_comm {k : Element} {name : String} {a b : Path × Manifest}
    (h : get? name (a.2.entries k) = none ∨ get? name (b.2.entries k) = none)
    (x : Option k.Config) :
    (step around options k name x a >>= fun x => step around options k name x b) =
      step around options k name x b >>= fun x => step around options k name x a := by
  rcases h with h | h
  · simp only [step_of_none h, Outcome.bind_ok]
    cases step around options k name x b <;> rfl
  · simp only [step_of_none h, Outcome.bind_ok]
    cases step around options k name x a <;> rfl

/-- A name that two neighbours do not share sees the same steps when they change places. -/
theorem foldlM_step_swap {k : Element} {name : String} {a b : Path × Manifest}
    {before after : List (Path × Manifest)}
    (h : get? name (a.2.entries k) = none ∨ get? name (b.2.entries k) = none)
    (x : Option k.Config) :
    (before ++ b :: a :: after).foldlM (step around options k name) x =
      (before ++ a :: b :: after).foldlM (step around options k name) x := by
  simp only [List.foldlM_append, List.foldlM_cons, ← bind_assoc, step_comm h]

/-- Leaving out the other services changes no step of a service that is left, and none of a volume
or a network. -/
theorem step_only (s : String) {k : Element} {name : String} (h : k = .service → name = s)
    (x : Option k.Config) (source : Path × Manifest) :
    step around options k name x (source.1, source.2.only s) =
      step around options k name x source := by
  have hget : get? name ((source.2.only s).entries k) = get? name (source.2.entries k) := by
    cases k with
    | service => rw [Manifest.get?_only, if_pos (h rfl)]
    | volume => rfl
    | network => rfl
  have hmake : elementOf around options (source.1, source.2.only s) k =
      elementOf around options source k := by
    cases k <;> rfl
  unfold step
  rw [hget, hmake]

theorem foldlM_step_only (s : String) {k : Element} {name : String} (h : k = .service → name = s)
    (x : Option k.Config) :
    (ms.map fun source => (source.1, source.2.only s)).foldlM (step around options k name) x =
      ms.foldlM (step around options k name) x := by
  simp only [List.foldlM_map, step_only s h]

/-! ### Runs of loaded manifests -/

/-- A manifest as `load` finds it in its content. -/
def loaded (load : Bytes → Except Error Manifest) (source : Path × Except Error Bytes) :
    Except Error (Path × Manifest) :=
  (source.2.bind load).map fun m => (source.1, m)

/-- The project with manifests added one after the other, as `load` finds them. -/
def addLoaded (load : Bytes → Except Error Manifest) (p : Project)
    (sources : List (Path × Except Error Bytes)) : Except Error Project :=
  sources.foldlM (fun p source => loaded load source >>= p.addManifest) p

variable {p q : Project} {sources : List (Path × Except Error Bytes)}

theorem add_eq_addManifest (p : Project) (path : Path) (content : Except Error Bytes) :
    content.bind (p.add path) = loaded Manifest.load (path, content) >>= p.addManifest := by
  cases content with
  | error e => rfl
  | ok bytes =>
    have hadd : (Except.ok bytes : Except Error Bytes).bind (p.add path) = p.add path bytes := rfl
    have hload : loaded Manifest.load (path, .ok bytes) =
        (Manifest.load bytes).map fun m => (path, m) := rfl
    rw [hadd, hload, add, merge]
    cases Manifest.load bytes <;> rfl

/-- Adding manifests is loading each and merging it. -/
theorem addAll_eq_ok_iff_addLoaded :
    p.addAll sources = (q, .ok ()) ↔ p.addLoaded Manifest.load sources = .ok q := by
  induction sources generalizing p with
  | nil => simp [addAll, addLoaded, pure, Except.pure]
  | cons source sources ih =>
    obtain ⟨path, content⟩ := source
    rw [addLoaded, List.foldlM_cons, ← add_eq_addManifest]
    cases hadd : content.bind (p.add path) with
    | error e => simp [addAll_cons_of_error hadd]
    | ok p' =>
      rw [addAll_cons_of_ok hadd, ih]
      rfl

/-- All manifests can be loaded before the first one is merged. -/
theorem addLoaded_eq_ok_iff {load : Bytes → Except Error Manifest} :
    p.addLoaded load sources = .ok q ↔
      ∃ ms, sources.mapM (loaded load) = .ok ms ∧ p.addManifests ms = .ok q := by
  induction sources generalizing p with
  | nil =>
    constructor
    · intro h
      exact ⟨[], rfl, h⟩
    · rintro ⟨ms, hms, h⟩
      cases hms
      exact h
  | cons source sources ih =>
    rw [addLoaded, List.foldlM_cons]
    simp only [Outcome.bind_eq_ok_iff, Outcome.mapM_cons_eq_ok_iff]
    constructor
    · rintro ⟨p', ⟨m, hm, hp'⟩, hrest⟩
      obtain ⟨ms, hms, hq⟩ := ih.1 hrest
      exact ⟨m :: ms, ⟨m, ms, hm, hms, rfl⟩, Outcome.bind_eq_ok_iff.2 ⟨p', hp', hq⟩⟩
    · rintro ⟨_, ⟨m, ms, hm, hms, rfl⟩, h⟩
      obtain ⟨p', hp', hq⟩ := Outcome.bind_eq_ok_iff.1 h
      exact ⟨p', ⟨m, hm, hp'⟩, ih.2 ⟨ms, hms, hq⟩⟩

theorem ordered_of_loaded {source : Path × Except Error Bytes} {m : Path × Manifest}
    (h : loaded Manifest.load source = .ok m) : m.2.Ordered := by
  obtain ⟨m', hm', rfl⟩ := Outcome.map_eq_ok_iff.1 h
  obtain ⟨bytes, -, hload⟩ := Outcome.bind_eq_ok_iff.1 hm'
  exact Manifest.ordered_load hload

theorem ordered_of_mapM (h : sources.mapM (loaded Manifest.load) = .ok ms) :
    ∀ source ∈ ms, source.2.Ordered := by
  rw [Outcome.mapM_eq_ok_iff_forall₂] at h
  induction h with
  | nil => simp
  | cons hsource _ ih => exact List.forall_mem_cons.2 ⟨ordered_of_loaded hsource, ih⟩

/-- Where manifests load, they load without their other services. -/
theorem mapM_loadOnly (s : String) (h : sources.mapM (loaded Manifest.load) = .ok ms) :
    sources.mapM (loaded (Manifest.loadOnly s)) =
      .ok (ms.map fun source => (source.1, source.2.only s)) := by
  rw [Outcome.mapM_eq_ok_iff_forall₂] at h ⊢
  rw [List.forall₂_map_right_iff]
  refine h.imp fun source m hm => ?_
  obtain ⟨m', hm', rfl⟩ := Outcome.map_eq_ok_iff.1 hm
  obtain ⟨bytes, hbytes, hload⟩ := Outcome.bind_eq_ok_iff.1 hm'
  rw [loaded, hbytes]
  exact Outcome.map_eq_ok_iff.2 ⟨_, Manifest.loadOnly_of_load s hload, rfl⟩

/-- Whether sources hold manifests without their other services, as documents of their own. -/
def AreReduced (s : String) (reduced sources : List (Path × Except Error Bytes)) : Prop :=
  List.Forall₂ (fun r source =>
    r.1 = source.1 ∧ r.2.bind Manifest.load = source.2.bind (Manifest.loadOnly s)) reduced sources

theorem mapM_loaded_of_areReduced {s : String} {reduced : List (Path × Except Error Bytes)}
    (h : AreReduced s reduced sources) :
    reduced.mapM (loaded Manifest.load) = sources.mapM (loaded (Manifest.loadOnly s)) := by
  induction h with
  | nil => rfl
  | cons hsource _ ih =>
    obtain ⟨hpath, hload⟩ := hsource
    rw [List.mapM_cons, List.mapM_cons, ih, loaded, loaded, hpath, hload]

/-! ### What manifests define -/

/-- Whether some bytes hold a manifest that defines a name. -/
def Defines (k : Element) (name : String) (content : Except Error Bytes) : Prop :=
  ∃ m, content.bind Manifest.load = .ok m ∧ (get? name (m.entries k)).isSome = true

/-- The definitions of a name in manifests, in their order. -/
def declarations (k : Element) (name : String) (sources : List (Path × Except Error Bytes)) :
    List k.Raw :=
  definitionsIn k name (sources.filterMap fun source => (loaded Manifest.load source).toOption)

theorem defines_iff_of_loaded {source : Path × Except Error Bytes} {m : Path × Manifest}
    (h : loaded Manifest.load source = .ok m) (k : Element) (name : String) :
    Defines k name source.2 ↔ (get? name (m.2.entries k)).isSome = true := by
  obtain ⟨m', hm', rfl⟩ := Outcome.map_eq_ok_iff.1 h
  constructor
  · rintro ⟨m'', hm'', hname⟩
    cases hm'.symm.trans hm''
    exact hname
  · exact fun hname => ⟨m', hm', hname⟩

theorem get?_eq_none_of_not_defines {source : Path × Except Error Bytes} {m : Path × Manifest}
    (h : loaded Manifest.load source = .ok m) {k : Element} {name : String}
    (hname : ¬Defines k name source.2) : get? name (m.2.entries k) = none := by
  rw [defines_iff_of_loaded h, Bool.not_eq_true, Option.isSome_eq_false_iff, Option.isNone_iff_eq_none]
    at hname
  exact hname

theorem declarations_of_loaded (h : sources.mapM (loaded Manifest.load) = .ok ms) (k : Element)
    (name : String) : declarations k name sources = definitionsIn k name ms := by
  have hms : (sources.filterMap fun source => (loaded Manifest.load source).toOption) = ms := by
    rw [Outcome.mapM_eq_ok_iff_forall₂] at h
    induction h with
    | nil => rfl
    | cons hsource _ ih => rw [List.filterMap_cons_some (by rw [hsource]; rfl), ih]
  rw [declarations, hms]

theorem exists_defines_iff (h : sources.mapM (loaded Manifest.load) = .ok ms) (k : Element)
    (name : String) :
    (∃ source ∈ sources, Defines k name source.2) ↔
      ∃ m ∈ ms, (get? name (m.2.entries k)).isSome = true := by
  rw [Outcome.mapM_eq_ok_iff_forall₂] at h
  induction h with
  | nil => simp
  | cons hsource _ ih =>
    simp only [List.exists_mem_cons_iff, ih, defines_iff_of_loaded hsource]

/-! ### The properties of a run -/

section Run

variable (hooks : p.options.NoHooks)

include hooks

/-- A service ends as it does when its definitions stand alone. -/
theorem addLoaded_loadOnly (hms : sources.mapM (loaded Manifest.load) = .ok ms)
    (hq : p.addManifests ms = .ok q) (s : String) :
    ∃ q', p.addLoaded (Manifest.loadOnly s) sources = .ok q' ∧
      (∀ reduced, AreReduced s reduced sources → p.addAll reduced = (q', .ok ())) ∧
      q'.state.services.get? s = q.state.services.get? s := by
  have hordered := ordered_of_mapM hms
  obtain ⟨hsupported, -, hsteps⟩ := steps_of_addManifests hooks hordered hq
  have hordered' : ∀ source ∈ ms.map fun source => (source.1, source.2.only s),
      source.2.Ordered :=
    List.forall_mem_map.2 fun source hsource => (hordered source hsource).only s
  -- The other services keep what is stored; everything else takes the same steps.
  obtain ⟨q', hq'⟩ := addManifests_ok (p := p) hooks hordered'
    (List.forall_mem_map.2 fun source hsource => hsupported source hsource) fun k name => by
      by_cases hname : k = .service → name = s
      · exact ⟨_, (foldlM_step_only s hname _).trans (hsteps k name)⟩
      · obtain ⟨rfl, hne⟩ := Classical.not_imp.1 hname
        exact ⟨_, foldlM_step_of_none
          (List.forall_mem_map.2 fun source _ => by rw [Manifest.get?_only, if_neg hne]) _⟩
  refine ⟨q', addLoaded_eq_ok_iff.2 ⟨_, mapM_loadOnly s hms, hq'⟩, fun reduced hreduced => ?_, ?_⟩
  · have hload := (mapM_loaded_of_areReduced hreduced).trans (mapM_loadOnly s hms)
    exact addAll_eq_ok_iff_addLoaded.2 (addLoaded_eq_ok_iff.2 ⟨_, hload, hq'⟩)
  obtain ⟨-, -, hsteps'⟩ := steps_of_addManifests hooks hordered' hq'
  have hsame := (foldlM_step_only s (fun _ => rfl) _).symm.trans (hsteps' .service s)
  exact Except.ok.inj (hsame.symm.trans (hsteps .service s))

/-- A manifest leaves a service alone that it does not define. -/
theorem add_of_not_defines {before after : List (Path × Except Error Bytes)} {path : Path}
    {content : Except Error Bytes} {s : String}
    (hrun : p.addAll (before ++ (path, content) :: after) = (q, .ok ()))
    (hnot : ¬Defines .service s content) :
    ∃ p₁ p₂, p.addAll before = (p₁, .ok ()) ∧ content.bind (p₁.add path) = .ok p₂ ∧
      p₂.state.services.get? s = p₁.state.services.get? s := by
  rw [addAll_eq_ok_iff_addLoaded, addLoaded, List.foldlM_append] at hrun
  obtain ⟨p₁, hp₁, hrest⟩ := Outcome.bind_eq_ok_iff.1 hrun
  obtain ⟨p₂, hp₂, -⟩ := Outcome.bind_eq_ok_iff.1 hrest
  obtain ⟨ms, hms, hadd⟩ := addLoaded_eq_ok_iff.1 hp₁
  obtain ⟨-, ⟨-, hoptions⟩, -⟩ := steps_of_addManifests hooks (ordered_of_mapM hms) hadd
  obtain ⟨m, hm, hadd'⟩ := Outcome.bind_eq_ok_iff.1 hp₂
  obtain ⟨-, -, hstep⟩ := step_of_addManifest (hoptions ▸ hooks) (ordered_of_loaded hm) hadd'
  have hkept := hstep .service s
  rw [step_of_none (get?_eq_none_of_not_defines hm hnot)] at hkept
  refine ⟨p₁, p₂, addAll_eq_ok_iff_addLoaded.2 hp₁, ?_, (Except.ok.inj hkept).symm⟩
  rw [add_eq_addManifest]
  exact hp₂

/-- Neighbours that share no name can change places. -/
theorem addManifests_swap {before after : List (Path × Manifest)} {a b : Path × Manifest}
    (hordered : ∀ source ∈ before ++ a :: b :: after, source.2.Ordered)
    (hdisjoint : ∀ k name, get? name (a.2.entries k) = none ∨ get? name (b.2.entries k) = none)
    (hq : p.addManifests (before ++ a :: b :: after) = .ok q) :
    ∃ q', p.addManifests (before ++ b :: a :: after) = .ok q' ∧
      ∀ k, q'.state.table k = q.state.table k := by
  have hperm : (before ++ b :: a :: after).Perm (before ++ a :: b :: after) :=
    (List.Perm.swap a b after).append_left before
  have hordered' : ∀ source ∈ before ++ b :: a :: after, source.2.Ordered :=
    fun source hsource => hordered source (hperm.mem_iff.1 hsource)
  obtain ⟨hsupported, -, hsteps⟩ := steps_of_addManifests hooks hordered hq
  have hsteps' : ∀ k name, (before ++ b :: a :: after).foldlM (step p.around p.options k name)
      ((p.state.table k).get? name) = .ok ((q.state.table k).get? name) := fun k name =>
    (foldlM_step_swap (hdisjoint k name) _).trans (hsteps k name)
  obtain ⟨q', hq'⟩ := addManifests_ok hooks hordered'
    (fun source hsource => hsupported source (hperm.mem_iff.1 hsource))
    fun k name => ⟨_, hsteps' k name⟩
  refine ⟨q', hq', fun k => Table.ext_get? fun name => ?_⟩
  obtain ⟨-, -, hsteps''⟩ := steps_of_addManifests hooks hordered' hq'
  exact Except.ok.inj ((hsteps'' k name).symm.trans (hsteps' k name))

end Run

/-- **Services do not influence one another.** In a run without hooks that adds all manifests to an
empty project,

* every service ends as it does when every manifest defines that service only;
* the services in the end are those that some manifest defines;
* a manifest leaves a service alone that it does not define;
* every volume and every network ends as its last definition is converted;
* two neighbouring manifests that define nothing under the same name can change places. -/
theorem services_do_not_interfere (hooks : p.options.NoHooks) (hempty : p.state = .empty)
    (hrun : p.addAll sources = (q, .ok ())) :
    (∀ s, ∃ q', p.addLoaded (Manifest.loadOnly s) sources = .ok q' ∧
      (∀ reduced, AreReduced s reduced sources → p.addAll reduced = (q', .ok ())) ∧
      q'.state.services.get? s = q.state.services.get? s) ∧
    (∀ s, s ∈ q.state.services.names ↔ ∃ source ∈ sources, Defines .service s source.2) ∧
    (∀ before path content after s, sources = before ++ (path, content) :: after →
      ¬Defines .service s content → ∃ p₁ p₂, p.addAll before = (p₁, .ok ()) ∧
        content.bind (p₁.add path) = .ok p₂ ∧
        p₂.state.services.get? s = p₁.state.services.get? s) ∧
    (∀ name, (declarations .volume name sources).getLast?.elim (.ok none) (fun v =>
        (entryOf p.around.environment p.options .empty VolumeConfig.read name v).map some) =
      .ok (q.state.volumes.get? name)) ∧
    (∀ name, (declarations .network name sources).getLast?.elim (.ok none) (fun v =>
        (entryOf p.around.environment p.options .empty NetworkConfig.read name v).map some) =
      .ok (q.state.networks.get? name)) ∧
    ∀ before a b after, sources = before ++ a :: b :: after →
      (∀ k name, ¬(Defines k name a.2 ∧ Defines k name b.2)) →
        ∃ q', p.addAll (before ++ b :: a :: after) = (q', .ok ()) ∧
          q'.state.services = q.state.services ∧ q'.state.volumes = q.state.volumes ∧
          q'.state.networks = q.state.networks := by
  obtain ⟨ms, hms, hq⟩ := addLoaded_eq_ok_iff.1 (addAll_eq_ok_iff_addLoaded.1 hrun)
  have hordered := ordered_of_mapM hms
  obtain ⟨-, -, hsteps⟩ := steps_of_addManifests hooks hordered hq
  have hstart : ∀ k name, (p.state.table k).get? name = none := by
    intro k name
    rw [hempty]
    cases k <;> rfl
  refine ⟨addLoaded_loadOnly hooks hms hq, fun s => ?_, ?_, fun name => ?_, fun name => ?_, ?_⟩
  · have hsome := isSome_foldlM_step (hsteps .service s)
    rw [hstart, Option.isSome_none] at hsome
    rw [Table.mem_names_iff, exists_defines_iff hms]
    exact hsome.trans (or_iff_right Bool.false_ne_true)
  · rintro before path content after s rfl hnot
    exact add_of_not_defines hooks hrun hnot
  · rw [declarations_of_loaded hms]
    have hlast := foldlM_step_of_last (fun _ _ _ => rfl) (hsteps .volume name)
    rw [hstart] at hlast
    exact hlast
  · rw [declarations_of_loaded hms]
    have hlast := foldlM_step_of_last (fun _ _ _ => rfl) (hsteps .network name)
    rw [hstart] at hlast
    exact hlast
  · rintro before a b after rfl hdisjoint
    obtain ⟨ms₁, _, hms₁, hrest, rfl⟩ := Outcome.mapM_append_eq_ok_iff.1 hms
    obtain ⟨ma, _, ha, hrest', rfl⟩ := Outcome.mapM_cons_eq_ok_iff.1 hrest
    obtain ⟨mb, ms₂, hb, hms₂, rfl⟩ := Outcome.mapM_cons_eq_ok_iff.1 hrest'
    obtain ⟨q', hq', htable⟩ := addManifests_swap hooks hordered
      (fun k name => (not_and_or.1 (hdisjoint k name)).imp (get?_eq_none_of_not_defines ha)
        (get?_eq_none_of_not_defines hb)) hq
    have hswapped : (before ++ b :: a :: after).mapM (loaded Manifest.load) =
        .ok (ms₁ ++ mb :: ma :: ms₂) :=
      Outcome.mapM_append_eq_ok_iff.2 ⟨ms₁, mb :: ma :: ms₂, hms₁,
        Outcome.mapM_cons_eq_ok_iff.2 ⟨mb, ma :: ms₂, hb,
          Outcome.mapM_cons_eq_ok_iff.2 ⟨ma, ms₂, ha, hms₂, rfl⟩, rfl⟩, rfl⟩
    exact ⟨q', addAll_eq_ok_iff_addLoaded.2 (addLoaded_eq_ok_iff.2 ⟨_, hswapped, hq'⟩),
      htable .service, htable .volume, htable .network⟩

/-- A manifest of version 1 and one of version 2 that share a service. -/
def mixedManifests : List (Path × Except Error Bytes) :=
  [("one.yml", .ok "web: {image: app}\ndb: {image: base}\n".toUTF8.toList),
   ("two.yml", .ok ("version: '2'\nservices: {web: {ports: [80]}, cache: {image: store}}\n" ++
      "volumes: {data: }\n").toUTF8.toList)]

/-- The service that both define is the same without the others. -/
theorem web_alone_of_mixedManifests :
    ∃ q', bare.addLoaded (Manifest.loadOnly "web") mixedManifests = .ok q' ∧
      q'.state.services.get? "web" =
        some ((ServiceConfig.empty.set .image (some "app")).set .ports ["80"]) := by
  have hrun : bare.addAll mixedManifests = ((bare.addAll mixedManifests).1, .ok ()) :=
    Prod.ext rfl (by decide +kernel)
  obtain ⟨q', hq', -, hsame⟩ := (services_do_not_interfere ⟨rfl, rfl⟩ rfl hrun).1 "web"
  exact ⟨q', hq', hsame.trans (by decide +kernel)⟩

end Project
end ComposeMerge
