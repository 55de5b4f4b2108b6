import ComposeMerge.Entries
import ComposeMerge.Proofs.Outcome

/-!
# Laws of entries

Entries are determined by what is found under each name.

* `Sorted.eq_of_get?` says so for entries in order;
* `get?_insertAll` and `get?_ofList` look a name up in what several insertions give;
* `perm_names_ofList` and `length_ofList_eq_iff` say which of several pairs are kept;
* `get?_traverse` and `traverse_ok` say when a traversal succeeds, and what it gives;
* `traverse_bind_eq_ok_iff` and its siblings say what becomes of traversals that are put together.
-/

namespace ComposeMerge
namespace Entries

variable {α β ε : Type}

/-- No two entries have the same name. -/
def Distinct (es : Entries α) : Prop := es.Pairwise fun a b => a.1 ≠ b.1

theorem Sorted.distinct {es : Entries α} (h : Sorted es) : Distinct es := by
  refine List.Pairwise.imp (fun {a b} hab heq => ?_) h
  rw [heq] at hab
  exact String.lt_irrefl _ hab

theorem get?_eq_none_iff {name : String} {es : Entries α} :
    get? name es = none ↔ ∀ e ∈ es, e.1 ≠ name := by
  induction es with
  | nil => simp
  | cons e es ih =>
    obtain ⟨k, v⟩ := e
    rw [get?_cons]
    split <;> simp_all

theorem get?_eq_some_iff {name : String} {es : Entries α} (h : Distinct es) {v : α} :
    get? name es = some v ↔ (name, v) ∈ es := by
  refine ⟨mem_of_get?, fun hmem => ?_⟩
  induction es with
  | nil => simp at hmem
  | cons e es ih =>
    obtain ⟨k, w⟩ := e
    obtain ⟨hk, hes⟩ := List.pairwise_cons.1 h
    rw [get?_cons]
    rcases List.mem_cons.1 hmem with heq | hmem
    · cases heq; simp
    · rw [if_neg (hk _ hmem)]
      exact ih hes hmem

/-- What holds of missing entries holds of all names when it holds of the entries. -/
theorem forall_get?_iff {es : Entries α} (h : Distinct es) {P : String → Option α → Prop}
    (hP : ∀ name, P name none) :
    (∀ name, P name (get? name es)) ↔ ∀ e ∈ es, P e.1 (some e.2) := by
  constructor
  · intro hall e he
    have hname := hall e.1
    rwa [(get?_eq_some_iff h).2 he] at hname
  · intro hall name
    cases hget : get? name es with
    | none => exact hP name
    | some v => exact hall (name, v) (mem_of_get? hget)

theorem Distinct.get?_tail {k : String} {v : α} {es : Entries α} (h : Distinct ((k, v) :: es)) :
    get? k es = none :=
  get?_eq_none_iff.2 fun e he => ((List.pairwise_cons.1 h).1 e he).symm

theorem get?_append (name : String) (a b : Entries α) :
    get? name (a ++ b) = (get? name a).or (get? name b) := by
  induction a with
  | nil => rfl
  | cons e a ih =>
    obtain ⟨k, v⟩ := e
    rw [List.cons_append, get?_cons, get?_cons]
    split
    · rfl
    · exact ih

/-- Entries that are kept or left out by their names. -/
theorem get?_filter (p : String → Bool) (name : String) (es : Entries α) :
    get? name (es.filter fun e => p e.1) = if p name then get? name es else none := by
  induction es with
  | nil => simp
  | cons e es ih =>
    obtain ⟨k, v⟩ := e
    by_cases hk : k = name
    · subst hk
      by_cases hp : p k = true
      · simp [hp, get?_cons]
      · simpa [hp, get?_cons] using ih
    · by_cases hp : p k = true
      · simpa [hp, hk, get?_cons] using ih
      · simpa [hp, hk, get?_cons] using ih

/-- Entries whose values are changed as their names ask for. -/
theorem get?_map {β : Type} (f : String → α → β) (name : String) (es : Entries α) :
    get? name (es.map fun e => (e.1, f e.1 e.2)) = (get? name es).map (f name) := by
  induction es with
  | nil => rfl
  | cons e es ih =>
    obtain ⟨k, v⟩ := e
    rw [List.map_cons, get?_cons, get?_cons]
    by_cases hk : k = name
    · subst hk
      rw [if_pos rfl, if_pos rfl, Option.map_some]
    · rw [if_neg hk, if_neg hk, ih]

/-- Of two values under one name the later counts. -/
theorem insert_insert (name : String) (a b : α) (es : Entries α) :
    insert name b (insert name a es) = insert name b es := by
  induction es with
  | nil => simp [insert]
  | cons e es ih =>
    obtain ⟨k, v⟩ := e
    by_cases hk : k = name
    · simp [insert, hk]
    · by_cases hlt : name < k
      · simp [insert, hk, hlt]
      · simp [insert, hk, hlt, ih]

/-! ### Extensionality -/

/-- Entries in order are equal when every look-up in them is. -/
theorem Sorted.eq_of_get? {a b : Entries α} (ha : Sorted a) (hb : Sorted b)
    (h : ∀ name, get? name a = get? name b) : a = b := by
  induction a generalizing b with
  | nil =>
    cases b with
    | nil => rfl
    | cons e b => simpa [get?] using h e.1
  | cons e a ih =>
    cases b with
    | nil => simpa [get?] using h e.1
    | cons f b =>
      obtain ⟨k, v⟩ := e
      obtain ⟨l, w⟩ := f
      obtain ⟨hka, hsa⟩ := List.pairwise_cons.1 ha
      obtain ⟨hlb, hsb⟩ := List.pairwise_cons.1 hb
      -- Were the first names different, each would be found behind the other.
      have hkl : k = l := by
        by_contra hne
        have hk := h k
        have hl := h l
        rw [get?_cons, if_pos rfl, get?_cons, if_neg (Ne.symm hne)] at hk
        rw [get?_cons, if_neg hne, get?_cons, if_pos rfl] at hl
        have h1 := hlb _ (mem_of_get? hk.symm)
        have h2 := hka _ (mem_of_get? hl)
        exact String.lt_irrefl k (String.lt_trans h2 h1)
      subst hkl
      have hvw : v = w := by simpa [get?_cons] using h k
      subst hvw
      refine congrArg _ (ih hsa hsb fun name => ?_)
      by_cases hname : k = name
      · subst hname
        rw [ha.distinct.get?_tail, hb.distinct.get?_tail]
      · simpa [get?_cons, hname] using h name

/-! ### Insertions -/

theorem get?_insertAll {extra : Entries α} (h : Distinct extra) (es : Entries α) (name : String) :
    get? name (insertAll es extra) = (get? name extra).or (get? name es) := by
  induction extra generalizing es with
  | nil => rfl
  | cons e extra ih =>
    obtain ⟨k, v⟩ := e
    obtain ⟨hk, hextra⟩ := List.pairwise_cons.1 h
    have hstep : insertAll es ((k, v) :: extra) = insertAll (insert k v es) extra := rfl
    rw [hstep, ih hextra, get?_insert, get?_cons]
    by_cases hname : name = k
    · subst hname
      simp [h.get?_tail]
    · simp [hname, Ne.symm hname]

theorem get?_ofList {es : Entries α} (h : Distinct es) (name : String) :
    get? name (ofList es) = get? name es := by
  rw [ofList, get?_insertAll h]
  simp

theorem Sorted.ofList_eq {es : Entries α} (h : Sorted es) : ofList es = es :=
  (sorted_ofList es).eq_of_get? h fun name => get?_ofList h.distinct name

theorem ofList_concat (pairs : List (String × α)) (e : String × α) :
    ofList (pairs ++ [e]) = insert e.1 e.2 (ofList pairs) := by
  rw [ofList, insertAll, List.foldl_append]
  rfl

/-- Of several pairs with one name the last one counts. -/
theorem get?_ofList_eq_reverse (pairs : List (String × α)) (name : String) :
    get? name (ofList pairs) = get? name pairs.reverse := by
  induction pairs using List.reverseRecOn with
  | nil => rfl
  | append_singleton pairs e ih =>
    rw [ofList_concat, get?_insert, List.reverse_concat, get?_cons, ih]
    simp only [eq_comm]

/-! ### Different names -/

/-- An entry of a new name is put somewhere among the others. -/
theorem perm_insert {name : String} {es : Entries α} (h : get? name es = none) (value : α) :
    (insert name value es).Perm ((name, value) :: es) := by
  induction es with
  | nil => exact .refl _
  | cons e es ih =>
    obtain ⟨k, v⟩ := e
    rw [get?_cons] at h
    split at h
    · cases h
    · next hk =>
      rw [insert, if_neg hk]
      split
      · exact .refl _
      · exact ((ih h).cons _).trans (.swap _ _ _)

theorem distinct_concat_iff {pairs : Entries α} {e : String × α} :
    Distinct (pairs ++ [e]) ↔ Distinct pairs ∧ get? e.1 pairs = none := by
  rw [Distinct, List.pairwise_append, get?_eq_none_iff]
  simp [Distinct]

/-- Pairs of different names are all kept. -/
theorem perm_ofList {pairs : Entries α} (h : Distinct pairs) : (ofList pairs).Perm pairs := by
  induction pairs using List.reverseRecOn with
  | nil => exact .refl _
  | append_singleton pairs e ih =>
    obtain ⟨hpairs, he⟩ := distinct_concat_iff.1 h
    have hnone : get? e.1 (ofList pairs) = none := (get?_ofList hpairs e.1).trans he
    rw [ofList_concat]
    exact (perm_insert hnone e.2).trans
      (((ih hpairs).cons e).trans (List.perm_append_singleton e pairs).symm)

theorem distinct_iff_nodup {es : Entries α} : Distinct es ↔ es.names.Nodup :=
  List.pairwise_map.symm

theorem mem_names_iff {name : String} {es : Entries α} :
    name ∈ es.names ↔ get? name es ≠ none := by
  rw [ne_eq, get?_eq_none_iff]
  simp [names]

/-- There is one entry for each of the names. -/
theorem perm_names_ofList (pairs : Entries α) : (ofList pairs).names.Perm pairs.names.dedup := by
  refine (List.perm_ext_iff_of_nodup (distinct_iff_nodup.1 (sorted_ofList pairs).distinct)
    (List.nodup_dedup _)).2 fun name => ?_
  rw [List.mem_dedup, mem_names_iff, mem_names_iff, get?_ofList_eq_reverse, ne_eq, ne_eq,
    get?_eq_none_iff, get?_eq_none_iff]
  simp only [List.mem_reverse]

/-- No pair is lost just when the names are different. -/
theorem length_ofList_eq_iff {pairs : Entries α} :
    (ofList pairs).length = pairs.length ↔ Distinct pairs := by
  constructor
  · intro h
    have hlength : pairs.names.dedup.length = pairs.names.length := by
      rw [← (perm_names_ofList pairs).length_eq]
      simpa [names] using h
    have hdedup := (List.dedup_sublist pairs.names).eq_of_length hlength
    exact distinct_iff_nodup.2 (List.dedup_eq_self.1 hdedup)
  · exact fun h => (perm_ofList h).length_eq

/-! ### Traversals -/

theorem get?_traverse {f : String → α → Except ε β} {es : Entries α} {rs : Entries β}
    (h : traverse f es = .ok rs) (name : String) :
    (get? name es = none ∧ get? name rs = none) ∨
      ∃ v w, get? name es = some v ∧ f name v = .ok w ∧ get? name rs = some w := by
  induction es generalizing rs with
  | nil =>
    cases h
    exact .inl ⟨rfl, rfl⟩
  | cons e es ih =>
    obtain ⟨k, v⟩ := e
    obtain ⟨w, hw, h⟩ := Outcome.bind_eq_ok_iff.1 h
    obtain ⟨rest, hrest, h⟩ := Outcome.bind_eq_ok_iff.1 h
    cases h
    rw [get?_cons, get?_cons]
    by_cases hk : k = name
    · subst hk
      exact .inr ⟨v, w, by simp, hw, by simp⟩
    · simpa [hk] using ih hrest

theorem names_traverse {f : String → α → Except ε β} {es : Entries α} {rs : Entries β}
    (h : traverse f es = .ok rs) : rs.map Prod.fst = es.map Prod.fst := by
  induction es generalizing rs with
  | nil => cases h; rfl
  | cons e es ih =>
    obtain ⟨k, v⟩ := e
    obtain ⟨w, -, h⟩ := Outcome.bind_eq_ok_iff.1 h
    obtain ⟨rest, hrest, h⟩ := Outcome.bind_eq_ok_iff.1 h
    cases h
    simp [ih hrest]

theorem sorted_iff_names {es : Entries α} : Sorted es ↔ (es.map Prod.fst).Pairwise (· < ·) :=
  List.pairwise_map.symm

theorem Sorted.traverse {f : String → α → Except ε β} {es : Entries α} {rs : Entries β}
    (hes : Sorted es) (h : traverse f es = .ok rs) : Sorted rs :=
  sorted_iff_names.2 (names_traverse h ▸ sorted_iff_names.1 hes)

theorem traverse_ok {f : String → α → Except ε β} {es : Entries α}
    (h : ∀ e ∈ es, ∃ w, f e.1 e.2 = .ok w) : ∃ rs, traverse f es = .ok rs := by
  induction es with
  | nil => exact ⟨[], rfl⟩
  | cons e es ih =>
    obtain ⟨w, hw⟩ := h e (by simp)
    obtain ⟨rs, hrs⟩ := ih fun e he => h e (by simp [he])
    refine ⟨(e.1, w) :: rs, ?_⟩
    rw [Entries.traverse, hw, hrs]
    rfl

/-- A traversal succeeds when each of its steps does. -/
theorem exists_traverse_eq_ok_iff {f : String → α → Except ε β} {es : Entries α} :
    (∃ rs, traverse f es = .ok rs) ↔ ∀ e ∈ es, ∃ w, f e.1 e.2 = .ok w := by
  refine ⟨?_, traverse_ok⟩
  induction es with
  | nil => simp
  | cons e es ih =>
    rintro ⟨rs, h⟩
    obtain ⟨w, hw, h⟩ := Outcome.bind_eq_ok_iff.1 h
    obtain ⟨rest, hrest, -⟩ := Outcome.bind_eq_ok_iff.1 h
    exact List.forall_mem_cons.2 ⟨⟨w, hw⟩, ih ⟨rest, hrest⟩⟩

theorem traverse_singleton (f : String → α → Except ε β) (name : String) (v : α) :
    traverse f [(name, v)] = (f name v).map fun w => [(name, w)] := by
  rw [traverse]
  cases f name v with
  | error e => rfl
  | ok w => rfl

/-- Two traversals, one after the other, are one. -/
theorem traverse_bind_eq_ok_iff {γ : Type} {f : String → α → Except ε β}
    {g : String → β → Except ε γ} {es : Entries α} {ts : Entries γ} :
    traverse (fun name v => f name v >>= g name) es = .ok ts ↔
      ∃ rs, traverse f es = .ok rs ∧ traverse g rs = .ok ts := by
  induction es generalizing ts with
  | nil =>
    refine ⟨fun h => ⟨[], rfl, h⟩, ?_⟩
    rintro ⟨rs, hrs, h⟩
    cases hrs
    exact h
  | cons e es ih =>
    obtain ⟨k, v⟩ := e
    simp only [traverse, Outcome.bind_eq_ok_iff]
    constructor
    · rintro ⟨u, ⟨w, hw, hu⟩, us, hus, h⟩
      cases h
      obtain ⟨ws, hws, hus⟩ := ih.1 hus
      refine ⟨(k, w) :: ws, ⟨w, hw, ws, hws, rfl⟩, ?_⟩
      rw [traverse, hu, hus]
      rfl
    · rintro ⟨rs, ⟨w, hw, ws, hws, hrs⟩, h⟩
      cases hrs
      obtain ⟨u, hu, h⟩ := Outcome.bind_eq_ok_iff.1 h
      obtain ⟨us, hus, h⟩ := Outcome.bind_eq_ok_iff.1 h
      exact ⟨u, ⟨w, hw, hu⟩, us, ih.2 ⟨ws, hws, hus⟩, h⟩

theorem traverse_congr {f g : String → α → Except ε β} {es : Entries α}
    (h : ∀ e ∈ es, f e.1 e.2 = g e.1 e.2) : traverse f es = traverse g es := by
  induction es with
  | nil => rfl
  | cons e es ih =>
    obtain ⟨he, hes⟩ := List.forall_mem_cons.1 h
    rw [traverse, traverse, he, ih hes]

theorem traverse_pure (es : Entries α) :
    traverse (fun _ v => (Except.ok v : Except ε α)) es = .ok es := by
  induction es with
  | nil => rfl
  | cons e es ih =>
    rw [traverse, ih]
    rfl

theorem traverse_mapValues {γ : Type} (f : String → β → Except ε γ) (g : α → β)
    (es : Entries α) : traverse f (es.mapValues g) = traverse (fun name v => f name (g v)) es := by
  induction es with
  | nil => rfl
  | cons e es ih =>
    have hsplit : mapValues g (e :: es) = (e.1, g e.2) :: mapValues g es := rfl
    rw [hsplit, traverse, ih, traverse]

/-- What is changed before a traversal may as well be changed after it. -/
theorem traverse_map_comm {f : String → α → Except ε β} {g : String → α → α}
    {h : String → β → β} (hcomm : ∀ name a, f name (g name a) = (f name a).map (h name))
    (es : Entries α) :
    traverse f (es.map fun e => (e.1, g e.1 e.2)) =
      (traverse f es).map fun rs => rs.map fun e => (e.1, h e.1 e.2) := by
  induction es with
  | nil => rfl
  | cons e es ih =>
    rw [List.map_cons, traverse, traverse, hcomm, ih]
    cases f e.1 e.2 with
    | error err => rfl
    | ok w => cases traverse f es <;> rfl

/-- What is left out of the entries is left out of what they give. -/
theorem traverse_filter {f : String → α → Except ε β} (p : String → Bool) {es : Entries α}
    {rs : Entries β} (h : traverse f es = .ok rs) :
    traverse f (es.filter fun e => p e.1) = .ok (rs.filter fun e => p e.1) := by
  induction es generalizing rs with
  | nil =>
    cases h
    rfl
  | cons e es ih =>
    obtain ⟨k, v⟩ := e
    obtain ⟨w, hw, h⟩ := Outcome.bind_eq_ok_iff.1 h
    obtain ⟨rest, hrest, h⟩ := Outcome.bind_eq_ok_iff.1 h
    cases h
    by_cases hk : p k = true
    · simp only [List.filter_cons_of_pos, hk, traverse, hw, ih hrest]
      rfl
    · simpa [hk] using ih hrest

end Entries

namespace Table

variable {α β : Type}

theorem ext_get? {a b : Table α} (h : ∀ name, a.get? name = b.get? name) : a = b :=
  ext (a.sorted.eq_of_get? b.sorted h)

@[simp] theorem get?_empty (name : String) : (empty : Table α).get? name = none := rfl

theorem get?_mapValues (f : α → β) (t : Table α) (name : String) :
    (t.mapValues f).get? name = (t.get? name).map f :=
  Entries.get?_mapValues f name t.entries

theorem mem_names_iff {t : Table α} {name : String} :
    name ∈ t.names ↔ t.contains name = true := by
  rw [contains, Option.isSome_iff_ne_none, ne_eq, get?, Entries.get?_eq_none_iff]
  simp [names, Entries.names]

theorem get?_insertAll (t : Table α) {extra : Entries α} (h : extra.Distinct) (name : String) :
    (t.insertAll extra).get? name = (extra.get? name).or (t.get? name) :=
  Entries.get?_insertAll h t.entries name

theorem get?_ofList {es : Entries α} (h : es.Distinct) (name : String) :
    (ofList es).get? name = es.get? name :=
  Entries.get?_ofList h name

theorem mem_names_ofList {pairs : List (String × α)} {name : String} :
    name ∈ (ofList pairs).names ↔ ∃ value, (name, value) ∈ pairs := by
  have hget : (ofList pairs).get? name = Entries.get? name pairs.reverse :=
    Entries.get?_ofList_eq_reverse pairs name
  rw [mem_names_iff, contains, hget, Option.isSome_iff_ne_none, ne_eq, Entries.get?_eq_none_iff]
  simp

theorem mapValues_ofList (f : α → β) {es : Entries α} (h : es.Distinct) :
    (ofList es).mapValues f = ofList (es.mapValues f) := by
  have hmap : (es.mapValues f).Distinct := List.pairwise_map.2 h
  refine ext_get? fun name => ?_
  rw [get?_mapValues, get?_ofList h, get?_ofList hmap, Entries.get?_mapValues]

theorem isEmpty_iff (t : Table α) : t.isEmpty = true ↔ t = empty := by
  obtain ⟨es, hes⟩ := t
  cases es with
  | nil => exact iff_of_true rfl rfl
  | cons e es => exact iff_of_false (by simp [isEmpty]) fun h => by cases congrArg Table.entries h

end Table
end ComposeMerge
