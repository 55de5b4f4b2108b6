/-!
# Entries under sorted names

A list of named entries, kept in the order of the names. The order of names is the order of
their characters' code points.

* `get?`, `insert`, `erase` look up, set and remove the entry of one name;
* `ofList` builds entries from pairs in any order, a later pair replacing an earlier one;
* `mapValues` and `traverse` go through the entries in order;
* `Sorted` says that the names are strictly increasing, hence distinct.

`Table` bundles entries with the proof that they are sorted.
-/

namespace ComposeMerge

/-- Named entries. -/
abbrev Entries (α : Type) := List (String × α)

namespace Entries

variable {α β ε : Type}

/-- The entry of `name`. -/
def get? (name : String) : Entries α → Option α
  | [] => none
  | (k, v) :: es => if k = name then some v else get? name es

/-- Whether there is an entry of `name`. -/
def contains (name : String) (es : Entries α) : Bool := (get? name es).isSome

/-- The entries with `value` under `name`, in place of an earlier entry of that name. -/
def insert (name : String) (value : α) : Entries α → Entries α
  | [] => [(name, value)]
  | (k, v) :: es =>
    if k = name then (name, value) :: es
    else if name < k then (name, value) :: (k, v) :: es
    else (k, v) :: insert name value es

/-- The entries without the one of `name`. -/
def erase (name : String) (es : Entries α) : Entries α := es.filter fun e => e.1 ≠ name

/-- The names, in order. -/
def names (es : Entries α) : List String := es.map Prod.fst

/-- The entries with every entry of `extra` inserted, in order. -/
def insertAll (es extra : Entries α) : Entries α :=
  extra.foldl (fun acc e => acc.insert e.1 e.2) es

/-- The entries given by pairs in any order; of two pairs with one name the later counts. -/
def ofList (pairs : List (String × α)) : Entries α := insertAll [] pairs

/-- The entries with `f` applied to each value. -/
def mapValues (f : α → β) (es : Entries α) : Entries β := es.map fun e => (e.1, f e.2)

/-- Applies `f` to each entry in order; the first failure is the result. -/
def traverse (f : String → α → Except ε β) : Entries α → Except ε (Entries β)
  | [] => .ok []
  | (k, v) :: es => do
    let w ← f k v
    let rest ← traverse f es
    .ok ((k, w) :: rest)

/-- The names are strictly increasing. -/
def Sorted (es : Entries α) : Prop := es.Pairwise fun a b => a.1 < b.1

/-! ### Looking up -/

@[simp]
theorem get?_nil (name : String) : get? name ([] : Entries α) = none := rfl

theorem get?_cons (name k : String) (v : α) (es : Entries α) :
    get? name ((k, v) :: es) = if k = name then some v else get? name es := rfl

@[simp]
theorem get?_insert_self (name : String) (value : α) (es : Entries α) :
    get? name (insert name value es) = some value := by
  induction es with
  | nil => simp [insert, get?]
  | cons e es ih =>
    obtain ⟨k, v⟩ := e
    rw [insert]
    split
    · simp [get?]
    · split
      · simp [get?]
      · simp_all [get?]

theorem get?_insert_of_ne {name other : String} (h : other ≠ name) (value : α)
    (es : Entries α) : get? other (insert name value es) = get? other es := by
  induction es with
  | nil => simp [insert, get?, h.symm]
  | cons e es ih =>
    obtain ⟨k, v⟩ := e
    rw [insert]
    split
    · simp_all [get?, h.symm]
    · split
      · simp [get?, h.symm]
      · simp [get?, ih]

theorem get?_insert (name other : String) (value : α) (es : Entries α) :
    get? other (insert name value es) = if other = name then some value else get? other es := by
  split
  · next h => simp [h]
  · next h => exact get?_insert_of_ne h value es

theorem get?_erase (name other : String) (es : Entries α) :
    get? other (erase name es) = if other = name then none else get? other es := by
  induction es with
  | nil => simp [erase, get?]
  | cons e es ih =>
    obtain ⟨k, v⟩ := e
    simp only [erase] at ih ⊢
    by_cases hk : k = name
    · simp [hk, get?]
      split <;> simp_all [eq_comm]
    · simp [hk, get?]
      split <;> simp_all

theorem get?_mapValues (f : α → β) (name : String) (es : Entries α) :
    get? name (mapValues f es) = (get? name es).map f := by
  induction es with
  | nil => rfl
  | cons e es ih =>
    obtain ⟨k, v⟩ := e
    simp only [mapValues, List.map_cons, get?_cons] at ih ⊢
    split <;> simp_all

theorem mem_of_get? {name : String} {es : Entries α} {value : α}
    (h : get? name es = some value) : (name, value) ∈ es := by
  induction es with
  | nil => simp at h
  | cons e es ih =>
    obtain ⟨k, v⟩ := e
    rw [get?_cons] at h
    split at h <;> simp_all

/-! ### Order of the names -/

theorem sorted_nil : Sorted ([] : Entries α) := List.Pairwise.nil

theorem mem_insert {name : String} {value : α} {e : String × α} {es : Entries α}
    (h : e ∈ insert name value es) : e = (name, value) ∨ e ∈ es := by
  induction es with
  | nil => simpa [insert] using h
  | cons f es ih =>
    obtain ⟨k, v⟩ := f
    rw [insert] at h
    split at h
    · simp_all; grind
    · split at h
      · simp_all
      · simp only [List.mem_cons] at h ⊢
        rcases h with h | h
        · exact .inr (.inl h)
        · exact (ih h).imp_right .inr

theorem lt_of_ne_of_not_lt {a b : String} (hne : a ≠ b) (h : ¬ b < a) : a < b :=
  (Std.lt_trichotomy a b).resolve_right fun hab => hab.elim hne h

theorem Sorted.insert {es : Entries α} (h : Sorted es) (name : String) (value : α) :
    Sorted (insert name value es) := by
  induction es with
  | nil => simp [Entries.insert, Sorted]
  | cons e es ih =>
    obtain ⟨k, v⟩ := e
    have hk := (List.pairwise_cons.1 h).1
    have hs := (List.pairwise_cons.1 h).2
    rw [Entries.insert]
    split
    · next hkn => exact List.pairwise_cons.2 ⟨fun b hb => hkn ▸ hk b hb, hs⟩
    · next hkn =>
      split
      · next hlt =>
        refine List.pairwise_cons.2 ⟨fun b hb => ?_, h⟩
        rcases List.mem_cons.1 hb with rfl | hb
        · exact hlt
        · exact String.lt_trans hlt (hk b hb)
      · next hlt =>
        refine List.pairwise_cons.2 ⟨fun b hb => ?_, ih hs⟩
        rcases mem_insert hb with rfl | hb
        · exact lt_of_ne_of_not_lt hkn hlt
        · exact hk b hb

theorem Sorted.insertAll {es : Entries α} (h : Sorted es) (extra : Entries α) :
    Sorted (insertAll es extra) := by
  induction extra generalizing es with
  | nil => exact h
  | cons e extra ih => exact ih (h.insert e.1 e.2)

theorem sorted_ofList (pairs : List (String × α)) : Sorted (ofList pairs) :=
  sorted_nil.insertAll pairs

theorem Sorted.erase {es : Entries α} (h : Sorted es) (name : String) : Sorted (erase name es) :=
  List.Pairwise.filter _ h

theorem Sorted.mapValues {es : Entries α} (h : Sorted es) (f : α → β) : Sorted (mapValues f es) :=
  List.Pairwise.map _ (fun _ _ hab => hab) h

end Entries

/-- Entries whose names are strictly increasing. -/
structure Table (α : Type) where
  entries : Entries α
  sorted : entries.Sorted

namespace Table

variable {α β : Type}

instance [DecidableEq α] : DecidableEq (Table α) := fun a b =>
  if h : a.entries = b.entries then isTrue (by cases a; cases b; simp_all)
  else isFalse fun hab => h (hab ▸ rfl)

/-- The table without entries. -/
def empty : Table α := ⟨[], Entries.sorted_nil⟩

instance : Inhabited (Table α) := ⟨empty⟩

/-- The table given by pairs in any order; of two pairs with one name the later counts. -/
def ofList (pairs : List (String × α)) : Table α := ⟨Entries.ofList pairs, Entries.sorted_ofList pairs⟩

/-- The entry of `name`. -/
def get? (t : Table α) (name : String) : Option α := t.entries.get? name

/-- Whether there is an entry of `name`. -/
def contains (t : Table α) (name : String) : Bool := (t.get? name).isSome

/-- The table with `value` under `name`. -/
def insert (t : Table α) (name : String) (value : α) : Table α :=
  ⟨t.entries.insert name value, t.sorted.insert name value⟩

/-- The table with every entry of `extra` inserted, in order. -/
def insertAll (t : Table α) (extra : Entries α) : Table α :=
  ⟨t.entries.insertAll extra, t.sorted.insertAll extra⟩

/-- The table with `f` applied to each value. -/
def mapValues (f : α → β) (t : Table α) : Table β :=
  ⟨t.entries.mapValues f, t.sorted.mapValues f⟩

/-- The names, in order. -/
def names (t : Table α) : List String := t.entries.names

/-- The number of entries. -/
def size (t : Table α) : Nat := t.entries.length

/-- Whether there is no entry. -/
def isEmpty (t : Table α) : Bool := t.entries.isEmpty

theorem get?_insert (t : Table α) (name other : String) (value : α) :
    (t.insert name value).get? other = if other = name then some value else t.get? other :=
  Entries.get?_insert name other value t.entries

theorem ext {a b : Table α} (h : a.entries = b.entries) : a = b := by
  cases a; cases b; simp_all

end Table
end ComposeMerge
