import ComposeMerge.Proofs.InheritanceShorthand

/-!
# Related outcomes

Two runs of a computation on inputs that differ in a controlled way.

* `Outcome.Alike` says that two computations fail alike or give related results; `Alike.bind` and
  `Alike.bind_eq` go on from there;
* `Entries.Related.induct` is the induction over two lists of entries, and the lemmas after it say
  which operations keep a relation of values.
-/

namespace ComposeMerge

namespace Outcome

variable {ε α α' β β' : Type}

/-- Whether two computations fail alike, or give related results. -/
inductive Alike (r : α → α' → Prop) : Except ε α → Except ε α' → Prop where
  | ok {a : α} {a' : α'} (h : r a a') : Alike r (.ok a) (.ok a')
  | error (e : ε) : Alike r (.error e) (.error e)

theorem Alike.refl {r : α → α → Prop} (h : ∀ a, r a a) (x : Except ε α) : Alike r x x := by
  cases x with
  | ok a => exact .ok (h a)
  | error e => exact .error e

variable {r : α → α' → Prop} {s : β → β' → Prop} {x : Except ε α} {x' : Except ε α'}

theorem Alike.bind {f : α → Except ε β} {f' : α' → Except ε β'} (h : Alike r x x')
    (hf : ∀ {a a'}, r a a' → Alike s (f a) (f' a')) : Alike s (x >>= f) (x' >>= f') := by
  cases h with
  | ok h => exact hf h
  | error e => exact .error e

/-- Both computations start with the same one. -/
theorem Alike.bind_same {y : Except ε α} {f : α → Except ε β} {f' : α → Except ε β'}
    (hf : ∀ a, Alike s (f a) (f' a)) : Alike s (y >>= f) (y >>= f') := by
  cases y with
  | ok a => exact hf a
  | error e => exact .error e

/-- Related results may be used up. -/
theorem Alike.bind_eq {f : α → Except ε β} {f' : α' → Except ε β} (h : Alike r x x')
    (hf : ∀ {a a'}, r a a' → f a = f' a') : (x >>= f) = (x' >>= f') := by
  cases h with
  | ok h => exact hf h
  | error e => rfl

end Outcome

namespace Entries

variable {ε α α' β β' : Type} {r : String → α → α' → Prop}

theorem Related.refl {r : String → α → α → Prop} (h : ∀ name a, r name a a) (es : Entries α) :
    Related r es es :=
  List.forall₂_same.2 fun e _ => ⟨rfl, h e.1 e.2⟩

/-- Induction over two lists of entries with the same names. -/
@[elab_as_elim]
theorem Related.induct {motive : ∀ (es : Entries α) (es' : Entries α'), Related r es es' → Prop}
    (nil : motive [] [] .nil)
    (cons : ∀ {name : String} {a : α} {a' : α'} {es : Entries α} {es' : Entries α'}
      (ha : r name a a') (h : Related r es es'), motive es es' h →
        motive ((name, a) :: es) ((name, a') :: es') (.cons ⟨rfl, ha⟩ h))
    {es : Entries α} {es' : Entries α'} (h : Related r es es') : motive es es' h := by
  induction h with
  | nil => exact nil
  | @cons e e' es es' he h ih =>
    obtain ⟨name, a⟩ := e
    obtain ⟨name', a'⟩ := e'
    obtain ⟨rfl, ha⟩ : name = name' ∧ r name a a' := he
    exact cons ha h ih

theorem Related.map {s : String → β → β' → Prop} {g : String → α → β} {g' : String → α' → β'}
    (hg : ∀ name {a a'}, r name a a' → s name (g name a) (g' name a')) {es : Entries α}
    {es' : Entries α'} (h : Related r es es') :
    Related s (es.map fun e => (e.1, g e.1 e.2)) (es'.map fun e => (e.1, g' e.1 e.2)) := by
  induction h using Related.induct with
  | nil => exact .nil
  | @cons name _ _ _ _ ha _ ih => exact .cons ⟨rfl, hg name ha⟩ ih

/-- Both sides have an entry of a name, and then related ones, or neither has. -/
theorem Related.get? {es : Entries α} {es' : Entries α'} (h : Related r es es') (name : String) :
    Option.Rel (r name) (get? name es) (get? name es') := by
  induction h using Related.induct with
  | nil => exact .none
  | @cons k _ _ _ _ ha _ ih =>
    rw [get?_cons, get?_cons]
    by_cases hk : k = name
    · subst hk
      rw [if_pos rfl, if_pos rfl]
      exact .some ha
    · rw [if_neg hk, if_neg hk]
      exact ih

theorem Related.insert {es : Entries α} {es' : Entries α'} (h : Related r es es') {name : String}
    {a : α} {a' : α'} (ha : r name a a') :
    Related r (insert name a es) (insert name a' es') := by
  induction h using Related.induct with
  | nil => exact .cons ⟨rfl, ha⟩ .nil
  | cons hv hes ih =>
    rw [Entries.insert, Entries.insert]
    split_ifs with hk hlt
    · exact .cons ⟨rfl, ha⟩ hes
    · exact .cons ⟨rfl, ha⟩ (.cons ⟨rfl, hv⟩ hes)
    · exact .cons ⟨rfl, hv⟩ ih

/-- Entries that are kept or left out by their names. -/
theorem Related.filter (p : String → Bool) {es : Entries α} {es' : Entries α'}
    (h : Related r es es') :
    Related r (es.filter fun e => p e.1) (es'.filter fun e => p e.1) := by
  induction h using Related.induct with
  | nil => exact .nil
  | cons ha _ ih =>
    rw [List.filter_cons, List.filter_cons]
    split_ifs with hp
    · exact .cons ⟨rfl, ha⟩ ih
    · exact ih

theorem Related.traverse {s : String → β → β' → Prop} {f : String → α → Except ε β}
    {f' : String → α' → Except ε β'}
    (hf : ∀ name {a a'}, r name a a' → Outcome.Alike (s name) (f name a) (f' name a'))
    {es : Entries α} {es' : Entries α'} (h : Related r es es') :
    Outcome.Alike (Related s) (traverse f es) (traverse f' es') := by
  induction h using Related.induct with
  | nil => exact .ok .nil
  | @cons name _ _ _ _ ha _ ih =>
    exact (hf name ha).bind fun hb => ih.bind fun hbs => .ok (.cons ⟨rfl, hb⟩ hbs)

/-- A traversal that does not tell related values apart. -/
theorem Related.traverse_eq {f : String → α → Except ε β} {f' : String → α' → Except ε β}
    (hf : ∀ name {a a'}, r name a a' → f name a = f' name a') {es : Entries α}
    {es' : Entries α'} (h : Related r es es') :
    Entries.traverse f es = Entries.traverse f' es' := by
  induction h using Related.induct with
  | nil => rfl
  | @cons name _ _ _ _ ha _ ih => rw [Entries.traverse, Entries.traverse, hf name ha, ih]

end Entries
end ComposeMerge
