import Mathlib

/-!
# Outcomes

When a computation that may fail succeeds, told from the computations it is made of.

* `bind_eq_ok_iff`, `map_eq_ok_iff` and `mapError_eq_ok_iff` take one step apart, and
  `bind_eq_error_iff` and `mapError_eq_error_iff` one that fails;
* `mapM_append_eq_ok_iff` and `mapM_eq_ok_iff_forall₂` take a list of steps apart;
* `exists_mapM_eq_ok_iff` and `mapM_eq_error_iff_append` say when such a list succeeds, and how it
  fails.
-/

namespace ComposeMerge
namespace Outcome

variable {ε ε' α β : Type}

@[simp] theorem bind_ok (a : α) (f : α → Except ε β) : (Except.ok a >>= f) = f a := rfl

@[simp] theorem bind_error (e : ε) (f : α → Except ε β) :
    (Except.error e >>= f) = .error e := rfl

@[simp] theorem map_ok (f : α → β) (a : α) : (Except.ok a : Except ε α).map f = .ok (f a) := rfl

@[simp] theorem map_error (f : α → β) (e : ε) : (Except.error e).map f = .error e := rfl

theorem bind_eq_ok_iff {x : Except ε α} {f : α → Except ε β} {b : β} :
    (x >>= f) = .ok b ↔ ∃ a, x = .ok a ∧ f a = .ok b := by
  cases x with
  | error e => simp
  | ok a => simp

theorem bind_eq_error_iff {x : Except ε α} {f : α → Except ε β} {e : ε} :
    (x >>= f) = .error e ↔ x = .error e ∨ ∃ a, x = .ok a ∧ f a = .error e := by
  cases x <;> simp

theorem map_eq_ok_iff {f : α → β} {x : Except ε α} {b : β} :
    x.map f = .ok b ↔ ∃ a, x = .ok a ∧ f a = b := by
  cases x with
  | error e => simp
  | ok a => simp

theorem exists_map_eq_ok_iff {f : α → β} {x : Except ε α} :
    (∃ b, x.map f = .ok b) ↔ ∃ a, x = .ok a := by
  cases x <;> simp

theorem map_eq_error_iff {f : α → β} {x : Except ε α} {e : ε} :
    x.map f = .error e ↔ x = .error e := by
  cases x <;> simp

theorem map_map {γ : Type} (f : α → β) (g : β → γ) (x : Except ε α) :
    (x.map f).map g = x.map fun a => g (f a) := by
  cases x <;> rfl

@[simp] theorem mapError_eq_ok_iff {f : ε → ε'} {x : Except ε α} {a : α} :
    x.mapError f = .ok a ↔ x = .ok a := by
  cases x with
  | error e => simp [Except.mapError]
  | ok b => simp [Except.mapError]

theorem mapError_eq_error_iff {f : ε → ε'} {x : Except ε α} {e : ε'} :
    x.mapError f = .error e ↔ ∃ fault, x = .error fault ∧ f fault = e := by
  cases x <;> simp [Except.mapError]

theorem mapM_cons_eq_ok_iff {f : α → Except ε β} {a : α} {l : List α} {r : List β} :
    (a :: l).mapM f = .ok r ↔ ∃ b t, f a = .ok b ∧ l.mapM f = .ok t ∧ r = b :: t := by
  rw [List.mapM_cons, bind_eq_ok_iff]
  constructor
  · rintro ⟨b, hb, h⟩
    obtain ⟨t, ht, hr⟩ := bind_eq_ok_iff.1 h
    exact ⟨b, t, hb, ht, (Except.ok.inj hr).symm⟩
  · rintro ⟨b, t, hb, ht, rfl⟩
    exact ⟨b, hb, by rw [ht]; rfl⟩

/-- A result that is there, out of an outcome that may hold none. -/
theorem eq_ok_some_of_isSome {x : Except ε (Option α)} (h : x.toOption.join.isSome = true)
    (a : α) : x = .ok (some (x.toOption.join.getD a)) := by
  cases x with
  | error e => cases h
  | ok o =>
    cases o with
    | none => cases h
    | some b => rfl

/-- Steps that give the same results wherever others succeed. -/
theorem mapM_eq_ok_of_imp {f : α → Except ε β} {g : α → Except ε' β}
    (h : ∀ {a b}, f a = .ok b → g a = .ok b) {l : List α} {r : List β} (hl : l.mapM f = .ok r) :
    l.mapM g = .ok r := by
  induction l generalizing r with
  | nil => cases hl; rfl
  | cons a l ih =>
    obtain ⟨b, t, hb, ht, rfl⟩ := mapM_cons_eq_ok_iff.1 hl
    exact mapM_cons_eq_ok_iff.2 ⟨b, t, h hb, ih ht, rfl⟩

/-- A list of steps succeeds when its two halves do. -/
theorem mapM_append_eq_ok_iff {f : α → Except ε β} {l m : List α} {r : List β} :
    (l ++ m).mapM f = .ok r ↔ ∃ s t, l.mapM f = .ok s ∧ m.mapM f = .ok t ∧ r = s ++ t := by
  rw [List.mapM_append, bind_eq_ok_iff]
  constructor
  · rintro ⟨s, hs, h⟩
    obtain ⟨t, ht, hr⟩ := bind_eq_ok_iff.1 h
    exact ⟨s, t, hs, ht, (Except.ok.inj hr).symm⟩
  · rintro ⟨s, t, hs, ht, rfl⟩
    exact ⟨s, hs, by rw [ht]; rfl⟩

/-- A list of steps gives the result of each. -/
theorem mapM_eq_ok_iff_forall₂ {f : α → Except ε β} {l : List α} {r : List β} :
    l.mapM f = .ok r ↔ List.Forall₂ (fun a b => f a = .ok b) l r := by
  induction l generalizing r with
  | nil =>
    rw [List.forall₂_nil_left_iff]
    simp [pure, Except.pure, eq_comm]
  | cons a l ih =>
    rw [mapM_cons_eq_ok_iff, List.forall₂_cons_left_iff]
    simp only [ih]

/-- A list of steps succeeds when each of them does. -/
theorem exists_mapM_eq_ok_iff {f : α → Except ε β} {l : List α} :
    (∃ r, l.mapM f = .ok r) ↔ ∀ a ∈ l, ∃ b, f a = .ok b := by
  induction l with
  | nil => simp [pure, Except.pure]
  | cons a l ih =>
    rw [List.forall_mem_cons, ← ih]
    constructor
    · rintro ⟨r, hr⟩
      obtain ⟨b, t, hb, ht, -⟩ := mapM_cons_eq_ok_iff.1 hr
      exact ⟨⟨b, hb⟩, t, ht⟩
    · rintro ⟨⟨b, hb⟩, t, ht⟩
      exact ⟨_, mapM_cons_eq_ok_iff.2 ⟨b, t, hb, ht, rfl⟩⟩

/-- A list of steps fails with the first of them that fails. -/
theorem mapM_eq_error_iff_append {f : α → Except ε β} {l : List α} {e : ε} :
    l.mapM f = .error e ↔ ∃ before a after, l = before ++ a :: after ∧
      (∀ b ∈ before, ∃ r, f b = .ok r) ∧ f a = .error e := by
  constructor
  · intro h
    induction l with
    | nil => cases h
    | cons a l ih =>
      rw [List.mapM_cons] at h
      obtain ha | ⟨b, hb, h⟩ := bind_eq_error_iff.1 h
      · exact ⟨[], a, l, rfl, by simp, ha⟩
      · obtain hl | ⟨r, -, h⟩ := bind_eq_error_iff.1 h
        · obtain ⟨before, a', after, rfl, hbefore, ha'⟩ := ih hl
          exact ⟨a :: before, a', after, rfl, List.forall_mem_cons.2 ⟨⟨b, hb⟩, hbefore⟩, ha'⟩
        · cases h
  · rintro ⟨before, a, after, rfl, hbefore, ha⟩
    obtain ⟨r, hr⟩ := exists_mapM_eq_ok_iff.2 hbefore
    rw [List.mapM_append, hr, bind_ok, List.mapM_cons, ha]
    rfl

/-- Where a list of steps fails, one of them does. -/
theorem exists_of_mapM_eq_error {f : α → Except ε β} {l : List α} {e : ε}
    (h : l.mapM f = .error e) : ∃ a ∈ l, f a = .error e := by
  obtain ⟨before, a, after, rfl, -, ha⟩ := mapM_eq_error_iff_append.1 h
  exact ⟨a, by simp, ha⟩

end Outcome
end ComposeMerge
