import Mathlib.Tactic.Common

/-!
# Steps that can fail

A chain of steps succeeds if each of them does (`bind_eq_ok_iff`). Where the state of a fold is
known from the items seen, the fold succeeds just if they are good together (`foldlM_eq_ok_iff`).
A fold fails just if all items before one succeed and this one fails (`foldlM_eq_error_iff`). Where
each step takes images to images, so does the whole fold (`foldlM_comm`).
-/

namespace DeclaredOptions.Steps

variable {ε ε' α β σ : Type}

@[simp] lemma ok_bind (a : α) (f : α → Except ε β) : (Except.ok a >>= f) = f a := rfl

@[simp] lemma error_bind (e : ε) (f : α → Except ε β) : (Except.error e >>= f) = .error e := rfl

lemma bind_eq_ok_iff {x : Except ε α} {f : α → Except ε β} {b : β} :
    x >>= f = .ok b ↔ ∃ a, x = .ok a ∧ f a = .ok b := by
  cases x with
  | error e =>
    constructor
    · intro h
      cases h
    · rintro ⟨a, h, _⟩
      cases h
  | ok a =>
    constructor
    · intro h
      exact ⟨a, rfl, h⟩
    · rintro ⟨a', ha, h⟩
      cases ha
      exact h

lemma bind_eq_error_iff {x : Except ε α} {f : α → Except ε β} {e : ε} :
    x >>= f = .error e ↔ x = .error e ∨ ∃ a, x = .ok a ∧ f a = .error e := by
  cases x with
  | error e' =>
    constructor
    · intro h
      cases h
      exact Or.inl rfl
    · rintro (h | ⟨a, h, _⟩)
      · cases h
        rfl
      · cases h
  | ok a =>
    constructor
    · intro h
      exact Or.inr ⟨a, rfl, h⟩
    · rintro (h | ⟨a', ha, h⟩)
      · cases h
      · cases ha
        exact h

@[simp] lemma mapError_eq_ok_iff {f : ε → ε'} {x : Except ε α} {a : α} :
    x.mapError f = .ok a ↔ x = .ok a := by
  cases x <;> simp [Except.mapError]

lemma mapError_eq_error_iff {f : ε → ε'} {x : Except ε α} {e : ε'} :
    x.mapError f = .error e ↔ ∃ fault, x = .error fault ∧ e = f fault := by
  cases x <;> simp [Except.mapError, eq_comm]

/-- If the state tells what was seen, and a step succeeds just if the items stay good with the new
one, then the whole fold succeeds just if all items are good together. -/
lemma foldlM_eq_ok_iff {step : σ → α → Except ε σ} (state : List α → σ) (Good : List α → Prop)
    (shorten : ∀ seen more, Good (seen ++ more) → Good seen)
    (hstep : ∀ seen a next, Good seen →
      (step (state seen) a = .ok next ↔ Good (seen ++ [a]) ∧ next = state (seen ++ [a])))
    {items : List α} {last : σ} (seen : List α) (start : Good seen) :
    items.foldlM step (state seen) = .ok last ↔
      Good (seen ++ items) ∧ last = state (seen ++ items) := by
  induction items generalizing seen with
  | nil =>
    rw [List.append_nil]
    constructor
    · intro h
      cases h
      exact ⟨start, rfl⟩
    · rintro ⟨_, rfl⟩
      rfl
  | cons a items ih =>
    rw [List.foldlM_cons, bind_eq_ok_iff, List.append_cons]
    constructor
    · rintro ⟨next, hnext, hrest⟩
      obtain ⟨hgood, rfl⟩ := (hstep seen a next start).mp hnext
      exact (ih _ hgood).mp hrest
    · intro h
      have hgood := shorten (seen ++ [a]) items h.1
      exact ⟨_, (hstep seen a _ start).mpr ⟨hgood, rfl⟩, (ih _ hgood).mpr h⟩

/-- What every step keeps, the whole fold keeps. -/
lemma foldlM_invariant {step : σ → α → Except ε σ} {P : σ → Prop}
    (hstep : ∀ state a next, P state → step state a = .ok next → P next) {items : List α}
    {start last : σ} (hstart : P start) (h : items.foldlM step start = .ok last) : P last := by
  induction items generalizing start with
  | nil =>
    cases h
    exact hstart
  | cons a items ih =>
    rw [List.foldlM_cons, bind_eq_ok_iff] at h
    obtain ⟨next, hnext, hrest⟩ := h
    exact ih (hstep start a next hstart hnext) hrest

/-- A fold fails at the first item whose step fails. -/
lemma foldlM_eq_error_iff {step : σ → α → Except ε σ} {items : List α} {start : σ} {e : ε} :
    items.foldlM step start = .error e ↔ ∃ before a after state, items = before ++ a :: after ∧
      before.foldlM step start = .ok state ∧ step state a = .error e := by
  constructor
  · intro h
    induction items generalizing start with
    | nil => cases h
    | cons a items ih =>
      rw [List.foldlM_cons, bind_eq_error_iff] at h
      rcases h with ha | ⟨next, hnext, hrest⟩
      · exact ⟨[], a, items, start, rfl, rfl, ha⟩
      · obtain ⟨before, b, after, state, rfl, hbefore, hb⟩ := ih hrest
        refine ⟨a :: before, b, after, state, rfl, ?_, hb⟩
        rw [List.foldlM_cons, hnext]
        exact hbefore
  · rintro ⟨before, a, after, state, rfl, hbefore, ha⟩
    rw [List.foldlM_append, hbefore, ok_bind, List.foldlM_cons, ha]
    rfl

/-! ### Images of results -/

section Images

variable {α' β' σ' : Type}

/-- Two steps come to an image if the second step takes the image of the first to it. -/
lemma map_bind_comm {x : Except ε α} {f : α → α'} {g : β → β'} {step : α → Except ε β}
    {step' : α' → Except ε β'} (h : ∀ a, step' (f a) = (step a).map g) :
    x.map f >>= step' = (x >>= step).map g := by
  cases x with
  | error e => rfl
  | ok a => exact h a

/-- Results with the same image are the same failure, or both are successes. -/
lemma cases_of_map_eq {x y : Except ε α} {f : α → β} (h : x.map f = y.map f) :
    (∃ e, x = .error e ∧ y = .error e) ∨ ∃ a b, x = .ok a ∧ y = .ok b ∧ f a = f b := by
  cases x with
  | error e =>
    cases y with
    | error e' =>
      cases h
      exact Or.inl ⟨e, rfl, rfl⟩
    | ok b => cases h
  | ok a =>
    cases y with
    | error e => cases h
    | ok b => exact Or.inr ⟨a, b, rfl, rfl, Except.ok.inj h⟩

/-- A fold comes to an image if each of its steps does. -/
lemma foldlM_comm {step : σ → α → Except ε σ} {step' : σ' → α → Except ε σ'} {g : σ → σ'}
    {items : List α} (h : ∀ a ∈ items, ∀ state, step' (g state) a = (step state a).map g)
    (state : σ) : items.foldlM step' (g state) = (items.foldlM step state).map g := by
  induction items generalizing state with
  | nil => rfl
  | cons a items ih =>
    obtain ⟨ha, hitems⟩ := List.forall_mem_cons.mp h
    rw [List.foldlM_cons, List.foldlM_cons, ha]
    exact map_bind_comm fun next => ih hitems next

end Images

end DeclaredOptions.Steps
