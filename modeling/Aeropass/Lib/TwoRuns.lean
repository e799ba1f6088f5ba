import Mathlib.Data.List.Forall2

/-!
# Runs of a computation

A computation in `Except` run once: `Returns` says that it raises nothing. And run twice, on
arguments that a relation takes for alike: `TwoRuns R` says that the runs raise the same, or return
what `R` relates. The rules follow the structure of the computation.
-/

/-- The run returns. -/
def Returns {ε α : Type} (x : Except ε α) : Prop := ∃ a, x = .ok a

namespace Returns

variable {ε α β : Type} {x : Except ε α}

@[simp] theorem ok (a : α) : Returns (.ok a : Except ε α) := ⟨a, rfl⟩

@[simp] theorem pure (a : α) : Returns (Pure.pure a : Except ε α) := ⟨a, rfl⟩

@[simp] theorem not_error (e : ε) : ¬ Returns (.error e : Except ε α) := by
  rintro ⟨a, h⟩
  cases h

/-- A sequence returns when its first part does, and what follows on its result. -/
theorem bind_iff {f : α → Except ε β} : Returns (x >>= f) ↔ ∃ a, x = .ok a ∧ Returns (f a) := by
  cases x with
  | error e =>
    constructor
    · rintro ⟨b, h⟩
      cases h
    · rintro ⟨a, h, -⟩
      cases h
  | ok a =>
    constructor
    · intro h
      exact ⟨a, rfl, h⟩
    · rintro ⟨a', h, hf⟩
      cases h
      exact hf

/-- A sequence whose second part always returns. -/
theorem bind_pure_iff {f : α → β} : Returns (x >>= fun a => Pure.pure (f a)) ↔ Returns x := by
  rw [bind_iff]
  constructor
  · rintro ⟨a, h, -⟩
    exact ⟨a, h⟩
  · rintro ⟨a, h⟩
    exact ⟨a, h, pure (f a)⟩

/-- A loop returns when its body returns on every item. -/
theorem mapM_iff {f : α → Except ε β} {xs : List α} :
    Returns (xs.mapM f) ↔ ∀ x ∈ xs, Returns (f x) := by
  induction xs with
  | nil => exact iff_of_true (pure []) (List.forall_mem_nil _)
  | cons x xs ih =>
    rw [List.mapM_cons, List.forall_mem_cons, ← ih, bind_iff]
    constructor
    · rintro ⟨y, hy, h⟩
      exact ⟨⟨y, hy⟩, bind_pure_iff.1 h⟩
    · rintro ⟨⟨y, hy⟩, h⟩
      exact ⟨y, hy, bind_pure_iff.2 h⟩

/-- What a loop returns, item by item. -/
theorem forall₂_of_mapM {f : α → Except ε β} {xs : List α} {ys : List β}
    (h : xs.mapM f = .ok ys) : List.Forall₂ (fun x y => f x = .ok y) xs ys := by
  induction xs generalizing ys with
  | nil =>
    cases h
    exact .nil
  | cons x xs ih =>
    rw [List.mapM_cons] at h
    cases hx : f x with
    | error e =>
      rw [hx] at h
      cases h
    | ok y =>
      cases hxs : xs.mapM f with
      | error e =>
        rw [hx, hxs] at h
        cases h
      | ok ys' =>
        rw [hx, hxs] at h
        cases h
        exact .cons hx (ih hxs)

/-- An item of the second list has a related one in the first. -/
theorem exists_of_forall₂ {R : α → β → Prop} {xs : List α} {ys : List β}
    (h : List.Forall₂ R xs ys) {y : β} (hy : y ∈ ys) : ∃ x ∈ xs, R x y := by
  induction h with
  | nil => cases hy
  | @cons x y' xs ys hxy _ ih =>
    rcases List.mem_cons.1 hy with rfl | hy
    · exact ⟨x, List.mem_cons_self, hxy⟩
    · obtain ⟨x', hx', hxy'⟩ := ih hy
      exact ⟨x', List.mem_cons_of_mem x hx', hxy'⟩

/-- What a loop returns comes from its items. -/
theorem mem_mapM {f : α → Except ε β} {xs : List α} {ys : List β} (h : xs.mapM f = .ok ys) {y : β}
    (hy : y ∈ ys) : ∃ x ∈ xs, f x = .ok y :=
  exists_of_forall₂ (forall₂_of_mapM h) hy

/-- So does what it raises. -/
theorem mapM_error {f : α → Except ε β} {xs : List α} {e : ε} (h : xs.mapM f = .error e) :
    ∃ x ∈ xs, f x = .error e := by
  induction xs with
  | nil => cases h
  | cons x xs ih =>
    rw [List.mapM_cons] at h
    cases hx : f x with
    | error e' =>
      rw [hx] at h
      cases h
      exact ⟨x, List.mem_cons_self, hx⟩
    | ok y =>
      cases hxs : xs.mapM f with
      | error e' =>
        rw [hx, hxs] at h
        cases h
        obtain ⟨x', hx', hf⟩ := ih hxs
        exact ⟨x', List.mem_cons_of_mem x hx', hf⟩
      | ok ys =>
        rw [hx, hxs] at h
        cases h

end Returns

/-- Both runs raise the same, or return related values. -/
def TwoRuns {ε α β : Type} (R : α → β → Prop) : Except ε α → Except ε β → Prop
  | .ok a, .ok b => R a b
  | .error e, .error e' => e = e'
  | _, _ => False

namespace TwoRuns

variable {ε α β γ δ : Type} {R : α → β → Prop} {S : γ → δ → Prop} {x : Except ε α}
  {y : Except ε β}

theorem pure {a : α} {b : β} (h : R a b) :
    TwoRuns R (Pure.pure a : Except ε α) (Pure.pure b : Except ε β) := h

theorem error (e : ε) : TwoRuns R (.error e) (.error e) := rfl

theorem refl (x : Except ε α) : TwoRuns Eq x x := by
  cases x <;> rfl

/-- The rule of sequences. -/
theorem bind {f : α → Except ε γ} {g : β → Except ε δ} (h : TwoRuns R x y)
    (hfg : ∀ a b, R a b → TwoRuns S (f a) (g b)) : TwoRuns S (x >>= f) (y >>= g) := by
  cases x with
  | error e =>
    cases y with
    | error e' => exact h
    | ok b => exact h.elim
  | ok a =>
    cases y with
    | error e' => exact h.elim
    | ok b => exact hfg a b h

/-- The rule of branches on which the runs agree. -/
theorem ite {c : Prop} [Decidable c] {x' : Except ε α} {y' : Except ε β} (h : TwoRuns R x y)
    (h' : TwoRuns R x' y') : TwoRuns R (if c then x else x') (if c then y else y') := by
  split
  · exact h
  · exact h'

/-- Two runs with a relation have any weaker one. -/
theorem mono {R' : α → β → Prop} (h : TwoRuns R x y) (hR : ∀ a b, R a b → R' a b) :
    TwoRuns R' x y := by
  cases x with
  | error e =>
    cases y with
    | error e' => exact h
    | ok b => exact h.elim
  | ok a =>
    cases y with
    | error e' => exact h.elim
    | ok b => exact hR a b h

/-- The rule of loops: over two lists of related items, in step. -/
theorem mapM {f : α → Except ε γ} {g : β → Except ε δ} {xs : List α} {ys : List β}
    (h : List.Forall₂ R xs ys) (hfg : ∀ a b, R a b → TwoRuns S (f a) (g b)) :
    TwoRuns (List.Forall₂ S) (xs.mapM f) (ys.mapM g) := by
  induction h with
  | nil => exact .nil
  | cons hab _ ih =>
    rw [List.mapM_cons, List.mapM_cons]
    refine bind (hfg _ _ hab) fun c d hcd => ?_
    exact bind ih fun cs ds hcds => .cons hcd hcds

/-- If one run returns, so does the other, with a related value. -/
theorem ok {a : α} (h : TwoRuns R x y) (hx : x = .ok a) : ∃ b, y = .ok b ∧ R a b := by
  subst hx
  cases y with
  | error e => exact h.elim
  | ok b => exact ⟨b, rfl, h⟩

end TwoRuns
