import Aeropass.Lib.Runs
import Mathlib.Logic.Function.Basic

/-!
# Concurrent calls over a shared state

A `Program` says what one call does next on the shared state, from its own local state, and what
the environment does. `Sys` is the shared state with the local state of every call; its steps
interleave the calls in any order. `RelyGuarantee` is the rule all invariants are proved by: each
call keeps the shared invariant and its own assertion, and guarantees to the others a relation
between the shared states before and after that keeps theirs.
-/

namespace Threads

variable {σ ℓ α ε : Type*}

/-- A shared state and the local state of every call. -/
structure Sys (σ ℓ : Type*) where
  shared : σ
  locals : Nat → ℓ

/-- One step of the interleaving: of a call, or of the environment. -/
inductive Act (α ε : Type*) where
  | call (i : Nat) (a : α)
  | env (e : ε)

/-- The call that steps, with what moves it. -/
def Act.call? : Act α ε → Option (Nat × α)
  | .call i a => some (i, a)
  | .env _ => none

/-- What a call does next, and what the environment does. -/
structure Program (σ ℓ α ε : Type*) where
  call : Nat → σ → ℓ → α → Option (σ × ℓ)
  env : σ → ε → Option σ

/-- The interleaving of the calls with the environment. -/
def Program.step (P : Program σ ℓ α ε) (s : Sys σ ℓ) : Act α ε → Option (Sys σ ℓ)
  | .call i a => (P.call i s.shared (s.locals i) a).map fun r =>
      ⟨r.1, Function.update s.locals i r.2⟩
  | .env e => (P.env s.shared e).map fun σ' => ⟨σ', s.locals⟩

section
variable {P : Program σ ℓ α ε} {s t : Sys σ ℓ} {a : Act α ε} {i : Nat}

/-- A step of a call changes its own local state only. -/
theorem Program.step_call {b : α} (h : P.step s (.call i b) = some t) :
    ∃ r, P.call i s.shared (s.locals i) b = some r ∧ t.shared = r.1 ∧ t.locals i = r.2 ∧
      ∀ j, j ≠ i → t.locals j = s.locals j := by
  obtain ⟨r, hr, rfl⟩ := Option.map_eq_some_iff.1 h
  exact ⟨r, hr, rfl, Function.update_self .., fun j hj => Function.update_of_ne hj ..⟩

/-- A call that can take a step takes it in the system. -/
theorem Program.step_of_call {b : α} {r : σ × ℓ}
    (h : P.call i s.shared (s.locals i) b = some r) :
    ∃ t, P.step s (.call i b) = some t ∧ t.shared = r.1 ∧ t.locals i = r.2 ∧
      ∀ j, j ≠ i → t.locals j = s.locals j :=
  ⟨_, Option.map_eq_some_iff.2 ⟨r, h, rfl⟩, rfl, Function.update_self ..,
    fun _ hj => Function.update_of_ne hj ..⟩

/-- A step of the interleaving is one of a call or one of the environment, which changes no local
state. -/
theorem Program.step_cases (h : P.step s a = some t) :
    (∃ i b r, a = .call i b ∧ P.call i s.shared (s.locals i) b = some r ∧ t.shared = r.1 ∧
      t.locals i = r.2 ∧ ∀ j, j ≠ i → t.locals j = s.locals j) ∨
    (∃ e, a = .env e ∧ P.env s.shared e = some t.shared ∧ t.locals = s.locals) := by
  cases a with
  | call i b =>
    obtain ⟨r, hr⟩ := Program.step_call h
    exact .inl ⟨i, b, r, rfl, hr⟩
  | env e =>
    obtain ⟨σ', hr, rfl⟩ := Option.map_eq_some_iff.1 h
    exact .inr ⟨e, rfl, hr, rfl⟩

/-- What holds of the call that moved, and of the others as they were, holds of every call. -/
theorem Sys.forall_locals (C : Nat → ℓ → Prop) (hown : C i (t.locals i))
    (hother : ∀ j, j ≠ i → t.locals j = s.locals j) (hrest : ∀ j, j ≠ i → C j (s.locals j))
    (j : Nat) : C j (t.locals j) := by
  by_cases hij : j = i
  · rw [hij]
    exact hown
  · rw [hother j hij]
    exact hrest j hij

/-- The steps of the others leave the local state of a call. -/
theorem Program.locals_eq (h : P.step s a = some t) (hne : ∀ b, a ≠ .call i b) :
    t.locals i = s.locals i := by
  rcases Program.step_cases h with ⟨j, b, r, rfl, -, -, -, hother⟩ | ⟨e, -, -, hloc⟩
  · exact hother i fun hij => hne b (by rw [hij])
  · rw [hloc]

/-- Only its own steps move a call. -/
theorem Program.step_of_moved (h : P.step s a = some t) (hne : t.locals i ≠ s.locals i) :
    ∃ b, a = .call i b := by
  by_contra hno
  exact hne (Program.locals_eq h fun b hb => hno ⟨b, hb⟩)

end

variable {P : Program σ ℓ α ε}

/-- What has to be shown of a program: each step of a call keeps the shared invariant `Inv` and
the call's own assertion `Loc` and guarantees `Guar` to the others, `Guar` keeps the others'
assertions, and the environment keeps all of them. -/
structure RelyGuarantee (P : Program σ ℓ α ε) (Inv : σ → Prop) (Loc : Nat → σ → ℓ → Prop)
    (Guar : Nat → σ → σ → Prop) : Prop where
  call : ∀ {i g l a r}, Inv g → Loc i g l → P.call i g l a = some r →
    Inv r.1 ∧ Loc i r.1 r.2 ∧ Guar i g r.1
  stable : ∀ {i j g g' l}, j ≠ i → Guar i g g' → Loc j g l → Loc j g' l
  env : ∀ {g e g'}, Inv g → P.env g e = some g' → Inv g' ∧ ∀ i l, Loc i g l → Loc i g' l

/-- The invariant of the whole system. -/
def Holds (Inv : σ → Prop) (Loc : Nat → σ → ℓ → Prop) (s : Sys σ ℓ) : Prop :=
  Inv s.shared ∧ ∀ i, Loc i s.shared (s.locals i)

section
variable {init : Sys σ ℓ → Prop} {Inv : σ → Prop} {Loc : Nat → σ → ℓ → Prop}
  {Guar : Nat → σ → σ → Prop} (h : RelyGuarantee P Inv Loc Guar) {s t : Sys σ ℓ}

include h

/-- A step of the interleaving keeps the invariant and the assertions of all calls. -/
theorem RelyGuarantee.step {a : Act α ε} (hs : Holds Inv Loc s) (hst : P.step s a = some t) :
    Holds Inv Loc t := by
  rcases Program.step_cases hst with ⟨i, b, r, rfl, hc, hsh, hl, hother⟩ | ⟨e, rfl, he, hl⟩
  · obtain ⟨hi, hown, hg⟩ := h.call hs.1 (hs.2 i) hc
    rw [← hsh, ← hl] at hown
    rw [← hsh] at hg
    exact ⟨hsh ▸ hi, Sys.forall_locals (fun j l => Loc j t.shared l) hown hother fun j hij =>
      h.stable hij hg (hs.2 j)⟩
  · obtain ⟨hi, hk⟩ := h.env hs.1 he
    refine ⟨hi, fun j => ?_⟩
    rw [hl]
    exact hk j _ (hs.2 j)

/-- So does every run. -/
theorem RelyGuarantee.run {as : List (Act α ε)} (hs : Holds Inv Loc s)
    (hr : Runs.run P.step s as = some t) : Holds Inv Loc t :=
  Runs.run_invariant (fun _ _ _ hs hst => h.step hs hst) hr hs

/-- **Rely–guarantee.** The invariant and the assertions of all calls hold in every reachable
state. -/
theorem RelyGuarantee.reachable (h0 : ∀ s, init s → Holds Inv Loc s)
    (hs : Runs.Reachable init P.step s) : Holds Inv Loc s :=
  hs.invariant h0 fun _ _ _ hs hst => h.step hs hst

end

end Threads
