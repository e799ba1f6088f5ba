import Aeropass.Lib.Threads
import Mathlib.Logic.Equiv.Defs

/-!
# Threads that make calls of another program

A thread of `Q` may make calls of a program `P` over the same shared state, one call in each of its
slots, and do things of its own between them. When each of its steps is a step of one of its calls
or leaves the shared state and its calls (`Hosts`), every run of `Q` is a run of `P`, so what holds
of the reachable states of `P` holds under `Q`.
-/

namespace Threads

open Runs

variable {σ ℓ τ α β ε κ : Type*} {P : Program σ ℓ α ε} {Q : Program σ τ β ε} {calls : τ → κ → ℓ}
  {index : Nat × κ ≃ Nat}

/-- The threads of `Q` make calls of `P`: thread `i` in its slot `k` call `index (i, k)`. -/
structure Hosts [DecidableEq κ] (P : Program σ ℓ α ε) (Q : Program σ τ β ε) (calls : τ → κ → ℓ)
    (index : Nat × κ ≃ Nat) : Prop where
  call : ∀ {i w h b r}, Q.call i w h b = some r →
    (r.1 = w ∧ calls r.2 = calls h) ∨
    ∃ k a l, P.call (index (i, k)) w (calls h k) a = some (r.1, l) ∧
      calls r.2 = Function.update (calls h) k l
  env : ∀ {w e w'}, Q.env w e = some w' → P.env w e = some w'

/-- The calls that the threads make. -/
def Sys.hosted (calls : τ → κ → ℓ) (index : Nat × κ ≃ Nat) (s : Sys σ τ) : Sys σ ℓ where
  shared := s.shared
  locals j := calls (s.locals (index.symm j).1) (index.symm j).2

theorem Sys.hosted_index (calls : τ → κ → ℓ) (index : Nat × κ ≃ Nat) (s : Sys σ τ) (i : Nat)
    (k : κ) : (s.hosted calls index).locals (index (i, k)) = calls (s.locals i) k := by
  simp only [hosted, Equiv.symm_apply_apply]

/-- A thread that leaves the shared state and its calls leaves all calls. -/
theorem Sys.hosted_eq {s t : Sys σ τ} (hsh : t.shared = s.shared)
    (hcalls : ∀ i, calls (t.locals i) = calls (s.locals i)) :
    t.hosted calls index = s.hosted calls index := by
  simp only [hosted, hsh, hcalls]

variable [DecidableEq κ]

/-- A step of the threads is at most one step of their calls. -/
theorem Hosts.step (H : Hosts P Q calls index) {s t : Sys σ τ} {a : Act β ε}
    (h : Q.step s a = some t) :
    ∃ as, run P.step (s.hosted calls index) as = some (t.hosted calls index) := by
  rcases Program.step_cases h with ⟨i, b, r, rfl, hc, hsh, hi, hother⟩ | ⟨e, rfl, he, hl⟩
  · rcases H.call hc with ⟨hw, hcalls⟩ | ⟨k, a, l, hstep, hcalls⟩
    · refine ⟨[], ?_⟩
      rw [run_nil, Sys.hosted_eq (hsh.trans hw) fun j => ?_]
      exact Sys.forall_locals (fun j h => calls h = calls (s.locals j)) (by rw [hi]; exact hcalls)
        hother (fun _ _ => rfl) j
    · refine ⟨[.call (index (i, k)) a], ?_⟩
      rw [← Sys.hosted_index calls index s i k] at hstep
      obtain ⟨u, hu, hus, hui, huo⟩ := Program.step_of_call
        (s := s.hosted calls index) hstep
      rw [run_singleton, hu]
      have hshared : u.shared = (t.hosted calls index).shared := hus.trans hsh.symm
      have hlocals : u.locals = (t.hosted calls index).locals := by
        funext j
        obtain ⟨⟨i', k'⟩, rfl⟩ := index.surjective j
        rw [Sys.hosted_index]
        by_cases heq : (i', k') = (i, k)
        · obtain ⟨rfl, rfl⟩ := Prod.mk.inj heq
          rw [hui, hi, hcalls, Function.update_self]
        · rw [huo _ fun hj => heq (index.injective hj), Sys.hosted_index]
          by_cases hii : i' = i
          · subst hii
            have hk : k' ≠ k := fun hk => heq (by rw [hk])
            rw [hi, hcalls, Function.update_of_ne hk]
          · rw [hother i' hii]
      cases u
      cases hshared
      cases hlocals
      rfl
  · refine ⟨[.env e], ?_⟩
    have henv := H.env he
    rw [run_singleton]
    simp only [Program.step, Sys.hosted] at henv ⊢
    rw [henv, hl]
    rfl

/-- A run of the threads is a run of their calls. -/
theorem Hosts.run (H : Hosts P Q calls index) {s t : Sys σ τ} {as : List (Act β ε)}
    (h : Runs.run Q.step s as = some t) :
    ∃ bs, Runs.run P.step (s.hosted calls index) bs = some (t.hosted calls index) := by
  obtain ⟨bs, t', hbs, rfl⟩ := run_sim (R := fun s s' => s' = s.hosted calls index)
    (fun s s' a t hR hst => by
      obtain ⟨as', has⟩ := H.step hst
      exact ⟨as', _, hR ▸ has, rfl⟩) h rfl
  exact ⟨bs, hbs⟩

/-- What the threads reach, their calls reach. -/
theorem Hosts.reachable (H : Hosts P Q calls index) {init : Sys σ τ → Prop}
    {init' : Sys σ ℓ → Prop} (h0 : ∀ s, init s → init' (s.hosted calls index)) {s : Sys σ τ}
    (hs : Reachable init Q.step s) : Reachable init' P.step (s.hosted calls index) :=
  hs.project (fun s => s.hosted calls index) h0 H.run

end Threads
