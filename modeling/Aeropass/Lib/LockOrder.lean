import Mathlib.Logic.Relation
import Mathlib.Tactic.Common

/-!
# Ordered locks

Calls hold locks and wait for locks that others hold. When every call takes its locks in the order
of a bounded rank, so that what it waits for ranks above all that it holds, the waits-for relation
leads from every holder to one that does not wait: there is no deadlock.
-/

namespace LockOrder

open Relation

variable {ι κ : Type*} {owner : κ → Option ι} {waits : ι → Option κ} {rank : κ → Nat} {bound : Nat}

/-- `i` waits for a lock that `j` holds. -/
def WaitsFor (owner : κ → Option ι) (waits : ι → Option κ) (i j : ι) : Prop :=
  ∃ k, waits i = some k ∧ owner k = some j

/-- Locks are taken in the order of their ranks, and only held locks are waited for. -/
structure Ordered (owner : κ → Option ι) (waits : ι → Option κ) (rank : κ → Nat) : Prop where
  held : ∀ {i k}, waits i = some k → ∃ j, owner k = some j
  order : ∀ {i k k'}, waits i = some k → owner k' = some i → rank k' < rank k

/-- **No deadlock.** From every holder a chain of waits leads to a holder that does not wait. -/
theorem Ordered.exists_not_waiting (h : Ordered owner waits rank) (hb : ∀ k, rank k ≤ bound)
    {k : κ} {i : ι} (hk : owner k = some i) :
    ∃ j k', owner k' = some j ∧ waits j = none ∧ ReflTransGen (WaitsFor owner waits) i j := by
  -- the chain climbs the ranks, so what is left of them decreases
  induction hn : bound - rank k using Nat.strongRecOn generalizing k i with
  | ind n ih =>
    cases hw : waits i with
    | none => exact ⟨i, k, hk, hw, .refl⟩
    | some k' =>
      obtain ⟨j, hj⟩ := h.held hw
      have hlt : rank k < rank k' := h.order hw hk
      have hle : rank k' ≤ bound := hb k'
      obtain ⟨l, k₁, hl, hno, hchain⟩ := ih (bound - rank k') (by omega) hj rfl
      exact ⟨l, k₁, hl, hno, .head ⟨k', hw, hj⟩ hchain⟩

/-- A chain of waits climbs the ranks. -/
theorem Ordered.rank_le (h : Ordered owner waits rank) {i j : ι}
    (hij : TransGen (WaitsFor owner waits) i j) :
    ∃ k k', waits i = some k ∧ owner k' = some j ∧ rank k ≤ rank k' := by
  induction hij with
  | single hst =>
    obtain ⟨k, hw, ho⟩ := hst
    exact ⟨k, k, hw, ho, Nat.le_refl _⟩
  | tail _ hst ih =>
    obtain ⟨k, k₁, hw, h1, hle⟩ := ih
    obtain ⟨k', hw', ho⟩ := hst
    exact ⟨k, k', hw, ho, Nat.le_trans hle (Nat.le_of_lt (h.order hw' h1))⟩

/-- So no call waits for itself, not even through others. -/
theorem Ordered.irrefl (h : Ordered owner waits rank) {i : ι} :
    ¬ TransGen (WaitsFor owner waits) i i := by
  intro hii
  obtain ⟨k, k', hw, ho, hle⟩ := h.rank_le hii
  have hlt := h.order hw ho
  omega

end LockOrder
