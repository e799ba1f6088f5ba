import Aeropass.Lib.Threads
import Mathlib.Algebra.BigOperators.Group.Finset.Basic

/-!
# Accounts kept by concurrent calls

A quantity of the shared state that the calls report: what a call has entered into the shared state
and not reported yet it holds. When each step balances what is reported, held and entered, so does
every run (`ledger_run`).
-/

namespace Threads

variable {σ ℓ α ε β : Type*} {P : Program σ ℓ α ε} {s t : Sys σ ℓ} {held : ℓ → Nat} {I : Finset Nat}
  {i : Nat}

/-- What the calls of `I` hold together. -/
def Sys.total (held : ℓ → Nat) (I : Finset Nat) (s : Sys σ ℓ) : Nat := ∑ i ∈ I, held (s.locals i)

/-- Only calls of `I` hold anything. -/
def Sys.Within (held : ℓ → Nat) (I : Finset Nat) (s : Sys σ ℓ) : Prop :=
  ∀ i, i ∉ I → held (s.locals i) = 0

/-- A call that holds nothing does not count. -/
theorem Sys.Within.total_insert (h : s.Within held I) (i : Nat) :
    s.total held (insert i I) = s.total held I := by
  by_cases hi : i ∈ I
  · rw [Finset.insert_eq_of_mem hi]
  · rw [total, Finset.sum_insert hi, h i hi, Nat.zero_add]
    rfl

/-- What is held together changes by what one call does. -/
theorem Sys.total_step (hi : i ∈ I) (hother : ∀ j, j ≠ i → t.locals j = s.locals j) :
    t.total held I + held (s.locals i) = s.total held I + held (t.locals i) := by
  have hrest : ∑ j ∈ I.erase i, held (t.locals j) = ∑ j ∈ I.erase i, held (s.locals j) :=
    Finset.sum_congr rfl fun j hj => by rw [hother j (Finset.ne_of_mem_erase hj)]
  rw [total, total, ← Finset.add_sum_erase I _ hi, ← Finset.add_sum_erase I _ hi, hrest]
  omega

/-- **Ledger.** If each step of a call balances what it reports, what it holds and what is entered,
and the environment enters and reports nothing, then along every run what was reported and what is
held is what was entered. -/
theorem ledger_run {Inv : Sys σ ℓ → Prop} {obs : Sys σ ℓ → Act α ε → Sys σ ℓ → List β}
    {reported : β → Bool} {entered : σ → Nat}
    (hinv : ∀ s a t, Inv s → P.step s a = some t → Inv t)
    (hcall : ∀ s i b t, Inv s → P.step s (.call i b) = some t →
      (obs s (.call i b) t).countP reported + held (t.locals i) + entered s.shared =
        held (s.locals i) + entered t.shared)
    (henv : ∀ s e t, Inv s → P.step s (.env e) = some t →
      (obs s (.env e) t).countP reported = 0 ∧ entered t.shared = entered s.shared)
    (h0 : Inv s) (hentered : entered s.shared = 0) (hheld : ∀ i, held (s.locals i) = 0)
    {as : List (Act α ε)} (h : Runs.run P.step s as = some t) (hI : t.Within held I) :
    (Runs.outputs obs P.step s as).countP reported + t.total held I = entered t.shared := by
  have hrun : Inv t ∧ ∀ I, t.Within held I →
      (Runs.outputs obs P.step s as).countP reported + t.total held I = entered t.shared := by
    refine Runs.outputs_invariant (J := fun t o => Inv t ∧ ∀ I, t.Within held I →
      o.countP reported + t.total held I = entered t.shared) ⟨h0, fun I _ => ?_⟩ ?_ h
    · simp [Sys.total, hheld, hentered]
    · intro u o a v ⟨hu, hsum⟩ hst
      refine ⟨hinv u a v hu hst, fun I hI => ?_⟩
      rw [List.countP_append]
      cases a with
      | env e =>
        obtain ⟨hnone, hsame⟩ := henv u e v hu hst
        have hloc : v.locals = u.locals := by
          obtain ⟨_, _, rfl⟩ := Option.map_eq_some_iff.1 hst
          rfl
        have hI' : u.Within held I := fun j hj => hloc ▸ hI j hj
        have htotal : v.total held I = u.total held I := by
          rw [Sys.total, hloc]
          rfl
        rw [hnone, hsame, htotal, Nat.add_zero]
        exact hsum I hI'
      | call i b =>
        obtain ⟨_, _, _, _, hother⟩ := Program.step_call hst
        have hI' : u.Within held (insert i I) := by
          intro j hj
          rw [Finset.mem_insert, not_or] at hj
          rw [← hother j hj.1]
          exact hI j hj.2
        have hstep := hcall u i b v hu hst
        have htotal : v.total held (insert i I) + held (u.locals i) =
            u.total held (insert i I) + held (v.locals i) :=
          Sys.total_step (Finset.mem_insert_self i I) hother
        rw [hI.total_insert i] at htotal
        have hbefore := hsum _ hI'
        omega
  exact hrun.2 I hI

end Threads
