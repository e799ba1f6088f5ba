import Aeropass.Credentials.View

/-!
# Calls at rest

A call that has not begun or is over (`Call.AtRest`) holds no lock. So when one call runs while the
others rest, only the locks it holds itself can be in its way (`LocksOK.free`).
-/

namespace Aeropass

open CredentialTables CredencialAcceso Runs Threads

variable {cfg : PassSettings} {i j : Nat} {w w' : World} {ch : Choice}

/-- The call has not begun or is over. -/
def Call.AtRest : Call → Prop
  | .idle | .issue _ _ (.done _) | .consume _ _ (.done _) | .revokeById _ _ (.done _)
  | .detail _ _ (.done _ _) | .sweep _ (.done _) | .mayBeUsable _ (some _) => True
  | _ => False

/-- The rows a call may hold, from where it is. -/
def Call.MayHold (k : Lock) : Call → Prop
  | .issue _ _ (.locked _ _ _) | .issue _ _ (.dated _) => ∃ id, k = .pasajero id
  | .issue _ _ (.renewing _ _) | .issue _ _ (.ready _) | .issue _ _ (.built _ _ _)
  | .issue _ _ (.added _ _ _) | .issue _ _ (.registered _ _ _) | .issue _ _ (.unregistered _ _)
  | .revokeById _ _ (.locked _) | .revokeById _ _ (.refreshed _) | .revokeById _ _ (.revoked _ _)
  | .detail _ _ (.locked _) | .detail _ _ (.refreshed _ _ _) => True
  | _ => False

/-- Every lock is held by a call that may hold it. -/
def LocksOK (s : CredentialSystem) : Prop :=
  ∀ k j, s.shared.locks k = some j → (s.locals j).MayHold k

theorem Call.AtRest.not_mayHold {l : Call} (h : l.AtRest) (k : Lock) : ¬ l.MayHold k := by
  unfold Call.AtRest at h
  split at h <;> first | exact h.elim | exact id

/-- What a step does to the locks: it keeps them, takes one, or frees those of its call. -/
def LockStep (i : Nat) (w w' : World) (l l' : Call) : Prop :=
  (w'.locks = w.locks ∧ ∀ k, l.MayHold k → l'.MayHold k) ∨
  (∃ k, w'.locks = (w.acquire i k).locks ∧ l'.MayHold k ∧ ∀ k, l.MayHold k → l'.MayHold k) ∨
  w'.locks = (w.release i).locks

/-- What one step of `issue` does to the locks. -/
theorem issueStep_locks {user codigoVuelo : String} {ph : IssuePhase} {r : World × IssuePhase}
    (h : issueStep cfg i w user codigoVuelo ch ph = some r) :
    LockStep i w r.1 (.issue user codigoVuelo ph) (.issue user codigoVuelo r.2) := by
  cases ph with
  | start | validated | found =>
    simp only [issueStep] at h
    split at h <;> cases h <;> exact .inl ⟨rfl, fun _ => id⟩
  | locked | built =>
    simp only [issueStep] at h
    split at h <;> cases h
    all_goals first | exact .inr (.inr rfl) | exact .inl ⟨rfl, fun _ => id⟩
  | added =>
    simp only [issueStep] at h
    split at h <;> cases h <;> exact .inl ⟨rfl, fun _ => id⟩
  | admitted codigo p =>
    simp only [issueStep] at h
    split at h
    · cases h; exact .inl ⟨rfl, fun _ => id⟩
    split at h
    · cases h
    split at h <;> cases h
    · exact .inl ⟨rfl, fun _ => id⟩
    · exact .inr (.inl ⟨_, rfl, ⟨_, rfl⟩, fun _ h => h.elim⟩)
  | dated tx =>
    simp only [issueStep] at h
    split at h
    · cases h; exact .inl ⟨rfl, fun _ _ => trivial⟩
    split at h
    · cases h
    split at h <;> cases h <;> exact .inr (.inl ⟨_, rfl, trivial, fun _ _ => trivial⟩)
  | renewing => cases h; exact .inl ⟨rfl, fun _ => id⟩
  | ready tx =>
    simp only [issueStep] at h
    split at h
    · cases h
    split at h <;> cases h
    · exact .inl ⟨rfl, fun _ => id⟩
    · exact .inr (.inr rfl)
  | registered =>
    simp only [issueStep] at h
    split at h
    · split at h <;> cases h <;> exact .inr (.inr rfl)
    · cases h; exact .inr (.inr rfl)
  | unregistered =>
    simp only [issueStep] at h
    split at h <;> cases h <;> exact .inr (.inr rfl)
  | committed => cases h; exact .inl ⟨rfl, fun _ => id⟩
  | done => cases h

/-- The locks after one step of a call. -/
theorem callStep_locks {l : Call} {a : CallAct} {r : World × Call}
    (h : callStep cfg i w l a = some r) : LockStep i w r.1 l r.2 := by
  cases a with
  | invoke q =>
    cases l with
    | idle => cases h; exact .inl ⟨rfl, fun _ h => h.elim⟩
    | issue | consume | revokeById | detail | sweep => cases h
    | mayBeUsable jti ans => cases ans <;> cases h
  | next ch =>
    cases l with
    | idle => cases h
    | issue user codigoVuelo ph =>
      obtain ⟨r', hr', rfl⟩ := Option.map_eq_some_iff.1 h
      exact issueStep_locks hr'
    | consume jti actor ph =>
      obtain ⟨r', hr', rfl⟩ := Option.map_eq_some_iff.1 h
      cases ph with
      | start | marking => cases hr'; exact .inl ⟨rfl, fun _ => id⟩
      | read now =>
        obtain ⟨-, ⟨-, rfl⟩ | ⟨c, -, rfl⟩ | ⟨c, -, hw, -⟩⟩ := consumeStep_read hr'
        · exact .inl ⟨rfl, fun _ h => h.elim⟩
        · exact .inl ⟨rfl, fun _ h => h.elim⟩
        · rw [hw]; exact .inr (.inr rfl)
      | done => cases hr'
    | revokeById jti motivo ph =>
      obtain ⟨r', hr', rfl⟩ := Option.map_eq_some_iff.1 h
      cases ph with
      | start =>
        simp only [revokeStep] at hr'
        split at hr'
        · cases hr'
        split at hr' <;> cases hr'
        · exact .inl ⟨rfl, fun _ h => h.elim⟩
        · exact .inr (.inl ⟨_, rfl, trivial, fun _ _ => trivial⟩)
      | locked | refreshed | forgetting => cases hr'; exact .inl ⟨rfl, fun _ => id⟩
      | revoked =>
        simp only [revokeStep] at hr'
        split at hr'
        · split at hr' <;> cases hr' <;> exact .inr (.inr rfl)
        · cases hr'; exact .inr (.inr rfl)
      | done => cases hr'
    | detail jti pasajeroId ph =>
      obtain ⟨r', hr', rfl⟩ := Option.map_eq_some_iff.1 h
      cases ph with
      | start =>
        simp only [detailStep] at hr'
        split at hr'
        · cases hr'
        split at hr'
        · cases hr'; exact .inl ⟨rfl, fun _ h => h.elim⟩
        split at hr' <;> cases hr'
        · exact .inl ⟨rfl, fun _ h => h.elim⟩
        · exact .inr (.inl ⟨_, rfl, trivial, fun _ _ => trivial⟩)
      | locked =>
        simp only [detailStep] at hr'
        split at hr' <;> cases hr' <;> exact .inl ⟨rfl, fun _ => id⟩
      | refreshed =>
        simp only [detailStep] at hr'
        split at hr' <;> cases hr' <;> exact .inr (.inr rfl)
      | done => cases hr'
    | sweep limit ph =>
      obtain ⟨r', hr', rfl⟩ := Option.map_eq_some_iff.1 h
      cases ph with
      | start => cases hr'; exact .inl ⟨rfl, fun _ => id⟩
      | read =>
        simp only [sweepStep] at hr'
        split at hr' <;> cases hr'
        · exact .inr (.inr rfl)
        · exact .inl ⟨rfl, fun _ => id⟩
      | done => cases hr'
    | mayBeUsable jti ans =>
      cases ans <;> cases h
      exact .inl ⟨rfl, fun _ => id⟩

/-- The locks after one step of the system. -/
theorem LocksOK.step {s t : CredentialSystem} (h : LocksOK s) {a : Act CallAct EnvAct}
    (hst : credentialStep cfg s a = some t) : LocksOK t := by
  intro k j hk
  rcases Program.step_cases hst with ⟨i, b, r, rfl, hc, hsh, hl, hother⟩ | ⟨e, rfl, he, hl⟩
  · rw [hsh] at hk
    rcases callStep_locks hc with ⟨heq, hkeep⟩ | ⟨k', heq, hnew, hkeep⟩ | heq
    · rw [heq] at hk
      by_cases hj : j = i
      · subst hj; rw [hl]; exact hkeep k (h k j hk)
      · rw [hother j hj]; exact h k j hk
    · rw [heq] at hk
      by_cases hkk : k = k'
      · subst hkk
        rw [acquire_self, Option.some.injEq] at hk
        subst hk
        rw [hl]
        exact hnew
      · have hold : s.shared.locks k = some j := by
          rw [← hk]
          exact (Function.update_of_ne hkk ..).symm
        by_cases hj : j = i
        · rw [hj, hl]; exact hkeep k (hj ▸ h k j hold)
        · rw [hother j hj]; exact h k j hold
    · rw [heq] at hk
      simp only [World.release] at hk
      split at hk
      · cases hk
      · next hne =>
        have hj : j ≠ i := by rintro rfl; exact hne hk
        rw [hother j hj]
        exact h k j hk
  · have : t.shared.locks = s.shared.locks := by
      cases e with
      | tick d => rw [← Option.some.inj he]
      | others p q => rw [← Option.some.inj he]
    rw [this] at hk
    rw [hl]
    exact h k j hk

/-- What a call may not hold is free when the others hold nothing. -/
theorem LocksOK.free {s : CredentialSystem} (h : LocksOK s)
    (hrest : ∀ j, j ≠ i → ∀ k, ¬ (s.locals j).MayHold k) {k : Lock}
    (hk : ¬ (s.locals i).MayHold k) : s.shared.locks k = none := by
  rw [Option.eq_none_iff_forall_ne_some]
  intro j hj
  by_cases hij : j = i
  · subst hij; exact hk (h k j hj)
  · exact hrest j hij k (h k j hj)

end Aeropass
