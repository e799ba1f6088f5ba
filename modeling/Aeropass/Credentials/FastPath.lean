import Aeropass.Credentials.Reach

/-!
# The Redis fast path

A negative answer of `may_be_usable` is always right once the `issue` call of the credential has
returned: an ACTIVA credential has an ACTIVA key that outlives it, so the credential is final or
was due at that instant (`Unusable`), and it stays so.
-/

namespace Aeropass

open CredentialTables CredencialAcceso Runs Threads

variable {cfg : PassSettings} {i j : Nat} {jti : UUID} {actor : String} {b : Instant}
  {s t : CredentialSystem}

/-- The `issue` call of the credential has ended and the credential is final or was due at `b`. -/
structure Unusable (i : Nat) (jti : UUID) (b : Instant) (s : CredentialSystem) : Prop where
  issuer : s.shared.issuer jti = some i
  done : ∃ user codigo r, s.locals i = .issue user codigo (.done r)
  past : b ≤ s.shared.clock
  due : ∀ r, s.shared.tables.row? jti = some r → r.estado.live = true → r.expiraAt ≤ b

/-- A negative answer means that the credential is not usable at its instant. -/
theorem unusable_of_mayBeUsable (fault : RedisFault) (hw : WorldOK s.shared)
    (hissuer : s.shared.issuer jti = some i)
    (hdone : ∃ user codigo r, s.locals i = .issue user codigo (.done r))
    (hans : s.shared.redis.mayBeUsable s.shared.clock fault jti = some false) :
    Unusable i jti s.shared.clock s where
  issuer := hissuer
  done := hdone
  past := Int.le_refl _
  due r hr hlive := by
    have hact : r.estado = .activa := by
      have hne := hw.noEmitida hr
      revert hlive hne
      cases r.estado <;> simp [EstadoCredencial.live]
    obtain ⟨e, he, hv, hx⟩ := hw.token hr hact
    unfold Redis.mayBeUsable Redis.get at hans
    split at hans
    · rw [he] at hans
      by_cases hlt : s.shared.clock < e.expira
      · simp [hlt, hv] at hans
      · simp only [Instant] at *
        omega
    · cases hans

/-- The `issue` call of the credential takes no further step. -/
theorem Unusable.not_call (h : Unusable i jti b s) {a : Act CallAct EnvAct}
    (hst : credentialStep cfg s a = some t) : ∀ b, a ≠ .call i b := by
  obtain ⟨user, codigo, res, hl⟩ := h.done
  rintro b rfl
  obtain ⟨r, hc, -⟩ := Program.step_call hst
  rw [hl] at hc
  cases b <;> cases hc

/-- A live row of a credential that was not usable was a live row of the same issue. -/
theorem Unusable.live (hs : CredentialsOK cfg s) (h : Unusable i jti b s) {a : Act CallAct EnvAct}
    (hst : credentialStep cfg s a = some t) {r : CredencialAccesoRow}
    (hr : t.shared.tables.row? jti = some r) (hlive : r.estado.live = true) :
    ∃ r₀, s.shared.tables.row? jti = some r₀ ∧ r₀.estado.live = true ∧
      r.expiraAt = r₀.expiraAt := by
  have hrely := step_rely hs hst i (h.not_call hst)
  cases hrow : s.shared.tables.row? jti with
  | none => rw [hrely.fresh h.issuer hrow] at hr; cases hr
  | some r₀ =>
    obtain ⟨r', hr', hsame, hf⟩ := hrely.evolves.row hrow
    rw [hr, Option.some.injEq] at hr'
    subst hr'
    refine ⟨r₀, rfl, ?_, hsame.eqs.2.2.2⟩
    by_contra hdead
    rw [Bool.not_eq_true] at hdead
    rw [hf hdead, hdead] at hlive
    cases hlive

/-- What is not usable stays so: its `issue` call has ended, and nobody else inserts it. -/
theorem Unusable.step (hs : CredentialsOK cfg s) (h : Unusable i jti b s)
    {a : Act CallAct EnvAct} (hst : credentialStep cfg s a = some t) : Unusable i jti b t := by
  have hne := h.not_call hst
  have hrely := step_rely hs hst i hne
  obtain ⟨user, codigo, res, hl⟩ := h.done
  refine ⟨hrely.issuer_some h.issuer, ⟨user, codigo, res, (Program.locals_eq hst hne).trans hl⟩,
    Int.le_trans h.past hrely.clock, fun r hr hlive => ?_⟩
  obtain ⟨r₀, hrow, hlive₀, he⟩ := h.live hs hst hr hlive
  rw [he]
  exact h.due r₀ hrow hlive₀

/-- A `consume` call that has not read its clock or read it at `b` or later, or one that has ended
without CONSUMIDA. -/
def WontConsume (j : Nat) (jti : UUID) (actor : String) (b : Instant) (s : CredentialSystem) :
    Prop :=
  s.locals j = .consume jti actor .start ∨
  (∃ now, s.locals j = .consume jti actor (.read now) ∧ b ≤ now) ∨
  ∃ r, s.locals j = .consume jti actor (.done r) ∧ r ≠ .ok .consumida

/-- No state is rejected with CONSUMIDA. -/
theorem rejection_ne_consumida (e : EstadoCredencial) : rejection e ≠ some .consumida := by
  cases e <;> simp [rejection]

/-- A call that reads its clock at `b` or later does not consume what was due at `b`. -/
theorem WontConsume.step (hu : Unusable i jti b s) (h : WontConsume j jti actor b s)
    {a : Act CallAct EnvAct} (hst : credentialStep cfg s a = some t) :
    WontConsume j jti actor b t := by
  by_cases hmoved : t.locals j = s.locals j
  · unfold WontConsume
    rw [hmoved]
    exact h
  obtain ⟨c, rfl⟩ := Program.step_of_moved hst hmoved
  obtain ⟨r, hc, -, htl, -⟩ := Program.step_call hst
  rcases h with hl | ⟨now, hl, hnow⟩ | ⟨res, hl, -⟩
  · rw [hl] at hc
    cases c with
    | invoke q => cases hc
    | next ch =>
      cases hc
      exact .inr (.inl ⟨s.shared.clock, htl, hu.past⟩)
  · rw [hl] at hc
    cases c with
    | invoke q => cases hc
    | next ch =>
      obtain ⟨r', hr', rfl⟩ := Option.map_eq_some_iff.1 hc
      obtain ⟨-, ⟨-, rfl⟩ | ⟨c, -, rfl⟩ | ⟨c, hg, -, hans⟩⟩ := consumeStep_read hr'
      · exact .inr (.inr ⟨_, htl, by simp⟩)
      · exact .inr (.inr ⟨_, htl, by simp⟩)
      · obtain ⟨hrow, -, -⟩ := getForUpdate_eq_some hg
        rcases consumed_cases c now actor with ⟨hact, hlt, -, -⟩ | ⟨-, hacc, -⟩
        · have := hu.due _ hrow (by rw [hact]; rfl)
          simp only [Instant] at *
          omega
        · rcases hans with ⟨hacc', -⟩ | ⟨-, answer, hrej, hans⟩
          · rw [hacc] at hacc'; cases hacc'
          · refine .inr (.inr ⟨_, by rw [htl, hans], ?_⟩)
            rintro ⟨⟩
            exact rejection_ne_consumida _ hrej
  · rw [hl] at hc
    cases c <;> cases hc

/-- **A negative answer of the fast path is always right.** When the `issue` call of a credential
has ended and then `may_be_usable` answers False, no `consume` call ends with CONSUMIDA that, in
some state after the answer, has not read its clock or has read it at the instant of the answer or
later. -/
theorem mayBeUsable_false {cfg : PassSettings} {s₁ s₂ s₃ : CredentialSystem} {i k : Nat}
    {jti : UUID} {user codigo : String} {res : Except Failure IssuedPass} {ch : Choice}
    {as : List (Act CallAct EnvAct)}
    (hs : Reachable CredentialSystem.Initial (credentialStep cfg) s₁)
    (hissuer : s₁.shared.issuer jti = some i)
    (hdone : s₁.locals i = .issue user codigo (.done res))
    (hask : credentialStep cfg s₁ (.call k (.next ch)) = some s₂)
    (hk : s₁.locals k = .mayBeUsable jti none)
    (hans : s₂.locals k = .mayBeUsable jti (some (some false)))
    (hrun : run (credentialStep cfg) s₂ as = some s₃) :
    ∀ pre post j actor s, as = pre ++ post → run (credentialStep cfg) s₂ pre = some s →
      (s.locals j = .consume jti actor .start ∨
        ∃ now, s.locals j = .consume jti actor (.read now) ∧ s₁.shared.clock ≤ now) →
      s₃.locals j ≠ .consume jti actor (.done (.ok .consumida)) := by
  have hok := credential_inv hs
  have hrg := credential_relyGuarantee cfg
  -- the answer changes nothing shared, so it is about the state before and after it
  have hu : Unusable i jti s₁.shared.clock s₂ := by
    refine Unusable.step hok (unusable_of_mayBeUsable ch.fault hok.1 hissuer
      ⟨user, codigo, res, hdone⟩ ?_) hask
    obtain ⟨r, hc, -, ht, -⟩ := Program.step_call hask
    rw [hk] at hc
    cases hc
    rw [ht] at hans
    simpa using hans
  intro pre post j actor s has hpre hj
  have hstep : ∀ u a v, (CredentialsOK cfg u ∧ Unusable i jti s₁.shared.clock u) →
      credentialStep cfg u a = some v → CredentialsOK cfg v ∧ Unusable i jti s₁.shared.clock v :=
    fun u a v hu hst => ⟨hrg.step hu.1 hst, hu.2.step hu.1 hst⟩
  have hmid := run_invariant hstep hpre ⟨hrg.step hok hask, hu⟩
  have hrest : run (credentialStep cfg) s post = some s₃ := by
    rw [has, run_append, hpre] at hrun
    exact hrun
  have hend := run_invariant (I := fun u =>
      (CredentialsOK cfg u ∧ Unusable i jti s₁.shared.clock u) ∧
        WontConsume j jti actor s₁.shared.clock u)
    (fun u a v hu hst => ⟨hstep u a v hu.1 hst, hu.2.step hu.1.2 hst⟩) hrest
    ⟨hmid, hj.imp_right .inl⟩
  intro hcons
  rcases hend.2 with h | ⟨now, h, -⟩ | ⟨r, h, hne⟩
  · rw [hcons] at h; cases h
  · rw [hcons] at h; cases h
  · rw [hcons] at h; cases h; exact hne rfl

/-- The pass is consumed, the proxy says so, and a second `consume` starts after its answer. -/
theorem mayBeUsable_false_sample :
    ∃ s₁ s₂ s₃, run (credentialStep sampleSettings) sampleStart (sampleIssue 0 7 ++
        callThrough 1 (.consume 7 "gate") 3 ++ callThrough 2 (.mayBeUsable 7) 0) = some s₁ ∧
      credentialStep sampleSettings s₁ (.call 2 (.next {})) = some s₂ ∧
      s₂.locals 2 = .mayBeUsable 7 (some (some false)) ∧
      run (credentialStep sampleSettings) s₂ (callThrough 3 (.consume 7 "gate") 2) = some s₃ ∧
      s₃.locals 3 ≠ .consume 7 "gate" (.done (.ok .consumida)) := by
  obtain ⟨s₁, h₁⟩ := Option.isSome_iff_exists.1 (by decide +kernel :
    (run (credentialStep sampleSettings) sampleStart (sampleIssue 0 7 ++
      callThrough 1 (.consume 7 "gate") 3 ++ callThrough 2 (.mayBeUsable 7) 0)).isSome = true)
  have hr := Reachable.run (.start sampleStart_initial) h₁
  cases h₁
  refine ⟨_, _, _, rfl, rfl, rfl, rfl, ?_⟩
  exact mayBeUsable_false (i := 0) (k := 2) hr rfl rfl rfl rfl rfl rfl
    [.call 3 (.invoke (.consume 7 "gate"))] (List.replicate 2 (.call 3 (.next {}))) 3 "gate" _ rfl
    rfl (.inl rfl)

end Aeropass
