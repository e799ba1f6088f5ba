import Aeropass.Breaker.Inv

/-!
# The gate of the breaker

What the breaker is for: after an opening no call that starts in the open period invokes `fn`, and
then one trial at a time does. Runs of calm steps keep both. Without calm neither holds: a call
that started before the opening writes its success over it, and two calls that read the same
expired state are both the trial.
-/

namespace Aeropass

open Binary64 Runs Threads

/-- The step records a failure that opens the circuit at the time `since`. -/
def Opens (cfg : BreakerSettings) (s : BreakerSystem) (a : Act BreakerAct BreakerEnv)
    (t : BreakerSystem) (since : ℚ) : Prop :=
  ∃ i b timeout now state next visto r, a = .call i b ∧
    s.locals i = .call timeout (.recording now state next visto r) ∧
    t.shared.store = s.shared.store.write next ∧ next.status = .opened ∧
    next.openUntil = add since cfg.openSeconds

/-- After a step of the run that opens the circuit at the time `since`, no call that starts in
`[since, since + open_seconds)` invokes `fn`. -/
def GateHolds (cfg : BreakerSettings) (s : BreakerSystem) (as : List (Act BreakerAct BreakerEnv)) :
    Prop :=
  ∀ pre a mid post u u' v since, as = pre ++ a :: (mid ++ post) →
    run (breakerStep cfg) s pre = some u → breakerStep cfg u a = some u' →
    run (breakerStep cfg) u' mid = some v → Opens cfg u a u' since →
    ∀ i now, u'.locals i = .idle → (v.locals i).invokedAt? = some now →
      ¬ (since ≤ now ∧ now < add since cfg.openSeconds)

/-- In every state of the run at most one trial is in flight. -/
def TrialsAlone (cfg : BreakerSettings) (s : BreakerSystem)
    (as : List (Act BreakerAct BreakerEnv)) : Prop :=
  ∀ pre post u, as = pre ++ post → run (breakerStep cfg) s pre = some u →
    ∀ i j, (u.locals i).inTrial = true → (u.locals j).inTrial = true → i = j

/-- The circuit is open until `b`, or it is `b` already. -/
def Shut (b : ℚ) (w : BreakerWorld) : Prop :=
  (w.store.value.status = .opened ∧ b ≤ w.store.value.openUntil) ∨ b ≤ w.clock.epochSeconds

/-- A call that started while the circuit was shut until `b` has not been let in: if it started
before `b`, the store that it started from was open for longer than that. -/
def BreakerCall.KeptOut (b : ℚ) : BreakerCall → Prop
  | .call _ (.getting now antes) =>
    now < b → antes.value.status = .opened ∧ b ≤ antes.value.openUntil
  | .call _ (.marking now _ _) | .call _ (.running now _ _) => b ≤ now
  | _ => True

variable {cfg : BreakerSettings} {w w' : BreakerWorld} {s t : BreakerSystem} {b : ℚ}

/-- A save that loses nothing leaves the circuit shut. -/
theorem Shut.save (h : Shut b w) {l : BreakerCall} (hl : l.OK w) {next : BreakerState}
    {visto : Cell BreakerState} (hv : visto ∈ l.visto?) (hok : SaveOK w.store visto next) :
    Shut b (w.save next) := by
  rcases h with ⟨hs, hb⟩ | hb
  · obtain ⟨hearlier, hpast⟩ := hl.visto hv
    rcases hok with hc | hf | ⟨-, hn, hle⟩
    · rw [hs] at hc
      cases hc
    · -- the call saw this open state, so it saw its end
      have hval := hearlier.value hf
      rw [hval] at hpast
      exact .inr (hb.trans (hpast hs))
    · exact .inl ⟨hn, hb.trans hle⟩
  · exact .inr hb

/-- Calm steps leave the circuit shut. -/
theorem Shut.step (h : Shut b s.shared) (hok : BreakerOK s) {a : Act BreakerAct BreakerEnv}
    (hc : Calm s a t) (hst : breakerStep cfg s a = some t) : Shut b t.shared := by
  rcases breakerStep_effect hc hst with ⟨i, c, rfl, heff, -⟩ | ⟨-, hlater, hstore⟩
  · have hknown := hok.known i
    have hsave := hc.save _ rfl
    change ∀ sv ∈ (s.locals i).saving?, SaveOK s.shared.store sv.2 sv.1 at hsave
    generalize s.locals i = l at heff hknown hsave
    generalize t.locals i = l' at heff
    cases heff with
    | start hw | stop hw | pass hw | trial hw | ran hw => rw [hw]; exact h
    | mark hw => rw [hw]; exact h.save hknown rfl (hsave _ rfl)
    | save hsv hw =>
      rw [hw]
      exact h.save hknown (BreakerCall.visto_of_saving hsv) (hsave _ hsv)
  · have hclock := Instant.epochSeconds_mono hlater.clock
    rcases hstore with hstore | rfl
    · rcases h with h | h
      · rw [Shut, hstore]
        exact .inl h
      · exact .inr (h.trans hclock)
    · rcases h with ⟨hs, hb⟩ | h
      · exact .inr ((hb.trans ((hc.expire rfl).2 hs)).trans hclock)
      · exact .inr (h.trans hclock)

/-- A call is not let in by a state that keeps it out. -/
theorem BreakerCall.KeptOut.le_now {timeout now : ℚ} {antes : Cell BreakerState}
    (h : (BreakerCall.call timeout (.getting now antes)).KeptOut b)
    (hl : (BreakerCall.call timeout (.getting now antes)).OK w)
    (hget : antes.value.status = .opened → now < antes.value.openUntil →
      antes.writes = w.store.writes)
    (hin : w.store.value.status = .opened → w.store.value.openUntil ≤ now) : b ≤ now := by
  by_contra hlt
  obtain ⟨hs, hb⟩ := h (not_le.1 hlt)
  have hnow := (not_le.1 hlt).trans_le hb
  have hval := hl.2.value (hget hs hnow)
  rw [hval] at hs hnow
  exact not_le.2 hnow (hin hs)

/-- Calm steps keep out the calls that start while the circuit is shut. -/
theorem keptOut_step (hsh : Shut b s.shared) (hok : BreakerOK s) {i : Nat}
    (h : (s.locals i).KeptOut b) {a : Act BreakerAct BreakerEnv} (hc : Calm s a t)
    (hst : breakerStep cfg s a = some t) : (t.locals i).KeptOut b := by
  rcases breakerStep_effect hc hst with ⟨k, c, rfl, heff, hother⟩ | ⟨hloc, -, -⟩
  · by_cases hik : i = k
    · subst hik
      have hknown := hok.known i
      have hget := hc.get _ rfl
      change ∀ g ∈ (s.locals i).getting?, g.2.value.status = .opened →
        g.1 < g.2.value.openUntil → g.2.writes = s.shared.store.writes at hget
      generalize s.locals i = l at heff hknown hget h
      generalize t.locals i = l' at heff
      cases heff with
      | start =>
        intro hlt
        exact hsh.resolve_right (not_le.2 hlt)
      | stop | ran | save => trivial
      | pass _ hs =>
        refine h.le_now hknown (hget _ rfl) fun ho => ?_
        rw [hs] at ho
        cases ho
      | trial _ hopen => exact h.le_now hknown (hget _ rfl) hopen
      | mark => exact h
    · rw [hother i hik]
      exact h
  · rw [hloc]
    exact h

/-- The key expires. -/
def isExpire : Act BreakerAct BreakerEnv → Bool
  | .env .expire => true
  | _ => false

/-- The end of the timeout of a call that awaits `fn`, counted from its start. -/
def BreakerCall.deadline? : BreakerCall → Option ℚ
  | .call timeout (.running now _ _) => some (add now timeout)
  | _ => none

/-- A step on a store that answers and keeps the key. -/
def StoreAnswers (_ : BreakerSystem) (a : Act BreakerAct BreakerEnv) (_ : BreakerSystem) : Prop :=
  (∀ c ∈ a.call?, ∀ ch ∈ c.2.choice?, ch.storeFails = false) ∧ isExpire a = false

/-- A call whose `fn` ends in this step started no longer than its timeout ago. -/
def InTimeout (s : BreakerSystem) (a : Act BreakerAct BreakerEnv) (_ : BreakerSystem) : Prop :=
  ∀ c ∈ a.call?, ∀ d ∈ (s.locals c.1).deadline?, s.shared.clock.epochSeconds ≤ d

/-- No call from number `n` on has started. -/
def IdleFrom (n : Nat) (s : BreakerSystem) : Prop := ∀ i, n ≤ i → s.locals i = .idle

/-- A step of one of the first `n` calls that can be seen to be calm from these calls. -/
def PlainlyCalm (n : Nat) (s : BreakerSystem) (a : Act BreakerAct BreakerEnv)
    (t : BreakerSystem) : Prop :=
  StoreAnswers s a t ∧ (∀ c ∈ a.call?, c.1 < n) ∧
  (∀ c ∈ a.call?, ∀ g ∈ (s.locals c.1).getting?,
    (g.2.value.status = .opened → g.1 < g.2.value.openUntil →
      g.2.writes = s.shared.store.writes) ∧
    ∀ i < n, ∀ b ∈ (s.locals i).trialUntil?, s.shared.clock.epochSeconds < b) ∧
  ∀ c ∈ a.call?, ∀ sv ∈ (s.locals c.1).saving?, SaveOK s.shared.store sv.2 sv.1

instance (s : BreakerSystem) (a : Act BreakerAct BreakerEnv) (t : BreakerSystem) :
    Decidable (StoreAnswers s a t) := inferInstanceAs (Decidable (_ ∧ _))

instance (s : BreakerSystem) (a : Act BreakerAct BreakerEnv) (t : BreakerSystem) :
    Decidable (InTimeout s a t) :=
  inferInstanceAs (Decidable
    (∀ c ∈ a.call?, ∀ d ∈ (s.locals c.1).deadline?, s.shared.clock.epochSeconds ≤ d))

instance (n : Nat) (s : BreakerSystem) (a : Act BreakerAct BreakerEnv) (t : BreakerSystem) :
    Decidable (PlainlyCalm n s a t) := inferInstanceAs (Decidable (_ ∧ _ ∧ _ ∧ _))

/-- A step that is plainly calm is calm: the calls that are idle run nothing. -/
theorem PlainlyCalm.calm {n : Nat} (hidle : IdleFrom n s) {a : Act BreakerAct BreakerEnv}
    (h : PlainlyCalm n s a t) : Calm s a t where
  answers c hc ch hch _ := h.1.1 c hc ch hch
  get c hc g hg := (h.2.2.1 c hc g hg).1
  inTime c hc g hg i b hb := by
    by_cases hi : i < n
    · exact (h.2.2.1 c hc g hg).2 i hi b hb
    · rw [hidle i (Nat.not_lt.1 hi)] at hb
      cases hb
  save := h.2.2.2
  expire ha := by
    have hno := h.1.2
    rw [ha] at hno
    cases hno

theorem IdleFrom.step {n : Nat} (hidle : IdleFrom n s) {a : Act BreakerAct BreakerEnv}
    (h : PlainlyCalm n s a t) (hst : breakerStep cfg s a = some t) : IdleFrom n t := by
  intro i hi
  rw [Program.locals_eq hst fun b hb => ?_, hidle i hi]
  exact absurd (h.2.1 (i, b) (by rw [hb]; rfl)) (Nat.not_lt.2 hi)

/-- Calm steps of the first `n` calls, from a system in which no other has started. -/
theorem calm_of_plainly {n : Nat} {as : List (Act BreakerAct BreakerEnv)} (hidle : IdleFrom n s)
    (h : EachStep (breakerStep cfg) (PlainlyCalm n) s as) : EachStep (breakerStep cfg) Calm s as :=
  h.of_invariant (fun _ _ _ hi hp hst => hi.step hp hst) (fun _ _ _ hi hp _ => hp.calm hi) hidle

/-- A breaker whose calls have not started. -/
def sampleBreaker : BreakerSystem := ⟨⟨⟨{}, 0⟩, 0, seconds 1000⟩, fun _ => .idle⟩

theorem sampleBreaker_initial : sampleBreaker.Initial := ⟨rfl, rfl⟩

/-- Call `i` with a timeout of a second starts and makes `n` steps. -/
def breakerCall (i n : Nat) (ch : BreakerChoice) : List (Act BreakerAct BreakerEnv) :=
  .call i (.call 1) :: List.replicate n (.call i (.next ch))

/-- Calls 1 to 4 fail. -/
def fourFailures : List (Act BreakerAct BreakerEnv) :=
  [1, 2, 3, 4].flatMap fun i => breakerCall i 3 { succeeds := false }

/-- Call 5 fails too, and is about to record that. -/
def fifthFailure : List (Act BreakerAct BreakerEnv) := breakerCall 5 2 { succeeds := false }

/-- Call 5 opens the circuit, call 6 is rejected, and after the period call 7 is the trial and
call 8 is rejected. -/
def calmRun : List (Act BreakerAct BreakerEnv) :=
  fourFailures ++ fifthFailure ++ .call 5 (.next {}) :: breakerCall 6 1 {} ++
    .env (.tick 30000000) :: breakerCall 7 2 {} ++ breakerCall 8 1 {} ++
    List.replicate 2 (.call 7 (.next {}))

/-- Call 6 starts after the first of four failures; then call 5 is about to open the circuit. -/
def beforeOpening : List (Act BreakerAct BreakerEnv) :=
  breakerCall 1 3 { succeeds := false } ++ breakerCall 6 1 {} ++
    ([2, 3, 4].flatMap fun i => breakerCall i 3 { succeeds := false }) ++ fifthFailure

/-- After the opening call 6 succeeds and saves that, and call 7 starts. -/
def staleSuccess : List (Act BreakerAct BreakerEnv) :=
  List.replicate 2 (.call 6 (.next {})) ++ breakerCall 7 1 {}

/-- The success of call 6 closes the circuit in its open period, and call 7 invokes `fn`. -/
theorem staleSuccess_opens_gate :
    ¬ GateHolds {} sampleBreaker (beforeOpening ++ .call 5 (.next {}) :: (staleSuccess ++ [])) := by
  intro h
  obtain ⟨v, hv⟩ := Option.isSome_iff_exists.1 (by decide +kernel : (run (breakerStep {})
    sampleBreaker (beforeOpening ++ .call 5 (.next {}) :: staleSuccess)).isSome = true)
  obtain ⟨u, u', hu, hst, hmid⟩ := run_split hv
  have hbefore : (run (breakerStep {}) sampleBreaker beforeOpening).map
      (fun u => (u.locals 5, u.locals 7)) =
        some (.call 1 (.recording 1000 { failures := 4, windowStart := 1000 }
          { status := .opened, openUntil := 1030 }
          ⟨{ failures := 4, windowStart := 1000 }, 4⟩ .raised), .idle) := by
    decide +kernel
  have hafter : (run (breakerStep {}) sampleBreaker
      (beforeOpening ++ .call 5 (.next {}) :: staleSuccess)).map
        (fun v => (v.locals 7).invokedAt?) = some (some 1000) := by
    decide +kernel
  rw [hu, Option.map_some, Option.some.injEq, Prod.mk.injEq] at hbefore
  rw [hv, Option.map_some, Option.some.injEq] at hafter
  have hst' := hst
  obtain ⟨r, hr, rfl⟩ := Option.map_eq_some_iff.1 hst'
  have hr : breakerProgramStep {} u.shared (u.locals 5) (.next {}) = some r := hr
  rw [hbefore.1] at hr
  cases hr
  refine h beforeOpening _ staleSuccess [] u _ v 1000 rfl hu hst hmid
    ⟨5, _, _, _, _, _, _, _, rfl, hbefore.1, rfl, rfl, by decide +kernel⟩ 7 1000 ?_ hafter
    (by decide +kernel)
  exact hbefore.2

/-- After the open period calls 7 and 8 read the same state before either has marked it. -/
def twoReaders : List (Act BreakerAct BreakerEnv) :=
  fourFailures ++ fifthFailure ++ .call 5 (.next {}) :: .env (.tick 30000000) ::
    breakerCall 7 1 {} ++ breakerCall 8 1 {} ++ [.call 7 (.next {}), .call 8 (.next {})]

/-- Both are the trial. -/
theorem twoReaders_both_try : ¬ TrialsAlone {} sampleBreaker twoReaders := by
  intro h
  obtain ⟨v, hv⟩ := Option.isSome_iff_exists.1 (by decide +kernel :
    (run (breakerStep {}) sampleBreaker twoReaders).isSome = true)
  have hafter : (run (breakerStep {}) sampleBreaker twoReaders).map
      (fun v => ((v.locals 7).inTrial, (v.locals 8).inTrial)) = some (true, true) := by
    decide +kernel
  rw [hv, Option.map_some, Option.some.injEq, Prod.mk.injEq] at hafter
  exact absurd (h twoReaders [] v (by simp) hv 7 8 hafter.1 hafter.2) (by decide)

end Aeropass
