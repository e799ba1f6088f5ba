import Aeropass.Breaker.Gate
import Mathlib.Data.Finset.Card

/-!
# Failures of overlapping calls

As many calls as the threshold, let through by the closed circuit, fail within one window of the
first of them while no call succeeds (`FailTogether`). Each has read the count before it ran `fn`
and writes its own back, so overlapping calls overwrite each other's failures. None is lost where
every save of a closed state finds the store as its call last saw it, and no failure restarts the
window, from the first of the calls that has recorded on (`CountsKept`): then the last one to record
leaves the circuit open (`failTogether_opens`).
-/

namespace Aeropass

open Binary64 Runs Threads

/-! ## Failing together -/

/-- The state of a call whose `fn` ends in this step, and whether it succeeds. -/
def BreakerCall.ends? : BreakerCall → BreakerAct → Option (BreakerState × Bool)
  | .call _ (.running _ state _), .next ch =>
    if ch.cancelled then none else some (state, ch.succeeds)
  | _, _ => none

/-- The call has recorded the failure of its `fn` and raised it. -/
def BreakerCall.recorded : BreakerCall → Bool
  | .call _ (.done .raised) => true
  | _ => false

/-- The failures of calls that the closed circuit let through, with their times. -/
def failureObs (s : BreakerSystem) (a : Act BreakerAct BreakerEnv) (_ : BreakerSystem) :
    List (Nat × Instant) :=
  match a with
  | .call i b => match (s.locals i).ends? b with
    | some (state, false) => if state.status = .closed then [(i, s.shared.clock)] else []
    | _ => []
  | .env _ => []

/-- No call succeeds in this step. -/
def NoSuccess (s : BreakerSystem) (a : Act BreakerAct BreakerEnv) (_ : BreakerSystem) : Prop :=
  ∀ c ∈ a.call?, ∀ e ∈ (s.locals c.1).ends? c.2, e.2 = false

instance (s : BreakerSystem) (a : Act BreakerAct BreakerEnv) (t : BreakerSystem) :
    Decidable (NoSuccess s a t) :=
  inferInstanceAs (Decidable (∀ c ∈ a.call?, ∀ e ∈ (s.locals c.1).ends? c.2, e.2 = false))

/-- In the run from `u` over `mid` the calls of `I`, as many as the threshold, start, are let
through by the closed circuit, fail within `window_seconds` of the first of their failures, and
record that, one of them in the last step; meanwhile no call succeeds. -/
structure FailTogether (cfg : BreakerSettings) (I : Finset Nat) (u : BreakerSystem)
    (mid : List (Act BreakerAct BreakerEnv)) (v : BreakerSystem) : Prop where
  card : I.card = cfg.failureThreshold
  idle : ∀ i ∈ I, u.locals i = .idle
  recorded : ∀ i ∈ I, (v.locals i).recorded
  within : ∃ first ∈ outputs failureObs (breakerStep cfg) u mid, first.1 ∈ I ∧ ∀ i ∈ I, ∃ t,
    (i, t) ∈ outputs failureObs (breakerStep cfg) u mid ∧ first.2 ≤ t ∧
      (t : ℚ) ≤ first.2 + cfg.windowSeconds * 1000000
  noSuccess : EachStep (breakerStep cfg) NoSuccess u mid
  last : ∃ mid' v' i b, mid = mid' ++ [.call i b] ∧ i ∈ I ∧
    run (breakerStep cfg) u mid' = some v' ∧ (v'.locals i).recorded = false

/-- Some of the calls have recorded. -/
def SomeRecorded (I : Finset Nat) (s : BreakerSystem) : Prop := ∃ i ∈ I, (s.locals i).recorded

/-- A step that loses none of the failures. The store answers and keeps the key; and once one of the
calls has recorded, a save of a closed state finds the store as its call last saw it, and no failure
finds its window over. -/
structure CountsKept (cfg : BreakerSettings) (I : Finset Nat) (s : BreakerSystem)
    (a : Act BreakerAct BreakerEnv) (t : BreakerSystem) : Prop where
  answers : StoreAnswers s a t
  save : SomeRecorded I s → ∀ c ∈ a.call?, ∀ sv ∈ (s.locals c.1).saving?,
    sv.1.status = .closed → sv.2.writes = s.shared.store.writes
  window : SomeRecorded I s → ∀ c ∈ a.call?, ∀ e ∈ (s.locals c.1).ends? c.2, e.2 = false →
    e.1.status = .closed → ¬ cfg.windowSeconds < sub s.shared.clock.epochSeconds e.1.windowStart

variable {cfg : BreakerSettings} {I : Finset Nat} {s t u v : BreakerSystem}
  {w w' : BreakerWorld} {ch : BreakerChoice}

/-! ## What a step does -/

/-- What a step of a call does. -/
inductive CallMove (cfg : BreakerSettings) (ch : BreakerChoice) (w : BreakerWorld) :
    BreakerWorld → BreakerPhase → BreakerPhase → Prop
  | stop {ph r} : r ≠ .raised → CallMove cfg ch w w ph (.done r)
  | pass {now antes state} : state.status = .closed →
    (ch.storeFails = false → state = w.store.value) →
    CallMove cfg ch w w (.getting now antes) (.running now state w.store)
  | trial {now antes state} : state.status = .halfOpen →
    CallMove cfg ch w w (.getting now antes) (.marking now state w.store)
  | mark {now state visto} : ch.storeFails = false →
    CallMove cfg ch w (w.save state) (.marking now state visto)
      (.running now state (w.save state).store)
  | markLost {now state visto} : ch.storeFails = true →
    CallMove cfg ch w w (.marking now state visto) (.running now state visto)
  | markCancelled {now state visto} : ch.storeFails = false →
    CallMove cfg ch w (w.save state) (.marking now state visto) (.done .cancelled)
  | fail {now state visto} : ch.cancelled = false → ch.succeeds = false →
    CallMove cfg ch w w (.running now state visto)
      (.recording now state (recordFailure cfg state w.clock.epochSeconds) visto .raised)
  | succeed {now state visto} : ch.cancelled = false → ch.succeeds = true →
    CallMove cfg ch w w (.running now state visto) (.recording now state {} visto .returned)
  | record {now state next visto r r'} : ch.storeFails = false → r' = r ∨ r' = .cancelled →
    CallMove cfg ch w (w.save next) (.recording now state next visto r) (.done r')
  | recordLost {now state next visto r r'} : ch.storeFails = true →
    CallMove cfg ch w w (.recording now state next visto r) (.done r')

/-- The moves of a call, by what the store and a cancellation do to it. -/
theorem breakerCallStep_move {timeout : ℚ} {ph : BreakerPhase} {r : BreakerWorld × BreakerPhase}
    (h : breakerCallStep cfg w timeout ch ph = some r) : CallMove cfg ch w r.1 ph r.2 := by
  cases ph with
  | getting now antes =>
    simp only [breakerCallStep] at h
    split at h
    · cases h; exact .stop (by simp)
    generalize hstate : (if ch.storeFails = true then {} else w.store.value) = state at h
    have hval : ch.storeFails = false → state = w.store.value := by
      intro hf
      rw [← hstate, hf]
      rfl
    split at h
    · cases h; exact .stop (by simp)
    cases hs : state.status with
    | closed =>
      simp only [hs, reduceCtorEq, if_false] at h
      cases h
      exact .pass hs hval
    | opened =>
      simp only [hs, if_true] at h
      split at h <;> cases h
      · exact .stop (by simp)
      · exact .trial rfl
    | halfOpen =>
      simp only [hs, reduceCtorEq, if_false, if_true] at h
      split at h <;> cases h
      · exact .stop (by simp)
      · exact .trial rfl
  | marking now state visto =>
    simp only [breakerCallStep] at h
    cases hf : ch.storeFails with
    | true =>
      simp only [hf, if_true] at h
      split at h <;> cases h
      · exact .stop (by simp)
      · exact .markLost hf
    | false =>
      simp only [hf, Bool.false_eq_true, if_false] at h
      split at h <;> cases h
      · exact .markCancelled hf
      · exact .mark hf
  | running now state visto =>
    simp only [breakerCallStep] at h
    split at h
    · cases h; exact .stop (by simp)
    next hcan =>
    have hcan := Bool.eq_false_iff.2 hcan
    split at h
    · next hok =>
      split at h <;> cases h
      · exact .succeed hcan hok
      · exact .stop (by simp)
    · next hok =>
      cases h
      exact .fail hcan (Bool.eq_false_iff.2 hok)
  | recording now state next visto r =>
    simp only [breakerCallStep] at h
    cases h
    cases hf : ch.storeFails with
    | true => exact .recordLost hf
    | false =>
      refine .record hf ?_
      split
      · exact .inr rfl
      · exact .inl rfl
  | done r => cases h

/-! ## In every run -/

/-- What a call knows in every run: what it saw of the store is not newer than the store, it runs in
the closed circuit or as the trial, and the closed state that it is about to save has fewer failures
than the threshold, and at least the one that it raises. -/
def BreakerCall.Sound (cfg : BreakerSettings) (w : BreakerWorld) : BreakerCall → Prop
  | .call _ (.marking _ state visto) => visto.writes ≤ w.store.writes ∧ state.status = .halfOpen
  | .call _ (.running _ state visto) => visto.writes ≤ w.store.writes ∧ state.status ≠ .opened
  | .call _ (.recording _ _ next visto r) => visto.writes ≤ w.store.writes ∧
    next.status ≠ .halfOpen ∧
    (next.status = .closed →
      next.failures < cfg.failureThreshold ∧ (r = .raised → 1 ≤ next.failures))
  | _ => True

/-- In every run the calls are sound, and a closed store has fewer failures than the threshold. -/
structure BreakerSound (cfg : BreakerSettings) (s : BreakerSystem) : Prop where
  calls : ∀ i, (s.locals i).Sound cfg s.shared
  few : s.shared.store.value.status = .closed →
    s.shared.store.value.failures < cfg.failureThreshold

/-- A call stays sound when others store. -/
theorem BreakerCall.Sound.mono {l : BreakerCall} (h : l.Sound cfg w)
    (hle : w.store.writes ≤ w'.store.writes) : l.Sound cfg w' := by
  cases l with
  | idle => trivial
  | call timeout ph =>
    cases ph with
    | getting | done => trivial
    | marking | running | recording => exact ⟨Nat.le_trans h.1 hle, h.2⟩

/-- The writes of a step. -/
theorem CallMove.writes {ph ph' : BreakerPhase} (h : CallMove cfg ch w w' ph ph') :
    w.store.writes ≤ w'.store.writes := by
  cases h with
  | stop | pass | trial | markLost | fail | succeed | recordLost => exact Nat.le_refl _
  | mark | markCancelled | record => exact Nat.le_succ _

/-- A move keeps the counters under the threshold. -/
theorem CallMove.sound {timeout : ℚ} {ph ph' : BreakerPhase} (hthr : 0 < cfg.failureThreshold)
    (h : CallMove cfg ch w w' ph ph') (hl : (BreakerCall.call timeout ph).Sound cfg w)
    (hfew : w.store.value.status = .closed → w.store.value.failures < cfg.failureThreshold) :
    (BreakerCall.call timeout ph').Sound cfg w' ∧
      (w'.store.value.status = .closed → w'.store.value.failures < cfg.failureThreshold) := by
  cases h with
  | stop => exact ⟨trivial, hfew⟩
  | recordLost => exact ⟨trivial, hfew⟩
  | pass hs => exact ⟨⟨Nat.le_refl _, by simp [hs]⟩, hfew⟩
  | trial hs => exact ⟨⟨Nat.le_refl _, hs⟩, hfew⟩
  | markLost => exact ⟨⟨hl.1, by simp [hl.2]⟩, hfew⟩
  | mark =>
    refine ⟨⟨Nat.le_refl _, by simp [hl.2]⟩, fun hc => ?_⟩
    simp only [BreakerWorld.save, Cell.write_value] at hc
    rw [hl.2] at hc
    cases hc
  | markCancelled =>
    refine ⟨trivial, fun hc => ?_⟩
    simp only [BreakerWorld.save, Cell.write_value] at hc
    rw [hl.2] at hc
    cases hc
  | fail =>
    obtain ⟨hnot, hcount⟩ := @recordFailure_spec cfg _ w.clock.epochSeconds hl.2
    exact ⟨⟨hl.1, hnot, fun hc => ⟨(hcount hc).1, fun _ => (hcount hc).2⟩⟩, hfew⟩
  | succeed => exact ⟨⟨hl.1, by simp, fun _ => ⟨hthr, by simp⟩⟩, hfew⟩
  | record => exact ⟨trivial, fun hc => (hl.2.2 hc).1⟩

/-- A step of the system starts a call, moves one, or is one of the environment. -/
theorem breakerStep_move {a : Act BreakerAct BreakerEnv} (h : breakerStep cfg s a = some t) :
    (∃ i timeout, a = .call i (.call timeout) ∧ t.shared = s.shared ∧ s.locals i = .idle ∧
      t.locals i = .call timeout (.getting s.shared.clock.epochSeconds s.shared.store) ∧
      ∀ j, j ≠ i → t.locals j = s.locals j) ∨
    (∃ i ch timeout ph ph', a = .call i (.next ch) ∧ s.locals i = .call timeout ph ∧
      t.locals i = .call timeout ph' ∧ CallMove cfg ch s.shared t.shared ph ph' ∧
      ∀ j, j ≠ i → t.locals j = s.locals j) ∨
    (t.locals = s.locals ∧ (t.shared.store = s.shared.store ∨
      (a = .env .expire ∧ t.shared.store = s.shared.store.write {}))) := by
  rcases Program.step_cases h with ⟨i, b, r, rfl, hr, hsh, hi, hother⟩ | ⟨e, rfl, he, hloc⟩
  · have hr : breakerProgramStep cfg s.shared (s.locals i) b = some r := hr
    cases hl : s.locals i with
    | idle =>
      rw [hl] at hr
      cases b with
      | call timeout =>
        cases hr
        exact .inl ⟨i, timeout, rfl, hsh, hl, hi, hother⟩
      | next => cases hr
    | call timeout ph =>
      rw [hl] at hr
      cases b with
      | call => cases hr
      | next ch =>
        obtain ⟨r', hr', rfl⟩ := Option.map_eq_some_iff.1 hr
        exact .inr (.inl ⟨i, ch, timeout, ph, r'.2, rfl, hl, hi,
          hsh ▸ breakerCallStep_move hr', hother⟩)
  · refine .inr (.inr ⟨hloc, ?_⟩)
    have he : breakerEnvStep s.shared e = some t.shared := he
    cases e with
    | tick d => exact .inl (by rw [← Option.some.inj he])
    | expire =>
      simp only [breakerEnvStep] at he
      split at he
      · exact .inr ⟨rfl, by rw [← Option.some.inj he]⟩
      · cases he

/-- Every step of the system keeps the counters under the threshold. -/
theorem BreakerSound.step (hthr : 0 < cfg.failureThreshold) (h : BreakerSound cfg s)
    {a : Act BreakerAct BreakerEnv} (hst : breakerStep cfg s a = some t) : BreakerSound cfg t := by
  rcases breakerStep_move hst with ⟨i, timeout, rfl, hsh, hidle, hi, hother⟩ |
    ⟨i, ch, timeout, ph, ph', rfl, hi, hi', hmove, hother⟩ | ⟨hloc, hstore⟩
  · refine ⟨?_, by rw [hsh]; exact h.few⟩
    rw [hsh]
    exact Sys.forall_locals (fun _ l => l.Sound cfg s.shared) (by rw [hi]; trivial) hother
      fun j _ => h.calls j
  · have hown := h.calls i
    rw [hi] at hown
    obtain ⟨hown', hfew⟩ := hmove.sound hthr hown h.few
    exact ⟨Sys.forall_locals (fun _ l => l.Sound cfg t.shared) (by rw [hi']; exact hown') hother
      fun j _ => (h.calls j).mono hmove.writes, hfew⟩
  · refine ⟨fun j => ?_, fun hc => ?_⟩
    · rw [hloc]
      refine (h.calls j).mono ?_
      rcases hstore with hstore | ⟨-, hstore⟩
      · rw [hstore]
      · rw [hstore]
        exact Nat.le_succ _
    · rcases hstore with hstore | ⟨-, hstore⟩
      · rw [hstore] at hc ⊢
        exact h.few hc
      · rw [hstore]
        exact hthr

theorem BreakerSystem.Initial.sound (hthr : 0 < cfg.failureThreshold) (h : s.Initial) :
    BreakerSound cfg s := by
  refine ⟨fun i => ?_, fun _ => ?_⟩
  · rw [h.2]
    trivial
  · rw [h.1]
    exact hthr

/-! ## In the stretch -/

/-- The calls that have recorded. -/
def recordedCalls (I : Finset Nat) (s : BreakerSystem) : Finset Nat :=
  I.filter fun i => (s.locals i).recorded

/-- The state is what a call saw of the store. -/
def Saw (s : BreakerSystem) (visto : Cell BreakerState) (state : BreakerState) : Prop :=
  visto.value = state ∧ visto.Earlier s.shared.store

/-- Once one of the calls has recorded, what a call saw is not the store any more. -/
def Outdated (I : Finset Nat) (s : BreakerSystem) (visto : Cell BreakerState) : Prop :=
  SomeRecorded I s → visto.writes < s.shared.store.writes

/-- What a call of the closed circuit is about to save is one failure more than it saw, or what it
saw is outdated. -/
def BreakerCall.Pending (I : Finset Nat) (s : BreakerSystem) : BreakerCall → Prop
  | .call _ (.running _ state visto) =>
    state.status = .closed → Saw s visto state ∨ Outdated I s visto
  | .call _ (.recording _ _ next visto _) => next.status = .closed →
    (∃ state, state.status = .closed ∧ Saw s visto state ∧
      next = { state with failures := state.failures + 1 }) ∨ Outdated I s visto
  | _ => True

/-- The invariant of the stretch: a closed store counts all failures that the calls have
recorded. -/
structure StretchOK (cfg : BreakerSettings) (I : Finset Nat) (s : BreakerSystem) : Prop where
  sound : BreakerSound cfg s
  pending : ∀ i, (s.locals i).Pending I s
  count : SomeRecorded I s → s.shared.store.value.status = .closed →
    (recordedCalls I s).card ≤ s.shared.store.value.failures

/-- What a step does to the store: it leaves it and records nothing, or writes it. -/
def QuietOrWrites (s t : BreakerSystem) : Prop :=
  (t.shared.store = s.shared.store ∧ ∀ i, (t.locals i).recorded → (s.locals i).recorded) ∨
    ∃ next, t.shared.store = s.shared.store.write next

theorem QuietOrWrites.earlier (h : QuietOrWrites s t) :
    s.shared.store.Earlier t.shared.store := by
  rcases h with ⟨h, -⟩ | ⟨next, h⟩
  · rw [h]
    exact .refl _
  · rw [h]
    exact Cell.earlier_write _ _

/-- A step that does not end its call with a failure records nothing. -/
theorem recorded_of_step {i : Nat} (hi : (t.locals i).recorded = false)
    (hother : ∀ j, j ≠ i → t.locals j = s.locals j) :
    ∀ j, (t.locals j).recorded → (s.locals j).recorded :=
  Sys.forall_locals (fun j l => l.recorded → (s.locals j).recorded) (by simp [hi]) hother
    fun _ _ => id

/-- What is outdated stays so. -/
theorem Outdated.step {visto : Cell BreakerState} (h : Outdated I s visto)
    (hle : visto.writes ≤ s.shared.store.writes) (hq : QuietOrWrites s t) : Outdated I t visto := by
  rintro ⟨i, hi, hrec⟩
  rcases hq with ⟨hstore, hback⟩ | ⟨next, hstore⟩
  · rw [hstore]
    exact h ⟨i, hi, hback i hrec⟩
  · rw [hstore, Cell.write_writes]
    omega

theorem Saw.step {visto : Cell BreakerState} {state : BreakerState} (h : Saw s visto state)
    (hq : QuietOrWrites s t) : Saw t visto state :=
  ⟨h.1, h.2.trans hq.earlier⟩

/-- The steps of the others leave what is pending. -/
theorem BreakerCall.Pending.step {l : BreakerCall} (h : l.Pending I s) (hl : l.Sound cfg s.shared)
    (hq : QuietOrWrites s t) : l.Pending I t := by
  cases l with
  | idle => trivial
  | call timeout ph =>
    cases ph with
    | getting | marking | done => trivial
    | running => exact fun hc => (h hc).imp (·.step hq) (·.step hl.1 hq)
    | recording =>
      intro hc
      rcases h hc with ⟨state, hs, hsaw, hnext⟩ | hout
      · exact .inl ⟨state, hs, hsaw.step hq, hnext⟩
      · exact .inr (hout.step hl.1 hq)

/-- A step that leaves the store leaves the count. -/
theorem StretchOK.count_quiet (h : StretchOK cfg I s) (hstore : t.shared.store = s.shared.store)
    (hback : ∀ i, (t.locals i).recorded → (s.locals i).recorded) :
    SomeRecorded I t → t.shared.store.value.status = .closed →
      (recordedCalls I t).card ≤ t.shared.store.value.failures := by
  rintro ⟨i, hi, hrec⟩ hc
  rw [hstore] at hc ⊢
  refine Nat.le_trans (Finset.card_le_card fun j hj => ?_) (h.count ⟨i, hi, hback i hrec⟩ hc)
  rw [recordedCalls, Finset.mem_filter] at hj ⊢
  exact ⟨hj.1, hback j hj.2⟩

/-- The record of a failure counts it. -/
theorem StretchOK.count_record (h : StretchOK cfg I s) {k : Nat} {timeout now : ℚ}
    {state next : BreakerState} {visto : Cell BreakerState} {r r' : CallEnd}
    (hk : s.locals k = .call timeout (.recording now state next visto r))
    (hk' : t.locals k = .call timeout (.done r')) (hr : r' = r ∨ r' = .cancelled)
    (hother : ∀ j, j ≠ k → t.locals j = s.locals j)
    (hsave : SomeRecorded I s → next.status = .closed → visto.writes = s.shared.store.writes)
    (hstore : t.shared.store = s.shared.store.write next) :
    SomeRecorded I t → t.shared.store.value.status = .closed →
      (recordedCalls I t).card ≤ t.shared.store.value.failures := by
  rintro ⟨i, hi, hrec⟩ hc
  rw [hstore, Cell.write_value] at hc ⊢
  have hsub : recordedCalls I t ⊆ insert k (recordedCalls I s) := by
    intro j hj
    rw [recordedCalls, Finset.mem_filter] at hj
    rw [Finset.mem_insert, recordedCalls, Finset.mem_filter]
    by_cases hjk : j = k
    · exact .inl hjk
    · rw [hother j hjk] at hj
      exact .inr hj
  have hcard := Nat.le_trans (Finset.card_le_card hsub) (Finset.card_insert_le _ _)
  by_cases hsome : SomeRecorded I s
  · -- the call saw the store as it is, and adds its failure
    have hpend := h.pending k
    rw [hk] at hpend
    have hseen := hsave hsome hc
    rcases hpend hc with ⟨st, hst, ⟨hval, hearlier⟩, rfl⟩ | hout
    · have hval' := hearlier.value hseen
      rw [hval] at hval'
      have hcount := h.count hsome (by rw [← hval']; exact hst)
      rw [← hval'] at hcount
      dsimp only
      omega
    · have := hout hsome
      omega
  · -- the first one to record
    have hnone : (recordedCalls I s).card = 0 := by
      rw [Finset.card_eq_zero, recordedCalls, Finset.filter_eq_empty_iff]
      intro j hj hrec
      exact hsome ⟨j, hj, hrec⟩
    have hik : i = k := by
      by_contra hne
      rw [hother i hne] at hrec
      exact hsome ⟨i, hi, hrec⟩
    subst hik
    have hsound := h.sound.calls i
    rw [hk] at hsound
    rw [hk'] at hrec
    have hraised : r = .raised := by
      rcases hr with rfl | rfl
      · revert hrec
        cases r' <;> simp [BreakerCall.recorded]
      · cases hrec
    have hone := (hsound.2.2 hc).2 hraised
    omega

/-- What a call is about to save after its own step. -/
theorem CallMove.pending {timeout : ℚ} {ph ph' : BreakerPhase} {i : Nat}
    (h : CallMove cfg ch s.shared t.shared ph ph') (hi : s.locals i = .call timeout ph)
    (hi' : t.locals i = .call timeout ph') (hother : ∀ j, j ≠ i → t.locals j = s.locals j)
    (hl : (BreakerCall.call timeout ph).Sound cfg s.shared)
    (hp : (BreakerCall.call timeout ph).Pending I s) (hf : ch.storeFails = false)
    (hkept : CountsKept cfg I s (.call i (.next ch)) t)
    (hno : NoSuccess s (.call i (.next ch)) t) : (BreakerCall.call timeout ph').Pending I t := by
  generalize hw : t.shared = w' at h
  cases h with
  | stop | trial | markCancelled | record | recordLost => trivial
  | markLost hlost => rw [hf] at hlost; cases hlost
  | pass hs hval =>
    refine fun _ => .inl ⟨(hval hf).symm, ?_⟩
    rw [hw]
    exact .refl _
  | mark =>
    intro hc
    rw [hl.2] at hc
    cases hc
  | succeed hcan hok =>
    have := hno _ rfl (_, true) (by rw [hi]; simp [BreakerCall.ends?, hcan, hok]; rfl)
    cases this
  | @fail now state visto hcan hfails =>
    have hback := recorded_of_step (by rw [hi']; rfl) hother
    intro hc
    cases hs : state.status with
    | opened => exact absurd hs hl.2
    | halfOpen => simp [recordFailure, hs] at hc
    | closed =>
      by_cases hsome : SomeRecorded I s
      · have hin : ¬ cfg.windowSeconds < sub s.shared.clock.epochSeconds state.windowStart :=
          hkept.window hsome _ rfl (state, false)
            (by rw [hi]; simp [BreakerCall.ends?, hcan, hfails]) rfl hs
        rw [recordFailure_inTime hs hin] at hc ⊢
        split at hc
        · cases hc
        · next hthr =>
          rw [if_neg hthr]
          have hq : QuietOrWrites s t := .inl ⟨by rw [hw], hback⟩
          exact (hp hs).imp (fun hsaw => ⟨state, hs, hsaw.step hq, rfl⟩) (·.step hl.1 hq)
      · -- none of the calls has recorded
        refine .inr fun hafter => absurd ?_ hsome
        obtain ⟨j, hj, hrec⟩ := hafter
        exact ⟨j, hj, hback j hrec⟩

/-- Steps that keep the counts keep the invariant. -/
theorem StretchOK.step (hthr : 0 < cfg.failureThreshold) (h : StretchOK cfg I s)
    {a : Act BreakerAct BreakerEnv} (hkept : CountsKept cfg I s a t) (hno : NoSuccess s a t)
    (hst : breakerStep cfg s a = some t) : StretchOK cfg I t := by
  have hsound := h.sound.step hthr hst
  rcases breakerStep_move hst with ⟨i, timeout, rfl, hsh, hidle, hi, hother⟩ |
    ⟨i, ch, timeout, ph, ph', rfl, hi, hi', hmove, hother⟩ | ⟨hloc, hstore⟩
  · have hback := recorded_of_step (by rw [hi]; rfl) hother
    have hstore : t.shared.store = s.shared.store := by rw [hsh]
    exact ⟨hsound, Sys.forall_locals (fun _ l => l.Pending I t) (by rw [hi]; trivial) hother
      fun j _ => (h.pending j).step (h.sound.calls j) (.inl ⟨hstore, hback⟩),
      h.count_quiet hstore hback⟩
  · have hf : ch.storeFails = false := hkept.answers.1 _ rfl ch rfl
    have hl := h.sound.calls i
    have hp := h.pending i
    rw [hi] at hl hp
    have hown := hmove.pending hi hi' hother hl hp hf hkept hno
    have hback : ph' ≠ .done .raised → ∀ j, (t.locals j).recorded → (s.locals j).recorded := by
      intro hne
      refine recorded_of_step ?_ hother
      rw [hi']
      unfold BreakerCall.recorded
      split
      · next heq =>
        cases heq
        exact absurd rfl hne
      · rfl
    have hrest : QuietOrWrites s t → ∀ j, (t.locals j).Pending I t := fun hq =>
      Sys.forall_locals (fun _ l => l.Pending I t) (by rw [hi']; exact hown) hother fun j _ =>
        (h.pending j).step (h.sound.calls j) hq
    generalize hw : t.shared = w' at hmove
    have hquiet : w' = s.shared → ph' ≠ .done .raised → StretchOK cfg I t := by
      intro hsame hne
      have hstore : t.shared.store = s.shared.store := by rw [hw, hsame]
      exact ⟨hsound, hrest (.inl ⟨hstore, hback hne⟩), h.count_quiet hstore (hback hne)⟩
    cases hmove with
    | stop hne => exact hquiet rfl fun he => hne (by cases he; rfl)
    | pass | trial | markLost | fail | succeed => exact hquiet rfl (by simp)
    | mark | markCancelled =>
      refine ⟨hsound, hrest (.inr ⟨_, by rw [hw]; rfl⟩), fun _ hc => ?_⟩
      rw [hw] at hc
      simp only [BreakerWorld.save, Cell.write_value] at hc
      rw [hl.2] at hc
      cases hc
    | recordLost hlost => rw [hf] at hlost; cases hlost
    | @record now state next visto r r' _ hr =>
      have hstore : t.shared.store = s.shared.store.write next := by rw [hw]; rfl
      refine ⟨hsound, hrest (.inr ⟨_, hstore⟩),
        h.count_record hi hi' hr hother (fun hsome hc => ?_) hstore⟩
      exact hkept.save hsome _ rfl (next, visto) (by rw [hi]; rfl) hc
  · rcases hstore with hstore | ⟨rfl, -⟩
    · have hback : ∀ j, (t.locals j).recorded → (s.locals j).recorded := by
        intro j hrec
        rwa [hloc] at hrec
      refine ⟨hsound, fun j => ?_, h.count_quiet hstore hback⟩
      rw [hloc]
      exact (h.pending j).step (h.sound.calls j) (.inl ⟨hstore, hback⟩)
    · have hno := hkept.answers.2
      cases hno

/-- **Failing together.** In every run from an empty store, calls that fail together in a stretch
whose steps keep the counts leave the circuit open when the last one of them has recorded. -/
theorem failTogether_opens (h0 : s.Initial) {pre mid : List (Act BreakerAct BreakerEnv)}
    (hu : run (breakerStep cfg) s pre = some u) (hv : run (breakerStep cfg) u mid = some v)
    (ht : FailTogether cfg I u mid v)
    (hkept : EachStep (breakerStep cfg) (CountsKept cfg I) u mid) :
    v.shared.store.value.status = .opened := by
  obtain ⟨mid', v', k, b, rfl, hk, hv', hnot⟩ := ht.last
  have hthr : 0 < cfg.failureThreshold := by
    rw [← ht.card]
    exact Finset.card_pos.2 ⟨k, hk⟩
  have hsound : BreakerSound cfg u :=
    run_invariant (fun _ _ _ hs hst => hs.step hthr hst) hu (h0.sound hthr)
  have hnone : ¬ SomeRecorded I u := by
    rintro ⟨i, hi, hrec⟩
    rw [ht.idle i hi] at hrec
    cases hrec
  have hstart : StretchOK cfg I u := by
    refine ⟨hsound, fun i => ?_, fun hsome => absurd hsome hnone⟩
    cases u.locals i with
    | idle => trivial
    | call timeout ph =>
      cases ph with
      | getting | marking | done => trivial
      | running | recording => exact fun _ => .inr fun hsome => absurd hsome hnone
  have hmid := hkept.and ht.noSuccess
  have hstep : ∀ x c y, StretchOK cfg I x → CountsKept cfg I x c y ∧ NoSuccess x c y →
      breakerStep cfg x c = some y → StretchOK cfg I y := fun x c y hx hc hxy =>
    hx.step hthr hc.1 hc.2 hxy
  have hbefore : StretchOK cfg I v' := hmid.left.invariant hstep hv' hstart
  have hafter : StretchOK cfg I v := hmid.invariant hstep hv hstart
  obtain ⟨x, hx, hst⟩ := run_snoc.1 hv
  cases hv'.symm.trans hx
  -- all have recorded, which is more than a closed store counts
  have hnotClosed : v.shared.store.value.status ≠ .closed := by
    intro hc
    have hall : recordedCalls I v = I := Finset.filter_true_of_mem ht.recorded
    have hcount := hafter.count ⟨k, hk, ht.recorded k hk⟩ hc
    have hfew := hafter.sound.few hc
    rw [hall, ht.card] at hcount
    omega
  -- and the last one has just saved a state that is not half open
  have hnotHalf : v.shared.store.value.status ≠ .halfOpen := by
    have hrec := ht.recorded k hk
    rcases breakerStep_move hst with ⟨i, timeout, heq, -, -, hi, -⟩ |
      ⟨i, ch, timeout, ph, ph', heq, hi, hi', hmove, -⟩ | ⟨hloc, -⟩
    · cases heq
      rw [hi] at hrec
      cases hrec
    · cases heq
      rw [hi'] at hrec
      have hf : ch.storeFails = false :=
        (hkept mid' _ [] v' v rfl hv' hst).answers.1 _ rfl ch rfl
      have hl := hbefore.sound.calls k
      rw [hi] at hl
      generalize hw : v.shared = w at hmove
      cases hmove with
      | stop hne =>
        unfold BreakerCall.recorded at hrec
        split at hrec
        · next heq => cases heq; exact absurd rfl hne
        · cases hrec
      | pass | trial | mark | markLost | markCancelled | fail | succeed => cases hrec
      | record => exact hl.2.1
      | recordLost hlost => rw [hf] at hlost; cases hlost
    · rw [hloc, hnot] at hrec
      cases hrec
  cases hs : v.shared.store.value.status with
  | opened => rfl
  | closed => exact absurd hs hnotClosed
  | halfOpen => exact absurd hs hnotHalf

/-! ## Runs -/

instance (I : Finset Nat) (s : BreakerSystem) : Decidable (SomeRecorded I s) :=
  inferInstanceAs (Decidable (∃ i ∈ I, (s.locals i).recorded))

instance (cfg : BreakerSettings) (I : Finset Nat) (s : BreakerSystem)
    (a : Act BreakerAct BreakerEnv) (t : BreakerSystem) : Decidable (CountsKept cfg I s a t) :=
  decidable_of_iff (StoreAnswers s a t ∧
      (SomeRecorded I s → ∀ c ∈ a.call?, ∀ sv ∈ (s.locals c.1).saving?,
        sv.1.status = .closed → sv.2.writes = s.shared.store.writes) ∧
      (SomeRecorded I s → ∀ c ∈ a.call?, ∀ e ∈ (s.locals c.1).ends? c.2, e.2 = false →
        e.1.status = .closed →
          ¬ cfg.windowSeconds < sub s.shared.clock.epochSeconds e.1.windowStart))
    ⟨fun h => ⟨h.1, h.2.1, h.2.2⟩, fun h => ⟨h.answers, h.save, h.window⟩⟩

/-- Five calls. -/
def fiveCalls : Finset Nat := {1, 2, 3, 4, 5}

/-- They fail one after another. -/
def failingInTurn : List (Act BreakerAct BreakerEnv) :=
  fourFailures ++ (fifthFailure ++ [.call 5 (.next { succeeds := false })])

/-- They all get the state before the first one fails. -/
def failingAtOnce : List (Act BreakerAct BreakerEnv) :=
  ([1, 2, 3, 4, 5].flatMap fun i => breakerCall i 1 {}) ++
    ([1, 2, 3, 4, 5].map fun i => .call i (.next { succeeds := false })) ++
    ([1, 2, 3, 4].map fun i => .call i (.next {})) ++ [.call 5 (.next {})]

/-- The state after a run of the sample. -/
def afterSample (as : List (Act BreakerAct BreakerEnv)) : BreakerSystem :=
  (run (breakerStep {}) sampleBreaker as).getD sampleBreaker

theorem run_afterSample {as : List (Act BreakerAct BreakerEnv)}
    (h : (run (breakerStep {}) sampleBreaker as).isSome) :
    run (breakerStep {}) sampleBreaker as = some (afterSample as) := by
  obtain ⟨v, hv⟩ := Option.isSome_iff_exists.1 h
  rw [afterSample, hv]
  rfl

/-- The five calls fail together in turn. -/
theorem failingInTurn_together :
    FailTogether {} fiveCalls sampleBreaker failingInTurn (afterSample failingInTurn) := by
  refine ⟨rfl, fun _ _ => rfl, by decide +kernel, ⟨(1, seconds 1000), by decide +kernel,
    by decide, fun i hi => ⟨seconds 1000, ?_, by decide, by decide +kernel⟩⟩, by decide +kernel,
    ⟨fourFailures ++ fifthFailure, afterSample (fourFailures ++ fifthFailure), 5, _, by rfl,
      by decide, run_afterSample (by decide +kernel), by decide +kernel⟩⟩
  revert i
  decide +kernel

/-- They open the circuit. -/
theorem failingInTurn_opens : (afterSample failingInTurn).shared.store.value.status = .opened :=
  failTogether_opens sampleBreaker_initial (run_nil _) (run_afterSample (by decide +kernel))
    failingInTurn_together (by decide +kernel)

/-- The five calls fail together at once. -/
theorem failingAtOnce_together :
    FailTogether {} fiveCalls sampleBreaker failingAtOnce (afterSample failingAtOnce) := by
  refine ⟨rfl, fun _ _ => rfl, by decide +kernel, ⟨(1, seconds 1000), by decide +kernel,
    by decide, fun i hi => ⟨seconds 1000, ?_, by decide, by decide +kernel⟩⟩, by decide +kernel,
    ⟨failingAtOnce.dropLast, afterSample failingAtOnce.dropLast, 5, _, by rfl,
      by decide, run_afterSample (by decide +kernel), by decide +kernel⟩⟩
  revert i
  decide +kernel

/-- They are counted as one failure, also when the store always answers and every `fn` ends within
its timeout. -/
theorem failTogether_loses : ¬ ∀ (I : Finset Nat) (s u v : BreakerSystem)
    (pre mid : List (Act BreakerAct BreakerEnv)), s.Initial →
      run (breakerStep {}) s pre = some u → run (breakerStep {}) u mid = some v →
      EachStep (breakerStep {}) StoreAnswers s (pre ++ mid) →
      EachStep (breakerStep {}) InTimeout s (pre ++ mid) →
      FailTogether {} I u mid v → v.shared.store.value.status = .opened := by
  intro h
  have hopen := h fiveCalls sampleBreaker sampleBreaker _ [] failingAtOnce sampleBreaker_initial rfl
    (run_afterSample (by decide +kernel)) (by decide +kernel) (by decide +kernel)
    failingAtOnce_together
  revert hopen
  decide +kernel

end Aeropass
