import Aeropass.Breaker.Gate

/-!
# The breaker locks nobody out for good

Calls may be cancelled or stop at any await, saves may fail before or after they write, the key may
be lost at any time, and late calls write old states over new ones. Still every deadline that is
stored or that a call carries was computed from a clock that is not later than now (`Timely`), so
the stored ones end at most `open_seconds`, or the longest timeout and a second, after the save
that stored them (`LastSave`). A call that starts later than that is let through.
-/

namespace Aeropass

open Binary64 Runs Threads

/-- What happens to the store of the breaker besides its calls: time passes, and the key is lost. A
save that sets the key and fails to set its expiry leaves the time of the loss open. -/
inductive LossyEnv where
  | tick (d : Nat)
  | lose

/-- One step of this environment. -/
def lossyEnvStep (w : BreakerWorld) : LossyEnv → Option BreakerWorld
  | .tick d => some { w with clock := w.clock + d }
  | .lose => some { w with store := w.store.write {} }

/-- The calls of one breaker, over a store that may lose the key at any time. -/
def lossyProgram (cfg : BreakerSettings) : Program BreakerWorld BreakerCall BreakerAct LossyEnv :=
  ⟨fun _ => breakerProgramStep cfg, lossyEnvStep⟩

/-- The step function of the breaker over such a store. -/
def lossyStep (cfg : BreakerSettings) :
    BreakerSystem → Act BreakerAct LossyEnv → Option BreakerSystem := (lossyProgram cfg).step

/-- A step of the environment whose key expires in time. -/
def BreakerEnv.toLossy : BreakerEnv → LossyEnv
  | .tick d => .tick d
  | .expire => .lose

/-- The same step, of the same call. -/
def toLossy : Act BreakerAct BreakerEnv → Act BreakerAct LossyEnv
  | .call i b => .call i b
  | .env e => .env e.toLossy

/-- When the step of a call wrote to the store. -/
def savedAt (s : BreakerSystem) (a : Act BreakerAct LossyEnv) (t : BreakerSystem) : List ℚ :=
  match a with
  | .call _ _ =>
    if t.shared.store.writes = s.shared.store.writes then [] else [s.shared.clock.epochSeconds]
  | .env _ => []

/-- The timeout that the step starts a call with. -/
def startsWith? : Act BreakerAct LossyEnv → Option ℚ
  | .call _ (.call timeout) => some timeout
  | _ => none

/-- The deadlines of a state were computed no later than at `b`, with timeouts of at most `T`. -/
structure Deadlines (cfg : BreakerSettings) (T b : ℚ) (state : BreakerState) : Prop where
  openUntil : state.openUntil ≤ add b cfg.openSeconds
  trialUntil : state.trialUntil ≤ add (add b T) 1

/-- The deadlines that a call carries are computed by now. -/
def BreakerCall.Timely (cfg : BreakerSettings) (T clock : ℚ) : BreakerCall → Prop
  | .call timeout (.getting now _) => timeout ≤ T ∧ 0 ≤ now ∧ now ≤ clock
  | .call _ (.marking _ state _) | .call _ (.running _ state _)
  | .call _ (.recording _ _ state _ _) => Deadlines cfg T clock state
  | .idle | .call _ (.done _) => True

/-- So are those of the store, and those of an empty one. -/
structure BreakerTimely (cfg : BreakerSettings) (T : ℚ) (s : BreakerSystem) : Prop where
  clock : 0 ≤ s.shared.clock
  empty : Deadlines cfg T s.shared.clock.epochSeconds {}
  store : Deadlines cfg T s.shared.clock.epochSeconds s.shared.store.value
  calls : ∀ i, (s.locals i).Timely cfg T s.shared.clock.epochSeconds

/-- The store is empty, or holds what was saved at one of the times. -/
def LastSave (cfg : BreakerSettings) (T : ℚ) (s : BreakerSystem) (saves : List ℚ) : Prop :=
  (s.shared.store.value = {} ∨ ∃ b ∈ saves, Deadlines cfg T b s.shared.store.value) ∧
    ∀ b ∈ saves, b ≤ s.shared.clock.epochSeconds

variable {cfg : BreakerSettings} {T : ℚ} {w : BreakerWorld} {s t : BreakerSystem}
  {b b' : ℚ} {state : BreakerState}

/-! ## Deadlines -/

theorem Deadlines.mono (h : Deadlines cfg T b state) (hle : b ≤ b') : Deadlines cfg T b' state :=
  ⟨h.openUntil.trans (add_mono hle le_rfl),
    h.trialUntil.trans (add_mono (add_mono hle le_rfl) le_rfl)⟩

/-- What was timely stays so while time passes. -/
theorem BreakerCall.Timely.mono {l : BreakerCall} (h : l.Timely cfg T b) (hle : b ≤ b') :
    l.Timely cfg T b' := by
  cases l with
  | idle => trivial
  | call timeout ph =>
    cases ph with
    | getting => exact ⟨h.1, h.2.1, h.2.2.trans hle⟩
    | marking | running | recording => exact Deadlines.mono h hle
    | done => trivial

/-- What `_record_failure` saves. -/
theorem Deadlines.recordFailure (h : Deadlines cfg T b state) (hempty : Deadlines cfg T b {}) :
    Deadlines cfg T b (recordFailure cfg state b) := by
  have hopened : Deadlines cfg T b { status := .opened, openUntil := add b cfg.openSeconds } :=
    ⟨le_rfl, hempty.trialUntil⟩
  have hcounted : Deadlines cfg T b
      (if cfg.windowSeconds < sub b state.windowStart then { failures := 1, windowStart := b }
      else { state with failures := state.failures + 1 }) := by
    split
    · exact ⟨hempty.openUntil, hempty.trialUntil⟩
    · exact ⟨h.openUntil, h.trialUntil⟩
  unfold Aeropass.recordFailure
  split
  · exact hopened
  · dsimp only
    generalize (if cfg.windowSeconds < sub b state.windowStart then
      ({ failures := 1, windowStart := b } : BreakerState)
      else { state with failures := state.failures + 1 }) = counted at hcounted ⊢
    split
    · exact hopened
    · exact hcounted

/-! ## Steps -/

/-- What a step of a call does to the store: nothing, or it saves a state whose deadlines are
computed by now. -/
def SavesTimely (cfg : BreakerSettings) (T : ℚ) (w w' : BreakerWorld) : Prop :=
  w' = w ∨ ∃ next, w' = w.save next ∧ Deadlines cfg T w.clock.epochSeconds next

/-- One step of a call stores only deadlines that are due in time, and reads only such. -/
theorem breakerCallStep_timely {timeout : ℚ} {ch : BreakerChoice} {ph : BreakerPhase}
    {r : BreakerWorld × BreakerPhase} (hempty : Deadlines cfg T w.clock.epochSeconds {})
    (hstore : Deadlines cfg T w.clock.epochSeconds w.store.value)
    (hl : (BreakerCall.call timeout ph).Timely cfg T w.clock.epochSeconds)
    (h : breakerCallStep cfg w timeout ch ph = some r) :
    SavesTimely cfg T w r.1 ∧ (BreakerCall.call timeout r.2).Timely cfg T w.clock.epochSeconds := by
  have hsave : ∀ {next}, Deadlines cfg T w.clock.epochSeconds next →
      SavesTimely cfg T w (if ch.storeFails then w else w.save next) := by
    intro next hn
    split
    · exact .inl rfl
    · exact .inr ⟨next, rfl, hn⟩
  cases ph with
  | getting now antes =>
    simp only [breakerCallStep] at h
    split at h
    · cases h; exact ⟨.inl rfl, trivial⟩
    -- the state it works with is the stored one, or an empty one where the store fails
    generalize hst : (if ch.storeFails = true then {} else w.store.value) = state at h
    have hd : Deadlines cfg T w.clock.epochSeconds state := by
      rw [← hst]
      split
      · exact hempty
      · exact hstore
    have htrial : Deadlines cfg T w.clock.epochSeconds
        { state with trialUntil := add (add now timeout) 1 } :=
      ⟨hd.openUntil, add_mono (add_mono hl.2.2 hl.1) le_rfl⟩
    split at h
    · cases h; exact ⟨.inl rfl, trivial⟩
    cases hs : state.status with
    | closed =>
      simp only [hs, reduceCtorEq, if_false] at h
      cases h
      exact ⟨.inl rfl, hd⟩
    | opened =>
      simp only [hs, if_true] at h
      split at h <;> cases h
      · exact ⟨.inl rfl, trivial⟩
      · exact ⟨.inl rfl, htrial.openUntil, htrial.trialUntil⟩
    | halfOpen =>
      simp only [hs, reduceCtorEq, if_false, if_true] at h
      split at h <;> cases h
      · exact ⟨.inl rfl, trivial⟩
      · exact ⟨.inl rfl, htrial.openUntil, htrial.trialUntil⟩
  | marking now state visto =>
    simp only [breakerCallStep] at h
    split at h <;> cases h
    · exact ⟨hsave hl, trivial⟩
    · exact ⟨hsave hl, hl⟩
  | running now state visto =>
    simp only [breakerCallStep] at h
    split at h
    · cases h; exact ⟨.inl rfl, trivial⟩
    split at h
    · split at h <;> cases h
      · exact ⟨.inl rfl, hempty⟩
      · exact ⟨.inl rfl, trivial⟩
    · cases h
      exact ⟨.inl rfl, Deadlines.recordFailure hl hempty⟩
  | recording now state next visto r =>
    simp only [breakerCallStep] at h
    cases h
    exact ⟨hsave hl, trivial⟩
  | done r => cases h

/-- What a step of a call of the program does, with the time of its save. -/
theorem breakerProgramStep_timely {l : BreakerCall} {a : BreakerAct}
    {r : BreakerWorld × BreakerCall} (hclock : 0 ≤ w.clock)
    (hempty : Deadlines cfg T w.clock.epochSeconds {})
    (hstore : Deadlines cfg T w.clock.epochSeconds w.store.value)
    (hl : l.Timely cfg T w.clock.epochSeconds) (hT : ∀ timeout, a = .call timeout → timeout ≤ T)
    (h : breakerProgramStep cfg w l a = some r) :
    SavesTimely cfg T w r.1 ∧ r.2.Timely cfg T w.clock.epochSeconds := by
  cases l with
  | idle =>
    cases a with
    | call timeout =>
      cases h
      exact ⟨.inl rfl, hT timeout rfl, Instant.epochSeconds_nonneg hclock, le_rfl⟩
    | next => cases h
  | call timeout ph =>
    cases a with
    | call => cases h
    | next ch =>
      obtain ⟨r', hr, rfl⟩ := Option.map_eq_some_iff.1 h
      exact breakerCallStep_timely hempty hstore hl hr

/-- What a step of the system does to the store: nothing, it loses the key, or it saves a state
whose deadlines are computed by now. -/
theorem lossyStep_store (hb : BreakerTimely cfg T s) {a : Act BreakerAct LossyEnv}
    (hT : ∀ timeout ∈ startsWith? a, timeout ≤ T) (hst : lossyStep cfg s a = some t) :
    BreakerTimely cfg T t ∧ s.shared.clock ≤ t.shared.clock ∧
      ((savedAt s a t = [] ∧
        (t.shared.store.value = s.shared.store.value ∨ t.shared.store.value = {})) ∨
      (savedAt s a t = [s.shared.clock.epochSeconds] ∧
        Deadlines cfg T s.shared.clock.epochSeconds t.shared.store.value)) := by
  rcases Program.step_cases hst with ⟨i, b, r, rfl, hr, hsh, hi, hother⟩ | ⟨e, rfl, he, hloc⟩
  · obtain ⟨hsaves, hl⟩ := breakerProgramStep_timely hb.clock hb.empty hb.store (hb.calls i)
      (fun timeout hcall => hT timeout (by rw [hcall]; rfl)) hr
    rw [← hi] at hl
    rw [← hsh] at hsaves
    have hcalls : ∀ j, (t.locals j).Timely cfg T s.shared.clock.epochSeconds :=
      Sys.forall_locals (fun _ l => l.Timely cfg T s.shared.clock.epochSeconds) hl hother
        fun j _ => hb.calls j
    rcases hsaves with hsame | ⟨next, hnext, hd⟩
    · rw [← hsame] at hcalls
      refine ⟨⟨by rw [hsame]; exact hb.clock, by rw [hsame]; exact hb.empty,
        by rw [hsame]; exact hb.store, hcalls⟩,
        Int.le_of_eq (by rw [hsame]), .inl ⟨?_, .inl (by rw [hsame])⟩⟩
      simp [savedAt, hsame]
    · refine ⟨⟨by rw [hnext]; exact hb.clock, by rw [hnext]; exact hb.empty,
        by rw [hnext]; exact hd, by rw [hnext]; exact hcalls⟩,
        Int.le_of_eq (by rw [hnext]; rfl), .inr ⟨?_, by rw [hnext]; exact hd⟩⟩
      simp [savedAt, hnext, BreakerWorld.save]
  · have he : lossyEnvStep s.shared e = some t.shared := he
    cases e with
    | tick d =>
      have hsh : t.shared = { s.shared with clock := s.shared.clock + d } :=
        (Option.some.inj he).symm
      have hle : s.shared.clock ≤ s.shared.clock + d :=
        Int.le_add_of_nonneg_right (Int.natCast_nonneg d)
      have hread := Instant.epochSeconds_mono hle
      have hcalls : ∀ i, (t.locals i).Timely cfg T (s.shared.clock + d).epochSeconds := fun i => by
        rw [hloc]
        exact (hb.calls i).mono hread
      exact ⟨⟨by rw [hsh]; exact Int.le_trans hb.clock hle, by rw [hsh]; exact hb.empty.mono hread,
        by rw [hsh]; exact hb.store.mono hread, by rw [hsh]; exact hcalls⟩,
        by rw [hsh]; exact hle, .inl ⟨rfl, .inl (by rw [hsh])⟩⟩
    | lose =>
      have hsh : t.shared = { s.shared with store := s.shared.store.write {} } :=
        (Option.some.inj he).symm
      exact ⟨⟨by rw [hsh]; exact hb.clock, by rw [hsh]; exact hb.empty, by rw [hsh]; exact hb.empty,
        by rw [hsh, hloc]; exact hb.calls⟩, Int.le_of_eq (by rw [hsh]),
        .inl ⟨rfl, .inr (congrArg (fun w => w.store.value) hsh)⟩⟩

/-! ## Runs -/

/-- At the start, with a clock past the epoch. -/
theorem BreakerSystem.Initial.timely (h : s.Initial) (hclock : 0 ≤ s.shared.clock)
    (hopen : 0 ≤ cfg.openSeconds) (hT : 0 ≤ T) : BreakerTimely cfg T s := by
  have hread := Instant.epochSeconds_nonneg hclock
  have hempty : Deadlines cfg T s.shared.clock.epochSeconds {} :=
    ⟨add_nonneg hread hopen, add_nonneg (add_nonneg hread hT) zero_le_one⟩
  refine ⟨hclock, hempty, by rw [h.1]; exact hempty, fun i => ?_⟩
  rw [h.2]
  trivial

/-- In every run the stored deadlines are those of the last save, and every deadline was computed
by now. -/
theorem timely_run (h0 : s.Initial) (hs : BreakerTimely cfg T s)
    {as : List (Act BreakerAct LossyEnv)}
    (hT : ∀ a ∈ as, ∀ timeout ∈ startsWith? a, timeout ≤ T)
    (hr : run (lossyStep cfg) s as = some t) :
    BreakerTimely cfg T t ∧ LastSave cfg T t (outputs savedAt (lossyStep cfg) s as) := by
  refine run_induction (P := fun pre u => (∀ a ∈ pre, ∀ timeout ∈ startsWith? a, timeout ≤ T) →
    BreakerTimely cfg T u ∧ LastSave cfg T u (outputs savedAt (lossyStep cfg) s pre)) ?_ ?_ hr hT
  · intro _
    refine ⟨hs, .inl (by rw [h0.1]), ?_⟩
    intro b hb
    cases hb
  · intro pre u a v hpre ih hst hT
    obtain ⟨hu, hlast, hpast⟩ := ih fun c hc => hT c (List.mem_append_left _ hc)
    obtain ⟨hv, hclock, hstore⟩ := lossyStep_store hu (hT a (by simp)) hst
    have hclock := Instant.epochSeconds_mono hclock
    rw [outputs_snoc hpre hst]
    refine ⟨hv, ?_⟩
    rcases hstore with ⟨hnone, hsame | hlost⟩ | ⟨hsave, hd⟩
    · rw [hnone, List.append_nil]
      refine ⟨by rwa [hsame], fun b hb => (hpast b hb).trans hclock⟩
    · rw [hnone, List.append_nil]
      exact ⟨.inl hlost, fun b hb => (hpast b hb).trans hclock⟩
    · rw [hsave]
      refine ⟨.inr ⟨_, by simp, hd⟩, fun b hb => ?_⟩
      rcases List.mem_append.1 hb with hb | hb
      · exact (hpast b hb).trans hclock
      · rw [List.mem_singleton.1 hb]
        exact hclock

/-- The runs of the breaker whose key expires in time are among these. -/
theorem run_toLossy {as : List (Act BreakerAct BreakerEnv)}
    (h : run (breakerStep cfg) s as = some t) :
    run (lossyStep cfg) s (as.map toLossy) = some t := by
  induction as generalizing s with
  | nil => exact h
  | cons a as ih =>
    obtain ⟨u, hst, hrun⟩ := Option.bind_eq_some_iff.1 h
    have hst' : lossyStep cfg s (toLossy a) = some u := by
      cases a with
      | call i b => exact hst
      | env e =>
        obtain ⟨w', he, rfl⟩ := Option.map_eq_some_iff.1 hst
        have he : breakerEnvStep s.shared e = some w' := he
        refine Option.map_eq_some_iff.2 ⟨w', ?_, rfl⟩
        cases e with
        | tick d => exact he
        | expire =>
          rw [breakerEnvStep] at he
          split at he
          · exact he
          · cases he
    rw [List.map_cons, run_cons, hst']
    exact ih hrun

/-! ## Letting calls in -/

/-- The store is empty, or its deadlines are over at `now`. -/
def Over (cfg : BreakerSettings) (T : ℚ) (state : BreakerState) (now : ℚ) : Prop :=
  state = {} ∨ ∃ b, Deadlines cfg T b state ∧
    max (add b cfg.openSeconds) (add (add b T) 1) ≤ now

/-- Once the deadlines are over a call is let through. -/
theorem Over.passed {now : ℚ} (h : Over cfg T state now) :
    ¬ (state.status = .opened ∧ now < state.openUntil) ∧
      ¬ (state.status = .halfOpen ∧ now < state.trialUntil) := by
  rcases h with rfl | ⟨b, hd, hlt⟩
  · simp
  · have hopen := hd.openUntil.trans ((le_max_left _ _).trans hlt)
    have htrial := hd.trialUntil.trans ((le_max_right _ _).trans hlt)
    exact ⟨fun h => not_le.2 h.2 hopen, fun h => not_le.2 h.2 htrial⟩

/-- A call that finds the deadlines over, or no store, is let in. -/
theorem breakerCallStep_letIn {timeout now : ℚ} {ch : BreakerChoice}
    {antes : Cell BreakerState} {r : BreakerWorld × BreakerPhase}
    (hnow : 0 ≤ now) (hover : Over cfg T w.store.value now) (hcan : ch.cancelled = false)
    (h : breakerCallStep cfg w timeout ch (.getting now antes) = some r) :
    ∃ state visto, r.2 = .marking now state visto ∨ r.2 = .running now state visto := by
  simp only [breakerCallStep, hcan, Bool.false_eq_true, if_false] at h
  generalize hst : (if ch.storeFails = true then {} else w.store.value) = state at h
  have hpass : Over cfg T state now := by
    rw [← hst]
    split
    · exact .inl rfl
    · exact hover
  obtain ⟨hopen, htrial⟩ := hpass.passed
  rw [if_neg hopen] at h
  cases hs : state.status with
  | closed =>
    simp only [hs, reduceCtorEq, if_false] at h
    cases h
    exact ⟨_, _, .inr rfl⟩
  | opened =>
    simp only [hs, if_true] at h
    rw [if_neg (not_lt.2 hnow)] at h
    cases h
    exact ⟨_, _, .inl rfl⟩
  | halfOpen =>
    simp only [hs, reduceCtorEq, if_false, if_true] at h
    rw [if_neg fun hlt => htrial ⟨hs, hlt⟩] at h
    cases h
    exact ⟨_, _, .inl rfl⟩

/-- Along the run from `u` the call `i`, which started at `now`, invokes `fn`. -/
def Invokes (cfg : BreakerSettings) (i : Nat) (now : ℚ) (u : BreakerSystem)
    (as : List (Act BreakerAct LossyEnv)) : Prop :=
  ∃ pre post x, as = pre ++ post ∧ run (lossyStep cfg) u pre = some x ∧
    (x.locals i).invokedAt? = some now

/-- A call that is marking itself as the trial invokes `fn` in its next step. -/
theorem marking_step {i : Nat} {timeout now : ℚ} {visto : Cell BreakerState}
    (hl : s.locals i = .call timeout (.marking now state visto)) {a : Act BreakerAct LossyEnv}
    (hcan : ∀ ch, a = .call i (.next ch) → ch.cancelled = false)
    (hst : lossyStep cfg s a = some t) :
    (t.locals i).invokedAt? = some now ∨
      ((∀ ch, a ≠ .call i (.next ch)) ∧ t.locals i = s.locals i) := by
  by_cases hown : ∃ b, a = .call i b
  · obtain ⟨b, rfl⟩ := hown
    obtain ⟨r, hr, -, hi, -⟩ := Program.step_call hst
    have hr : breakerProgramStep cfg s.shared (s.locals i) b = some r := hr
    rw [hl] at hr
    cases b with
    | call => cases hr
    | next ch =>
      obtain ⟨r', hr', rfl⟩ := Option.map_eq_some_iff.1 hr
      simp only [breakerCallStep, hcan ch rfl, Bool.false_eq_true, if_false] at hr'
      cases hr'
      exact .inl (by rw [hi]; rfl)
  · have hother : ∀ b, a ≠ .call i b := fun b hb => hown ⟨b, hb⟩
    exact .inr ⟨fun ch => hother _, Program.locals_eq hst hother⟩

/-- A call that is let in invokes `fn`, unless it is cancelled or takes no further step. -/
theorem marking_run {i : Nat} {timeout now : ℚ} {visto : Cell BreakerState}
    (hl : s.locals i = .call timeout (.marking now state visto))
    {as : List (Act BreakerAct LossyEnv)}
    (hcan : ∀ ch, .call i (.next ch) ∈ as → ch.cancelled = false)
    (hr : run (lossyStep cfg) s as = some t) :
    Invokes cfg i now s as ∨
      ((∀ ch, .call i (.next ch) ∉ as) ∧ t.locals i = s.locals i) := by
  induction as generalizing s with
  | nil => cases hr; exact .inr ⟨by simp, rfl⟩
  | cons a as ih =>
    obtain ⟨u, hst, hrun⟩ := Option.bind_eq_some_iff.1 hr
    rcases marking_step hl (fun ch ha => hcan ch (by simp [ha])) hst with hinv | ⟨hnot, hsame⟩
    · exact .inl ⟨[a], as, u, rfl, by rw [run_singleton, hst], hinv⟩
    · rcases ih (hsame.trans hl) (fun ch hmem => hcan ch (List.mem_cons_of_mem a hmem)) hrun with
        ⟨pre, post, x, rfl, hx, hinv⟩ | ⟨hnone, hlast⟩
      · exact .inl ⟨a :: pre, post, x, rfl, by rw [run_cons, hst]; exact hx, hinv⟩
      · refine .inr ⟨fun ch hmem => ?_, hlast.trans hsame⟩
        rcases List.mem_cons.1 hmem with ha | hmem
        · exact hnot ch ha.symm
        · exact hnone ch hmem

/-- **No lockout.** In every run the stored `open_until` is at most `open_seconds` from now and the
stored `trial_until` at most the longest timeout and a second, as the code adds them; and a call
that gets the state when every save is that long ago, counted to its start, is let in and invokes
`fn`, unless it is cancelled or stops before that. -/
theorem breaker_no_lockout (h0 : s.Initial) (hclock : 0 ≤ s.shared.clock)
    (hopen : 0 ≤ cfg.openSeconds) (hT : 0 ≤ T) (as : List (Act BreakerAct LossyEnv))
    (htimeouts : ∀ a ∈ as, ∀ timeout ∈ startsWith? a, timeout ≤ T)
    (hr : run (lossyStep cfg) s as = some t) :
    (t.shared.store.value.openUntil ≤ add t.shared.clock.epochSeconds cfg.openSeconds ∧
      t.shared.store.value.trialUntil ≤ add (add t.shared.clock.epochSeconds T) 1) ∧
    ∀ i timeout now antes, t.locals i = .call timeout (.getting now antes) →
      (∀ b ∈ outputs savedAt (lossyStep cfg) s as,
        max (add b cfg.openSeconds) (add (add b T) 1) ≤ now) →
      ∀ ch more u, run (lossyStep cfg) t (.call i (.next ch) :: more) = some u →
        (∀ ch', .call i (.next ch') ∈ .call i (.next ch) :: more → ch'.cancelled = false) →
        Invokes cfg i now t (.call i (.next ch) :: more) ∨
          ((∀ ch', .call i (.next ch') ∉ more) ∧
            ∃ state visto, u.locals i = .call timeout (.marking now state visto)) := by
  obtain ⟨htimely, hlast, -⟩ := timely_run h0 (h0.timely hclock hopen hT) htimeouts hr
  refine ⟨⟨htimely.store.openUntil, htimely.store.trialUntil⟩, ?_⟩
  intro i timeout now antes hget hold ch more u hrun hcan
  have hnow : 0 ≤ now := by
    have := htimely.calls i
    rw [hget] at this
    exact this.2.1
  have hover : Over cfg T t.shared.store.value now :=
    hlast.imp_right fun ⟨b, hb, hd⟩ => ⟨b, hd, hold b hb⟩
  obtain ⟨v, hst, hmore⟩ := Option.bind_eq_some_iff.1 hrun
  obtain ⟨r, hstep, -, hi, -⟩ := Program.step_call hst
  have hstep : breakerProgramStep cfg t.shared (t.locals i) (.next ch) = some r := hstep
  rw [hget] at hstep
  obtain ⟨r', hr', rfl⟩ := Option.map_eq_some_iff.1 hstep
  obtain ⟨state, visto, hmark | hran⟩ := breakerCallStep_letIn hnow hover (hcan ch (by simp)) hr'
  · rw [hmark] at hi
    rcases marking_run hi (fun ch' hmem => hcan ch' (List.mem_cons_of_mem _ hmem)) hmore with
      ⟨pre, post, x, rfl, hx, hinv⟩ | ⟨hnone, hsame⟩
    · exact .inl ⟨_ :: pre, post, x, rfl, by rw [run_cons, hst]; exact hx, hinv⟩
    · exact .inr ⟨hnone, state, visto, hsame.trans hi⟩
  · refine .inl ⟨[_], more, v, rfl, by rw [run_singleton, hst], ?_⟩
    rw [hi, hran]
    rfl

/-- The circuit opens; after its period call 7 marks itself as the trial and is cancelled in `fn`;
and a period later call 8 starts. -/
def strandedTrial : List (Act BreakerAct BreakerEnv) :=
  fourFailures ++ fifthFailure ++ [.call 5 (.next {}), .env (.tick 30000000)] ++
    breakerCall 7 2 {} ++ [.call 7 (.next { cancelled := true }), .env (.tick 30000001)] ++
    breakerCall 8 0 {}

/-- The trial that was cancelled does not keep call 8 out. -/
theorem breaker_no_lockout_stranded : ∃ t u,
    run (lossyStep {}) sampleBreaker (strandedTrial.map toLossy) = some t ∧
    run (lossyStep {}) t [.call 8 (.next {}), .call 8 (.next {})] = some u ∧
    t.shared.store.value.status = .halfOpen ∧
    t.shared.store.value.trialUntil ≤ add (add t.shared.clock.epochSeconds 1) 1 ∧
    Invokes {} 8 (Instant.epochSeconds (seconds 1060 + 1)) t
      [.call 8 (.next {}), .call 8 (.next {})] := by
  obtain ⟨u, hu⟩ := Option.isSome_iff_exists.1 (by decide +kernel : (run (lossyStep {})
    sampleBreaker (strandedTrial.map toLossy ++
      [.call 8 (.next {}), .call 8 (.next {})])).isSome = true)
  rw [run_append] at hu
  obtain ⟨t, ht, hu⟩ := Option.bind_eq_some_iff.1 hu
  have hat : (run (lossyStep {}) sampleBreaker (strandedTrial.map toLossy)).map
      (fun t => (t.shared.store.value.status, t.locals 8)) = some (.halfOpen,
        .call 1 (.getting (Instant.epochSeconds (seconds 1060 + 1))
          ⟨⟨.halfOpen, 0, 0, 1030, 1032⟩, 6⟩)) := by
    decide +kernel
  rw [ht, Option.map_some, Option.some.injEq, Prod.mk.injEq] at hat
  obtain ⟨hbounds, hin⟩ := @breaker_no_lockout {} 1 _ _ sampleBreaker_initial (by decide)
    (by decide) (by decide) (strandedTrial.map toLossy) (by decide +kernel) ht
  refine ⟨t, u, ht, hu, hat.1, hbounds.2, ?_⟩
  rcases hin 8 _ _ _ hat.2 (by decide +kernel) {} _ u hu (by simp) with hinv | ⟨hnone, -⟩
  · exact hinv
  · exact absurd (List.mem_singleton.2 rfl) (hnone {})

end Aeropass
