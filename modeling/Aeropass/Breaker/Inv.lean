import Aeropass.Breaker.System

/-!
# Undisturbed calls of the breaker

A call decides by the state it got and later writes a whole state over whatever is there. `Calm`
says of a step that this did no harm: no state that keeps the circuit from calls is overwritten by
one that was made without having seen it, the read of a call that starts in an open period sees the
state of that start, and a call reads the state while no trial has outlived its own `trial_until`.
Along calm steps the store holds the `trial_until` of the trial in flight, so a trial is alone
(`BreakerOK`), and an open period ends by the clock only (`Shut`).
-/

namespace Aeropass

open Binary64 Runs Threads

/-! ## What a step looks at -/

/-- The choice a step of a call is made with. -/
def BreakerAct.choice? : BreakerAct → Option BreakerChoice
  | .call _ => none
  | .next ch => some ch

/-- The timestamp of a call that is about to get the state, and the store as it was then. -/
def BreakerCall.getting? : BreakerCall → Option (ℚ × Cell BreakerState)
  | .call _ (.getting now antes) => some (now, antes)
  | _ => none

/-- The state that a call is about to save, and the store as it last saw it. -/
def BreakerCall.saving? : BreakerCall → Option (BreakerState × Cell BreakerState)
  | .call _ (.marking _ state visto) => some (state, visto)
  | .call _ (.recording _ _ next visto _) => some (next, visto)
  | _ => none

/-- The store as a call that may still save last saw it. -/
def BreakerCall.visto? : BreakerCall → Option (Cell BreakerState)
  | .call _ (.marking _ _ visto) | .call _ (.running _ _ visto)
  | .call _ (.recording _ _ _ visto _) => some visto
  | _ => none

/-- A trial call in flight: it invoked `fn` from the half-open circuit, and has not recorded the
outcome. -/
def BreakerCall.inTrial : BreakerCall → Bool
  | .call _ (.running _ state _) | .call _ (.recording _ state _ _ _) => state.status = .halfOpen
  | _ => false

/-- Its `trial_until`, a second after its timeout counted from its start. -/
def BreakerCall.trialUntil? : BreakerCall → Option ℚ
  | .call timeout (.running now state _) | .call timeout (.recording now state _ _ _) =>
    if state.status = .halfOpen then some (add (add now timeout) 1) else none
  | _ => none

/-- The start of a call that has invoked `fn` and awaits it. -/
def BreakerCall.invokedAt? : BreakerCall → Option ℚ
  | .call _ (.running now _ _) => some now
  | _ => none

/-- A save that loses nothing: over a closed circuit, over the state that its call saw last, or an
opening over one that ends no later. -/
def SaveOK (store visto : Cell BreakerState) (next : BreakerState) : Prop :=
  store.value.status = .closed ∨ visto.writes = store.writes ∨
    (store.value.status = .opened ∧ next.status = .opened ∧
      store.value.openUntil ≤ next.openUntil)

instance (store visto : Cell BreakerState) (next : BreakerState) :
    Decidable (SaveOK store visto next) := inferInstanceAs (Decidable (_ ∨ _ ∨ _))

/-- No trial is in flight. -/
def NoTrial (s : BreakerSystem) : Prop := ∀ j, (s.locals j).inTrial = false

/-- A step that is not disturbed by what other calls did since its call last looked. The store
answers; a call that read its clock in an open period gets the state of that moment; when a call
gets the state, each trial in flight is before its own `trial_until`; saves lose nothing; and the
key does not expire in an open period or during a trial. -/
structure Calm (s : BreakerSystem) (a : Act BreakerAct BreakerEnv) (_ : BreakerSystem) : Prop where
  answers : ∀ c ∈ a.call?, ∀ ch ∈ c.2.choice?, ch.cancelled = false → ch.storeFails = false
  get : ∀ c ∈ a.call?, ∀ g ∈ (s.locals c.1).getting?, g.2.value.status = .opened →
    g.1 < g.2.value.openUntil → g.2.writes = s.shared.store.writes
  inTime : ∀ c ∈ a.call?, ∀ _ ∈ (s.locals c.1).getting?,
    ∀ i, ∀ b ∈ (s.locals i).trialUntil?, s.shared.clock.epochSeconds < b
  save : ∀ c ∈ a.call?, ∀ sv ∈ (s.locals c.1).saving?, SaveOK s.shared.store sv.2 sv.1
  expire : a = .env .expire → NoTrial s ∧ (s.shared.store.value.status = .opened →
    s.shared.store.value.openUntil ≤ s.shared.clock.epochSeconds)

variable {cfg : BreakerSettings} {w w' : BreakerWorld} {s t : BreakerSystem}

/-! ## What a step does -/

/-- What a step of a call does, the store answering: it starts, it goes on without touching the
store, the gate admits it, or it saves. -/
inductive CallEffect (w w' : BreakerWorld) : BreakerCall → BreakerCall → Prop
  | start {timeout} : w' = w →
    CallEffect w w' .idle (.call timeout (.getting w.clock.epochSeconds w.store))
  | stop {l timeout r} : w' = w → CallEffect w w' l (.call timeout (.done r))
  | pass {timeout now antes} : w' = w → w.store.value.status = .closed →
    CallEffect w w' (.call timeout (.getting now antes))
      (.call timeout (.running now w.store.value w.store))
  | trial {timeout now antes state} : w' = w →
    (w.store.value.status = .opened → w.store.value.openUntil ≤ now) →
    (w.store.value.status = .halfOpen → w.store.value.trialUntil ≤ now) →
    w.store.value.status ≠ .closed → state.status = .halfOpen →
    state.trialUntil = add (add now timeout) 1 →
    CallEffect w w' (.call timeout (.getting now antes))
      (.call timeout (.marking now state w.store))
  | mark {timeout now state visto} : w' = w.save state →
    CallEffect w w' (.call timeout (.marking now state visto))
      (.call timeout (.running now state w'.store))
  | ran {timeout now state next visto r} : w' = w →
    CallEffect w w' (.call timeout (.running now state visto))
      (.call timeout (.recording now state next visto r))
  | save {l timeout state visto r} : l.saving? = some (state, visto) → w' = w.save state →
    CallEffect w w' l (.call timeout (.done r))

/-- What one step of a call stores, and where it leaves the call. -/
theorem breakerCallStep_effect {timeout : ℚ} {ch : BreakerChoice} {ph : BreakerPhase}
    {r : BreakerWorld × BreakerPhase} (hst : ch.cancelled = false → ch.storeFails = false)
    (h : breakerCallStep cfg w timeout ch ph = some r) :
    CallEffect w r.1 (.call timeout ph) (.call timeout r.2) := by
  cases ph with
  | getting now antes =>
    simp only [breakerCallStep] at h
    split at h
    · cases h; exact .stop rfl
    next hcan =>
    rw [hst (Bool.eq_false_iff.2 hcan)] at h
    simp only [Bool.false_eq_true, if_false] at h
    split at h
    · cases h; exact .stop rfl
    next hgate =>
    have hopen : w.store.value.status = .opened → w.store.value.openUntil ≤ now := by
      intro ho
      exact not_lt.1 fun hlt => hgate ⟨ho, hlt⟩
    cases hs : w.store.value.status with
    | closed =>
      simp only [hs, reduceCtorEq, if_false] at h
      cases h
      exact .pass rfl hs
    | opened =>
      simp only [hs, if_true] at h
      split at h
      · cases h; exact .stop rfl
      · cases h
        exact .trial rfl hopen (fun hh => by rw [hs] at hh; cases hh) (by rw [hs]; nofun) rfl rfl
    | halfOpen =>
      simp only [hs, reduceCtorEq, if_false, if_true] at h
      split at h
      · cases h; exact .stop rfl
      next htrial =>
        cases h
        exact .trial rfl hopen (fun _ => not_lt.1 htrial) (by rw [hs]; nofun) rfl rfl
  | marking now state visto =>
    simp only [breakerCallStep] at h
    split at h
    · cases h
      cases hf : ch.storeFails with
      | true => exact .stop (by simp)
      | false => exact .save rfl (by simp)
    next hcan =>
    rw [hst (Bool.eq_false_iff.2 hcan)] at h
    cases h
    exact .mark rfl
  | running now state visto =>
    simp only [breakerCallStep] at h
    split at h
    · cases h; exact .stop rfl
    split at h
    · split at h <;> cases h
      · exact .ran rfl
      · exact .stop rfl
    · cases h; exact .ran rfl
  | recording now state next visto r =>
    simp only [breakerCallStep] at h
    cases h
    cases hf : ch.storeFails with
    | true => exact .stop (by simp)
    | false => exact .save rfl (by simp)
  | done r => cases h

/-- What a step of a call stores, from its start on. -/
theorem breakerProgramStep_effect {l : BreakerCall} {a : BreakerAct}
    {r : BreakerWorld × BreakerCall}
    (hst : ∀ ch ∈ a.choice?, ch.cancelled = false → ch.storeFails = false)
    (h : breakerProgramStep cfg w l a = some r) : CallEffect w r.1 l r.2 := by
  unfold breakerProgramStep at h
  split at h
  · cases h; exact .start rfl
  · obtain ⟨r', hr', rfl⟩ := Option.map_eq_some_iff.1 h
    exact breakerCallStep_effect (hst _ rfl) hr'
  · cases h

/-! ## The invariant -/

/-- What a call knows: its timestamp is past, what it saw of the store was the store at some time,
and when it saw the circuit open its period is over. -/
def BreakerCall.OK (w : BreakerWorld) : BreakerCall → Prop
  | .idle | .call _ (.done _) => True
  | .call _ (.getting now antes) => now ≤ w.clock.epochSeconds ∧ antes.Earlier w.store
  | .call timeout (.marking now state visto) => visto.Earlier w.store ∧
    (visto.value.status = .opened → visto.value.openUntil ≤ w.clock.epochSeconds) ∧
    state.status = .halfOpen ∧ state.trialUntil = add (add now timeout) 1
  | .call _ (.running _ _ visto) | .call _ (.recording _ _ _ visto _) => visto.Earlier w.store ∧
    (visto.value.status = .opened → visto.value.openUntil ≤ w.clock.epochSeconds)

/-- The invariant of calm steps: while a trial is in flight the store is half open as the trial saw
it last, until the `trial_until` of the trial, and no other call that may save saw that state. -/
structure BreakerOK (s : BreakerSystem) : Prop where
  known : ∀ i, (s.locals i).OK s.shared
  trial : ∀ {i visto}, (s.locals i).inTrial = true → visto ∈ (s.locals i).visto? →
    s.shared.store.value.status = .halfOpen ∧ visto.writes = s.shared.store.writes
  deadline : ∀ {i}, ∀ b ∈ (s.locals i).trialUntil?, s.shared.store.value.trialUntil = b
  alone : ∀ {i j visto}, (s.locals i).inTrial = true → j ≠ i → visto ∈ (s.locals j).visto? →
    visto.writes ≠ s.shared.store.writes

/-- A trial in flight has seen the store. -/
theorem BreakerCall.visto_of_inTrial {l : BreakerCall} (h : l.inTrial = true) :
    ∃ visto, visto ∈ l.visto? := by
  unfold inTrial at h
  split at h
  · exact ⟨_, rfl⟩
  · exact ⟨_, rfl⟩
  · cases h

/-- A trial in flight has a `trial_until`. -/
theorem BreakerCall.trialUntil_of_inTrial {l : BreakerCall} (h : l.inTrial = true) :
    ∃ b, b ∈ l.trialUntil? := by
  unfold inTrial at h
  split at h
  · exact ⟨_, if_pos (of_decide_eq_true h)⟩
  · exact ⟨_, if_pos (of_decide_eq_true h)⟩
  · cases h

theorem BreakerCall.inTrial_of_trialUntil {l : BreakerCall} {b : ℚ} (h : b ∈ l.trialUntil?) :
    l.inTrial = true := by
  unfold trialUntil? at h
  split at h
  · exact decide_eq_true (by_contra fun hs => by rw [if_neg hs] at h; cases h)
  · exact decide_eq_true (by_contra fun hs => by rw [if_neg hs] at h; cases h)
  · cases h

/-- What a call that may still save knows of what it saw. -/
theorem BreakerCall.OK.visto {l : BreakerCall} (h : l.OK w) {visto : Cell BreakerState}
    (hv : visto ∈ l.visto?) : visto.Earlier w.store ∧
      (visto.value.status = .opened → visto.value.openUntil ≤ w.clock.epochSeconds) := by
  unfold visto? at hv
  split at hv <;> cases hv
  · exact ⟨h.1, h.2.1⟩
  · exact h
  · exact h

/-- So has a call that is about to save. -/
theorem BreakerCall.visto_of_saving {l : BreakerCall} {next : BreakerState}
    {visto : Cell BreakerState} (h : (next, visto) ∈ l.saving?) : visto ∈ l.visto? := by
  unfold saving? at h
  split at h
  · cases h
    rfl
  · cases h
    rfl
  · cases h

/-- While a trial is in flight the circuit is half open. -/
theorem BreakerOK.halfOpen (h : BreakerOK s) {i : Nat} (hi : (s.locals i).inTrial = true) :
    s.shared.store.value.status = .halfOpen := by
  obtain ⟨visto, hv⟩ := BreakerCall.visto_of_inTrial hi
  exact (h.trial hi hv).1

/-- While a trial is in flight before its `trial_until`, a call that started by now finds the store
before that too. -/
theorem BreakerOK.keepsOut (h : BreakerOK s) {i : Nat} {now : ℚ}
    (hi : (s.locals i).inTrial = true) (hnow : now ≤ s.shared.clock.epochSeconds)
    (hin : ∀ b ∈ (s.locals i).trialUntil?, s.shared.clock.epochSeconds < b) :
    now < s.shared.store.value.trialUntil := by
  obtain ⟨b, hb⟩ := BreakerCall.trialUntil_of_inTrial hi
  rw [h.deadline b hb]
  exact hnow.trans_lt (hin b hb)

/-- A trial in flight is the only one. -/
theorem BreakerOK.single (h : BreakerOK s) {i j : Nat} (hi : (s.locals i).inTrial = true)
    (hj : (s.locals j).inTrial = true) : i = j := by
  by_contra hne
  obtain ⟨visto, hv⟩ := BreakerCall.visto_of_inTrial hj
  exact h.alone hi (fun h => hne h.symm) hv (h.trial hj hv).2

/-- The invariant holds of an empty store with no call. -/
theorem BreakerSystem.Initial.ok (h : s.Initial) : BreakerOK s := by
  have hl : ∀ i, s.locals i = .idle := by
    intro i
    rw [h.2]
  constructor
  · intro i
    rw [hl i]
    trivial
  · intro i visto hi
    rw [hl i] at hi
    cases hi
  · intro i b hb
    rw [hl i] at hb
    cases hb
  · intro i j visto hi
    rw [hl i] at hi
    cases hi

/-! ## Steps -/

/-- What a step leaves: time passes, and the store is the one seen before unless it was written. -/
structure BreakerLater (w w' : BreakerWorld) : Prop where
  clock : w.clock ≤ w'.clock
  store : w.store.Earlier w'.store

theorem BreakerLater.refl (w : BreakerWorld) : BreakerLater w w := ⟨Int.le_refl _, .refl _⟩

theorem breakerLater_save (w : BreakerWorld) (state : BreakerState) :
    BreakerLater w (w.save state) :=
  ⟨Int.le_refl _, Cell.earlier_write _ _⟩

/-- What a call knows survives every step. -/
theorem BreakerCall.OK.stable (h : BreakerLater w w') {l : BreakerCall} (hl : l.OK w) :
    l.OK w' := by
  have hopen : ∀ {visto : Cell BreakerState},
      (visto.value.status = .opened → visto.value.openUntil ≤ w.clock.epochSeconds) →
        visto.value.status = .opened → visto.value.openUntil ≤ w'.clock.epochSeconds :=
    fun ho hs => (ho hs).trans (Instant.epochSeconds_mono h.clock)
  cases l with
  | idle => trivial
  | call timeout ph =>
    cases ph with
    | done => trivial
    | getting => exact ⟨hl.1.trans (Instant.epochSeconds_mono h.clock), hl.2.trans h.store⟩
    | marking => exact ⟨hl.1.trans h.store, hopen hl.2.1, hl.2.2⟩
    | running | recording => exact ⟨hl.1.trans h.store, hopen hl.2⟩

theorem CallEffect.later {l l' : BreakerCall} (h : CallEffect w w' l l') : BreakerLater w w' := by
  cases h with
  | start hw | stop hw | pass hw | trial hw | ran hw => exact hw ▸ .refl w
  | mark hw | save _ hw => exact hw ▸ breakerLater_save w _

/-- A step of a call keeps what the call knows. -/
theorem CallEffect.ok {l l' : BreakerCall} (h : CallEffect w w' l l') (hl : l.OK w) : l'.OK w' := by
  cases h with
  | start hw =>
    subst hw
    exact ⟨le_rfl, .refl _⟩
  | stop => trivial
  | pass hw hs =>
    subst hw
    refine ⟨.refl _, fun ho => ?_⟩
    rw [hs] at ho
    cases ho
  | trial hw hopen _ _ hstate huntil =>
    subst hw
    exact ⟨.refl _, fun ho => (hopen ho).trans hl.1, hstate, huntil⟩
  | mark hw =>
    subst hw
    refine ⟨.refl _, fun ho => ?_⟩
    have hstate := hl.2.2.1
    simp only [BreakerWorld.save, Cell.write_value] at ho
    rw [hstate] at ho
    cases ho
  | ran hw =>
    subst hw
    exact hl
  | save => trivial

/-- The step of a call that does not write keeps the invariant, if it enters no trial, and looks at
the store only while none is in flight. -/
theorem BreakerOK.of_quiet (h : BreakerOK s) {i : Nat} (hsh : t.shared = s.shared)
    (hother : ∀ j, j ≠ i → t.locals j = s.locals j) (hown : (t.locals i).OK t.shared)
    (htr : (t.locals i).inTrial = true → (s.locals i).inTrial = true ∧
      (t.locals i).visto? = (s.locals i).visto?)
    (huntil : ∀ b ∈ (t.locals i).trialUntil?, b ∈ (s.locals i).trialUntil?)
    (hv : ∀ visto ∈ (t.locals i).visto?, visto ∈ (s.locals i).visto? ∨ NoTrial s) :
    BreakerOK t := by
  have hback : ∀ j, (t.locals j).inTrial = true → (s.locals j).inTrial = true :=
    Sys.forall_locals (fun j l => l.inTrial = true → (s.locals j).inTrial = true)
      (fun hi => (htr hi).1) hother fun _ _ => id
  constructor
  · refine Sys.forall_locals (fun _ l => l.OK t.shared) hown hother fun j _ => ?_
    rw [hsh]
    exact h.known j
  · intro j visto hj hvj
    rw [hsh]
    by_cases hji : j = i
    · subst hji
      exact h.trial (htr hj).1 ((htr hj).2 ▸ hvj)
    · rw [hother j hji] at hj hvj
      exact h.trial hj hvj
  · intro j b hb
    rw [hsh]
    by_cases hji : j = i
    · subst hji
      exact h.deadline b (huntil b hb)
    · rw [hother j hji] at hb
      exact h.deadline b hb
  · intro j k visto hj hkj hvk
    rw [hsh]
    by_cases hki : k = i
    · subst hki
      rcases hv visto hvk with hvk | hno
      · exact h.alone (hback j hj) hkj hvk
      · have := hback j hj
        rw [hno j] at this
        cases this
    · rw [hother k hki] at hvk
      exact h.alone (hback j hj) hkj hvk

/-- The save of a call keeps the invariant, if no other call is in its trial. -/
theorem BreakerOK.of_save (h : BreakerOK s) {i : Nat} {next : BreakerState}
    (hsh : t.shared = s.shared.save next) (hother : ∀ j, j ≠ i → t.locals j = s.locals j)
    (hown : (t.locals i).OK t.shared) (hno : ∀ j, j ≠ i → (s.locals j).inTrial = false)
    (htr : (t.locals i).inTrial = true → next.status = .halfOpen ∧
      ∀ visto ∈ (t.locals i).visto?, visto = t.shared.store)
    (huntil : ∀ b ∈ (t.locals i).trialUntil?, next.trialUntil = b) : BreakerOK t := by
  have honly : ∀ {j}, (t.locals j).inTrial = true → j = i := by
    intro j hj
    by_contra hji
    rw [hother j hji, hno j hji] at hj
    cases hj
  constructor
  · refine Sys.forall_locals (fun _ l => l.OK t.shared) hown hother fun j _ => ?_
    rw [hsh]
    exact (h.known j).stable (breakerLater_save _ _)
  · intro j visto hj hvj
    obtain rfl := honly hj
    obtain ⟨hnext, hvisto⟩ := htr hj
    rw [hvisto visto hvj, hsh]
    exact ⟨hnext, rfl⟩
  · intro j b hb
    obtain rfl := honly (BreakerCall.inTrial_of_trialUntil hb)
    rw [hsh]
    exact huntil b hb
  · intro j k visto hj hkj hvk
    obtain rfl := honly hj
    rw [hother k hkj] at hvk
    have hearlier := ((h.known k).visto hvk).1
    rw [hsh]
    exact hearlier.ne_write next

/-- A save that loses nothing is made while no other call is in its trial. -/
theorem BreakerOK.no_other_trial (h : BreakerOK s) {i : Nat} {next : BreakerState}
    {visto : Cell BreakerState} (hsv : (next, visto) ∈ (s.locals i).saving?)
    (hok : SaveOK s.shared.store visto next) : ∀ j, j ≠ i → (s.locals j).inTrial = false := by
  intro j hji
  by_contra hj
  have hj := (Bool.not_eq_false _).mp hj
  have hhalf := h.halfOpen hj
  rcases hok with hs | hs | ⟨hs, -⟩
  · rw [hhalf] at hs
    cases hs
  · exact h.alone hj (fun h => hji h.symm) (BreakerCall.visto_of_saving hsv) hs
  · rw [hhalf] at hs
    cases hs

/-- A step of the system is one of a call, with its effect, or of the environment. -/
theorem breakerStep_effect {a : Act BreakerAct BreakerEnv} (hc : Calm s a t)
    (h : breakerStep cfg s a = some t) :
    (∃ i b, a = .call i b ∧ CallEffect s.shared t.shared (s.locals i) (t.locals i) ∧
      ∀ j, j ≠ i → t.locals j = s.locals j) ∨
    (t.locals = s.locals ∧ BreakerLater s.shared t.shared ∧
      (t.shared.store = s.shared.store ∨ a = .env .expire)) := by
  rcases Program.step_cases h with ⟨i, b, r, rfl, hr, hsh, hi, hother⟩ | ⟨e, rfl, he, hloc⟩
  · refine .inl ⟨i, b, rfl, ?_, hother⟩
    rw [hsh, hi]
    exact breakerProgramStep_effect (hc.answers _ rfl) hr
  · refine .inr ⟨hloc, ?_⟩
    cases e with
    | tick d =>
      have he : some { s.shared with clock := s.shared.clock + d } = some t.shared := he
      rw [← Option.some.inj he]
      refine ⟨⟨?_, .refl _⟩, .inl rfl⟩
      simp only [Instant]
      omega
    | expire =>
      have he : breakerEnvStep s.shared .expire = some t.shared := he
      simp only [breakerEnvStep] at he
      split at he
      · rw [← Option.some.inj he]
        exact ⟨⟨Int.le_refl _, Cell.earlier_write _ _⟩, .inr rfl⟩
      · cases he

/-- While the circuit is closed no trial is in flight. -/
theorem BreakerOK.noTrial_of_closed (h : BreakerOK s)
    (hs : s.shared.store.value.status = .closed) : NoTrial s := by
  intro j
  by_contra hj
  have hhalf := h.halfOpen ((Bool.not_eq_false _).mp hj)
  rw [hs] at hhalf
  cases hhalf

/-- A call that finds the `trial_until` of the store over, while the trials in flight are before
their own, finds none in flight: the one in flight would be in the store. -/
theorem BreakerOK.noTrial_of_over (h : BreakerOK s) {now : ℚ}
    (hnow : now ≤ s.shared.clock.epochSeconds)
    (hin : ∀ j, ∀ b ∈ (s.locals j).trialUntil?, s.shared.clock.epochSeconds < b)
    (hover : s.shared.store.value.status = .halfOpen → s.shared.store.value.trialUntil ≤ now) :
    NoTrial s := by
  intro j
  by_contra hj
  have hj := (Bool.not_eq_false _).mp hj
  exact absurd (hover (h.halfOpen hj)) (not_le.2 (h.keepsOut hj hnow (hin j)))

/-- A calm step of a call keeps the invariant. -/
theorem BreakerOK.call (h : BreakerOK s) {i : Nat} {b : BreakerAct} (hc : Calm s (.call i b) t)
    (heff : CallEffect s.shared t.shared (s.locals i) (t.locals i))
    (hother : ∀ j, j ≠ i → t.locals j = s.locals j) : BreakerOK t := by
  have hknown := h.known i
  have hown := heff.ok hknown
  have hget := hc.inTime _ rfl
  have hsave := hc.save _ rfl
  generalize hl : s.locals i = l at heff hknown
  generalize hl' : t.locals i = l' at heff
  cases heff with
  | start hw | stop hw =>
    refine h.of_quiet hw hother hown (fun ht => ?_) (fun b hb => ?_) fun visto hv => ?_
    · rw [hl'] at ht
      cases ht
    · rw [hl'] at hb
      cases hb
    · rw [hl'] at hv
      cases hv
  | pass hw hs =>
    have hnot : (t.locals i).inTrial = false := by simp [hl', BreakerCall.inTrial, hs]
    refine h.of_quiet hw hother hown (fun ht => ?_) (fun b hb => ?_)
      fun visto hv => .inr (h.noTrial_of_closed hs)
    · cases hnot.symm.trans ht
    · cases hnot.symm.trans (BreakerCall.inTrial_of_trialUntil hb)
  | @trial timeout now antes state hw _ hhalf =>
    have hin := hget (now, antes) (by rw [hl]; rfl)
    refine h.of_quiet hw hother hown (fun ht => ?_) (fun b hb => ?_)
      fun visto hv => .inr (h.noTrial_of_over hknown.1 hin hhalf)
    · rw [hl'] at ht
      cases ht
    · rw [hl'] at hb
      cases hb
  | @mark timeout now state visto hw =>
    have hsv : (state, visto) ∈ (s.locals i).saving? := by rw [hl]; rfl
    refine h.of_save hw hother hown (h.no_other_trial hsv (hsave _ hsv)) (fun _ => ?_)
      fun b hb => ?_
    · refine ⟨hknown.2.2.1, fun v hv => ?_⟩
      rw [hl'] at hv
      cases hv
      rfl
    · rw [hl', BreakerCall.trialUntil?, if_pos hknown.2.2.1] at hb
      cases hb
      exact hknown.2.2.2
  | ran hw =>
    refine h.of_quiet hw hother hown (fun ht => ?_) (fun b hb => ?_) fun visto hv => ?_
    · rw [hl'] at ht
      rw [hl, hl']
      exact ⟨ht, rfl⟩
    · rw [hl'] at hb
      rw [hl]
      exact hb
    · rw [hl'] at hv
      rw [hl]
      exact .inl hv
  | @save l timeout next visto r hsv hw =>
    have hsv : (next, visto) ∈ (s.locals i).saving? := by rw [hl, hsv]; rfl
    refine h.of_save hw hother hown (h.no_other_trial hsv (hsave _ hsv)) (fun ht => ?_)
      fun b hb => ?_
    · rw [hl'] at ht
      cases ht
    · rw [hl'] at hb
      cases hb

/-- A step that leaves the calls and the store keeps the invariant. -/
theorem BreakerOK.later (h : BreakerOK s) (hloc : t.locals = s.locals)
    (hlater : BreakerLater s.shared t.shared) (hstore : t.shared.store = s.shared.store) :
    BreakerOK t := by
  constructor
  · intro i
    rw [hloc]
    exact (h.known i).stable hlater
  · intro i visto hi hv
    rw [hloc] at hi hv
    rw [hstore]
    exact h.trial hi hv
  · intro i b hb
    rw [hloc] at hb
    rw [hstore]
    exact h.deadline b hb
  · intro i j visto hi hji hv
    rw [hloc] at hi hv
    rw [hstore]
    exact h.alone hi hji hv

/-- So does any step that leaves the calls while no trial is in flight. -/
theorem BreakerOK.of_noTrial (h : BreakerOK s) (hno : NoTrial s) (hloc : t.locals = s.locals)
    (hlater : BreakerLater s.shared t.shared) : BreakerOK t := by
  constructor
  · intro i
    rw [hloc]
    exact (h.known i).stable hlater
  · intro i visto hi
    rw [hloc, hno i] at hi
    cases hi
  · intro i b hb
    rw [hloc] at hb
    cases (hno i).symm.trans (BreakerCall.inTrial_of_trialUntil hb)
  · intro i j visto hi
    rw [hloc, hno i] at hi
    cases hi

/-- Calm steps keep the invariant. -/
theorem breakerOK_step (h : BreakerOK s) {a : Act BreakerAct BreakerEnv} (hc : Calm s a t)
    (hst : breakerStep cfg s a = some t) : BreakerOK t := by
  rcases breakerStep_effect hc hst with ⟨i, b, rfl, heff, hother⟩ | ⟨hloc, hlater, hstore⟩
  · exact h.call hc heff hother
  · rcases hstore with hstore | rfl
    · exact h.later hloc hlater hstore
    · -- the key expires while no trial is in flight
      exact h.of_noTrial (hc.expire rfl).1 hloc hlater

end Aeropass
