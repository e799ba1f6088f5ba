import Aeropass.Domain.Basic
import Aeropass.Lib.Cell
import Aeropass.Lib.Threads

/-!
# The circuit breaker

`CircuitBreaker` as calls that interleave at their awaits: a call reads its clock, gets the state,
marks itself as the trial where the circuit is half open, awaits `fn` and saves the state that its
outcome makes of the one it read. The store is the one that all processes share; the Redis key
expires ten minutes after the last save. The clock counts microseconds; what the calls read of it,
add to it and compare are doubles, in seconds, and every sum and difference is rounded to one.
-/

namespace Aeropass

open Binary64

/-- `CLOSED`, `OPEN` and `HALF_OPEN`. -/
inductive BreakerStatus where
  | closed | opened | halfOpen
  deriving DecidableEq, Repr

/-- `BreakerState`. -/
structure BreakerState where
  status : BreakerStatus := .closed
  failures : Nat := 0
  windowStart : ℚ := 0
  openUntil : ℚ := 0
  trialUntil : ℚ := 0
  deriving DecidableEq, Repr

/-- The parameters of `CircuitBreaker`. -/
structure BreakerSettings where
  failureThreshold : Nat := 5
  windowSeconds : ℚ := 60
  openSeconds : ℚ := 30

/-- `_TTL_SECONDS` of the store. -/
def breakerTtlSeconds : Int := 600

/-- What the calls share: the store, its expiry and the clock. -/
structure BreakerWorld where
  store : Cell BreakerState
  expiraAt : Instant
  clock : Instant

/-- `save` of the store. -/
def BreakerWorld.save (w : BreakerWorld) (state : BreakerState) : BreakerWorld :=
  { w with store := w.store.write state, expiraAt := w.clock + seconds breakerTtlSeconds }

/-- The state that `_record_failure` saves. -/
def recordFailure (cfg : BreakerSettings) (state : BreakerState) (now : ℚ) : BreakerState :=
  if state.status = .halfOpen then { status := .opened, openUntil := add now cfg.openSeconds }
  else
    let state :=
      if cfg.windowSeconds < sub now state.windowStart then { failures := 1, windowStart := now }
      else { state with failures := state.failures + 1 }
    if cfg.failureThreshold ≤ state.failures then
      { status := .opened, openUntil := add now cfg.openSeconds }
    else state

/-- A failure that finds the closed circuit after its window starts a new one. -/
theorem recordFailure_late {cfg : BreakerSettings} {state : BreakerState} {now : ℚ}
    (hs : state.status = .closed) (h : cfg.windowSeconds < sub now state.windowStart) :
    recordFailure cfg state now =
      if cfg.failureThreshold ≤ 1 then { status := .opened, openUntil := add now cfg.openSeconds }
      else { failures := 1, windowStart := now } := by
  simp [recordFailure, hs, h]

/-- A failure in the window is counted. -/
theorem recordFailure_inTime {cfg : BreakerSettings} {state : BreakerState} {now : ℚ}
    (hs : state.status = .closed) (h : ¬ cfg.windowSeconds < sub now state.windowStart) :
    recordFailure cfg state now =
      if cfg.failureThreshold ≤ state.failures + 1 then
        { status := .opened, openUntil := add now cfg.openSeconds }
      else { state with failures := state.failures + 1 } := by
  simp [recordFailure, hs, h]

/-- What `_record_failure` saves, unless the circuit was open. -/
theorem recordFailure_spec {cfg : BreakerSettings} {state : BreakerState} {now : ℚ}
    (hs : state.status ≠ .opened) :
    (recordFailure cfg state now).status ≠ .halfOpen ∧
      ((recordFailure cfg state now).status = .closed →
        (recordFailure cfg state now).failures < cfg.failureThreshold ∧
          1 ≤ (recordFailure cfg state now).failures) := by
  cases h : state.status with
  | opened => exact absurd h hs
  | halfOpen => simp [recordFailure, h]
  | closed =>
    by_cases hw : cfg.windowSeconds < sub now state.windowStart
    · rw [recordFailure_late h hw]
      split <;> simp
      omega
    · rw [recordFailure_inTime h hw]
      split <;> simp [h]
      omega

/-- What the source leaves open in a step: a cancellation, an exception of the store (before it
does anything), and whether `fn` returns. -/
structure BreakerChoice where
  cancelled : Bool := false
  storeFails : Bool := false
  succeeds : Bool := true

/-- How a call ends. -/
inductive CallEnd where
  | returned | raised | rejected | cancelled
  deriving DecidableEq, Repr

/-- Where a call is. `now` is the timestamp it read at its start and `state` its local variable;
`antes` is the store as it was at the start, and `visto` as the call last read or wrote it. -/
inductive BreakerPhase where
  | getting (now : ℚ) (antes : Cell BreakerState)
  | marking (now : ℚ) (state : BreakerState) (visto : Cell BreakerState)
  | running (now : ℚ) (state : BreakerState) (visto : Cell BreakerState)
  | recording (now : ℚ) (state next : BreakerState) (visto : Cell BreakerState) (r : CallEnd)
  | done (r : CallEnd)
  deriving DecidableEq

/-- One step of `_call(fn, timeout)`. -/
def breakerCallStep (cfg : BreakerSettings) (w : BreakerWorld) (timeout : ℚ)
    (ch : BreakerChoice) : BreakerPhase → Option (BreakerWorld × BreakerPhase)
  | .getting now _ =>
    if ch.cancelled then some (w, .done .cancelled)
    else
      -- a broken state store must not take the caller down
      let state := if ch.storeFails then {} else w.store.value
      if state.status = .opened ∧ now < state.openUntil then some (w, .done .rejected)
      else
        let state :=
          if state.status = .opened then { state with status := .halfOpen, trialUntil := 0 }
          else state
        if state.status = .halfOpen then
          if now < state.trialUntil then some (w, .done .rejected)
          else
            let state := { state with trialUntil := add (add now timeout) 1 }
            some (w, .marking now state w.store)
        else some (w, .running now state w.store)
  | .marking now state visto =>
    let w' := if ch.storeFails then w else w.save state
    if ch.cancelled then some (w', .done .cancelled)
    else some (w', .running now state (if ch.storeFails then visto else w'.store))
  | .running now state visto =>
    if ch.cancelled then some (w, .done .cancelled)
    else if ch.succeeds then
      if state.status ≠ .closed ∨ state.failures ≠ 0 then
        some (w, .recording now state {} visto .returned)
      else some (w, .done .returned)
    else some (w, .recording now state (recordFailure cfg state w.clock.epochSeconds) visto .raised)
  | .recording _ _ next _ r =>
    let w' := if ch.storeFails then w else w.save next
    some (w', .done (if ch.cancelled then .cancelled else r))
  | .done _ => none

/-- A call of the breaker with its timeout. -/
inductive BreakerCall where
  | idle
  | call (timeout : ℚ) (ph : BreakerPhase)
  deriving DecidableEq

/-- What moves a call. -/
inductive BreakerAct where
  | call (timeout : ℚ)
  | next (ch : BreakerChoice)

/-- One step of a call, which starts by reading its clock. -/
def breakerProgramStep (cfg : BreakerSettings) (w : BreakerWorld) :
    BreakerCall → BreakerAct → Option (BreakerWorld × BreakerCall)
  | .idle, .call timeout => some (w, .call timeout (.getting w.clock.epochSeconds w.store))
  | .call timeout ph, .next ch =>
    (breakerCallStep cfg w timeout ch ph).map fun r => (r.1, .call timeout r.2)
  | _, _ => none

/-- What happens besides: time passes, and the key expires. -/
inductive BreakerEnv where
  | tick (d : Nat)
  | expire

/-- One step of the environment. -/
def breakerEnvStep (w : BreakerWorld) : BreakerEnv → Option BreakerWorld
  | .tick d => some { w with clock := w.clock + d }
  | .expire => if w.expiraAt ≤ w.clock then some { w with store := w.store.write {} } else none

/-- The calls of one breaker. -/
def breakerProgram (cfg : BreakerSettings) :
    Threads.Program BreakerWorld BreakerCall BreakerAct BreakerEnv :=
  ⟨fun _ => breakerProgramStep cfg, breakerEnvStep⟩

/-- A shared state and all calls. -/
abbrev BreakerSystem := Threads.Sys BreakerWorld BreakerCall

/-- The step function of the breaker. -/
def breakerStep (cfg : BreakerSettings) :
    BreakerSystem → Threads.Act BreakerAct BreakerEnv → Option BreakerSystem :=
  (breakerProgram cfg).step

/-- The store is empty and no call has started. -/
def BreakerSystem.Initial (s : BreakerSystem) : Prop :=
  s.shared.store = ⟨{}, 0⟩ ∧ s.locals = fun _ => .idle

end Aeropass
