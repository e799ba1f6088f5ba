import Aeropass.Breaker.Inv
import Aeropass.Lib.Window
import Aeropass.Observability.Catalog

/-!
# The breaker, one call at a time

`CircuitBreaker.call` as a function of the stored state, for a call that nothing else interrupts:
what it stores, what it returns or raises, how often it invokes `fn` and which audit records it
emits. A sequence of such calls is judged by its past: the latest opening, whether the next call
that is let through is the trial, and the failures of the current window (`SequentialSpec`).
`breakerAlone_solo` connects the function to the interleaved calls of `breakerStep`.
-/

namespace Aeropass

open Binary64 Runs Threads Window

/-! ## A call -/

/-- A call of the breaker: its start, its timeout, what awaiting `fn` under it gives (a timeout is
an exception), and when that ends. -/
structure Invocation (ε α : Type*) where
  now : Instant
  timeout : ℚ
  outcome : Except ε α
  ends : Instant

/-- What a call raises: `CircuitOpenError`, or what `fn` raised. -/
inductive BreakerError (ε : Type*) where
  | circuitOpen (name : String)
  | raised (e : ε)
  deriving DecidableEq, Repr

/-- What a call did. -/
structure CallOutcome (ε α : Type*) where
  stored : BreakerState
  result : Except (BreakerError ε) α
  invoked : Nat
  audits : List AuditRecord

/-- `_opened`. -/
def openedRecord (name : String) : AuditRecord := ⟨circuitOpened, [("dependencia", name)]⟩

/-- The audit records of `_record_failure`. -/
def recordFailureAudits (cfg : BreakerSettings) (name : String) (state : BreakerState)
    (now : ℚ) : List AuditRecord :=
  if state.status = .halfOpen then [openedRecord name]
  else
    let state :=
      if cfg.windowSeconds < sub now state.windowStart then { failures := 1, windowStart := now }
      else { state with failures := state.failures + 1 }
    if cfg.failureThreshold ≤ state.failures then [openedRecord name] else []

variable {ε α : Type*}

/-- `_call`, on a store that gives back what was saved last. -/
def breakerAlone (cfg : BreakerSettings) (name : String) (stored : BreakerState)
    (c : Invocation ε α) : CallOutcome ε α :=
  let now := c.now.epochSeconds
  if stored.status = .opened ∧ now < stored.openUntil then
    ⟨stored, .error (.circuitOpen name), 0, []⟩
  else
    let state :=
      if stored.status = .opened then { stored with status := .halfOpen, trialUntil := 0 }
      else stored
    if state.status = .halfOpen ∧ now < state.trialUntil then
      ⟨stored, .error (.circuitOpen name), 0, []⟩
    else
      let trial := state.status = .halfOpen
      let state :=
        if trial then { state with trialUntil := add (add now c.timeout) 1 } else state
      let stored := if trial then state else stored
      match c.outcome with
      | .error e =>
        ⟨recordFailure cfg state c.ends.epochSeconds, .error (.raised e), 1,
          recordFailureAudits cfg name state c.ends.epochSeconds⟩
      | .ok a =>
        ⟨if state.status ≠ .closed ∨ state.failures ≠ 0 then {} else stored, .ok a, 1, []⟩

/-! ## Sequences of calls -/

/-- A call with the state it found and what it did. -/
structure BreakerEntry (ε α : Type*) where
  before : BreakerState
  call : Invocation ε α
  out : CallOutcome ε α

/-- A call on a stored state. -/
def breakerEntry (cfg : BreakerSettings) (name : String) (stored : BreakerState)
    (c : Invocation ε α) : BreakerEntry ε α :=
  ⟨stored, c, breakerAlone cfg name stored c⟩

@[simp] theorem breakerEntry_call (cfg : BreakerSettings) (name : String) (st : BreakerState)
    (c : Invocation ε α) : (breakerEntry cfg name st c).call = c := rfl

/-- Calls in sequence, from a stored state. -/
def breakerLog (cfg : BreakerSettings) (name : String) (stored : BreakerState) :
    List (Invocation ε α) → List (BreakerEntry ε α)
  | [] => []
  | c :: cs =>
    breakerEntry cfg name stored c :: breakerLog cfg name (breakerAlone cfg name stored c).stored cs

/-- Each call ends before the next one starts, and the clock does not go back. -/
def OneAfterAnother (start : Instant) : List (Invocation ε α) → Prop
  | [] => True
  | c :: cs => start ≤ c.now ∧ c.now ≤ c.ends ∧ OneAfterAnother c.ends cs

/-- The call was rejected. -/
def BreakerEntry.rejected (e : BreakerEntry ε α) : Bool := e.out.invoked = 0

/-- The call was let through and left the circuit open. -/
def BreakerEntry.opens (e : BreakerEntry ε α) : Bool := !e.rejected && e.out.stored.status = .opened

/-- The call was let through and failed. -/
def BreakerEntry.fails (e : BreakerEntry ε α) : Bool := !e.rejected && !e.call.outcome.isOk

/-- When the circuit was last opened. -/
def latestOpening (past : List (BreakerEntry ε α)) : Option Instant :=
  ((past.filter (·.opens)).getLast?).map (·.call.ends)

/-- The next call that is let through is the trial: the last one that was opened the circuit. -/
def trialDue (past : List (BreakerEntry ε α)) : Bool :=
  (past.filter (!·.rejected)).getLast?.any (·.opens)

/-- The second failure comes more than `window_seconds` after the first, as `_record_failure`
computes it. -/
def TooLateAfter (cfg : BreakerSettings) (first t : Instant) : Prop :=
  cfg.windowSeconds < sub t.epochSeconds first.epochSeconds

theorem tooLateAfter_iff {cfg : BreakerSettings} {first t : Instant} : TooLateAfter cfg first t ↔
    cfg.windowSeconds < sub t.epochSeconds first.epochSeconds := .rfl

instance (cfg : BreakerSettings) : DecidableRel (TooLateAfter cfg) :=
  fun _ _ => decidable_of_iff _ tooLateAfter_iff.symm

/-- The times of the failures since the last success, opening or window restart. -/
def failuresSince (cfg : BreakerSettings) (past : List (BreakerEntry ε α)) : List Instant :=
  past.foldl (fun win e =>
    if e.rejected then win
    else if e.fails && !e.opens then push (TooLateAfter cfg) win e.call.ends else []) []

/-! ## What the past says of a call -/

/-- How a call that follows the calls of `past` behaves. -/
structure SequentialSpec (cfg : BreakerSettings) (name : String) (past : List (BreakerEntry ε α))
    (e : BreakerEntry ε α) : Prop where
  rejected : e.rejected ↔ ∃ t, latestOpening past = some t ∧ t ≤ e.call.now ∧
    e.call.now.epochSeconds < add t.epochSeconds cfg.openSeconds
  rejects : e.rejected → e.out.invoked = 0 ∧ e.out.result = .error (.circuitOpen name) ∧
    e.out.stored = e.before
  passes : ¬ e.rejected → e.out.invoked = 1 ∧ e.out.result = e.call.outcome.mapError .raised
  opens : e.opens ↔ e.fails ∧ (trialDue past ∨
    (push (TooLateAfter cfg) (failuresSince cfg past) e.call.ends).length =
      max 1 cfg.failureThreshold)
  within : Within (TooLateAfter cfg)
    (push (TooLateAfter cfg) (failuresSince cfg past) e.call.ends)
  opened : e.opens → e.out.stored =
    { status := .opened, openUntil := add e.call.ends.epochSeconds cfg.openSeconds }
  closes : trialDue past → ¬ e.rejected → ¬ e.fails → e.out.stored = {}
  audits : e.out.audits = if e.opens then [openedRecord name] else []

variable {cfg : BreakerSettings} {name : String} {past : List (BreakerEntry ε α)}
  {e : BreakerEntry ε α} {c : Invocation ε α} {st : BreakerState} {win : List Instant}
  {t last : Instant}

theorem latestOpening_snoc :
    latestOpening (past ++ [e]) = if e.opens then some e.call.ends else latestOpening past := by
  unfold latestOpening
  rw [List.filter_append]
  cases h : e.opens <;> simp [h]

theorem trialDue_snoc :
    trialDue (past ++ [e]) = if e.rejected then trialDue past else e.opens := by
  unfold trialDue
  rw [List.filter_append]
  cases h : e.rejected <;> simp [h]

theorem failuresSince_snoc : failuresSince cfg (past ++ [e]) =
    if e.rejected then failuresSince cfg past
    else if e.fails && !e.opens then
      push (TooLateAfter cfg) (failuresSince cfg past) e.call.ends
    else [] := by
  simp only [failuresSince, List.foldl_append, List.foldl_cons, List.foldl_nil]

/-- The failures that count lie in one window. -/
theorem failuresSince_within (cfg : BreakerSettings) (past : List (BreakerEntry ε α)) :
    Within (TooLateAfter cfg) (failuresSince cfg past) := by
  induction past using List.reverseRecOn with
  | nil => trivial
  | append_singleton past e ih =>
    rw [failuresSince_snoc]
    split
    · exact ih
    · split
      · exact ih.push
      · trivial

/-! ## One call -/

/-- The closed circuit that counts the failures of a window. -/
def countingState : List Instant → BreakerState
  | [] => {}
  | first :: rest => { failures := rest.length + 1, windowStart := first.epochSeconds }

@[simp] theorem countingState_status : (countingState win).status = .closed := by
  cases win <;> rfl

@[simp] theorem countingState_failures : (countingState win).failures = win.length := by
  cases win <;> rfl

/-- The timestamps are doubles, so the difference to an empty state's window start is exact. -/
@[simp] theorem sub_epochSeconds_zero : sub t.epochSeconds 0 = t.epochSeconds := by
  simp [sub, Instant.epochSeconds]

/-- The state that a failure leaves counts it too, or opens the circuit. -/
theorem recordFailure_counting (hw : win = [] → cfg.windowSeconds < t.epochSeconds) :
    recordFailure cfg (countingState win) t.epochSeconds =
      if cfg.failureThreshold ≤ (push (TooLateAfter cfg) win t).length then
        { status := .opened, openUntil := add t.epochSeconds cfg.openSeconds }
      else countingState (push (TooLateAfter cfg) win t) := by
  cases win with
  | nil => simp [recordFailure, countingState, hw rfl]
  | cons first rest =>
    by_cases hlate : cfg.windowSeconds < sub t.epochSeconds first.epochSeconds <;>
      simp [recordFailure, countingState, push_cons, tooLateAfter_iff, hlate]

/-- The failure that opens the circuit is recorded. -/
theorem recordFailureAudits_counting (hw : win = [] → cfg.windowSeconds < t.epochSeconds) :
    recordFailureAudits cfg name (countingState win) t.epochSeconds =
      if cfg.failureThreshold ≤ (push (TooLateAfter cfg) win t).length then [openedRecord name]
      else [] := by
  cases win with
  | nil => simp [recordFailureAudits, countingState, hw rfl]
  | cons first rest =>
    by_cases hlate : cfg.windowSeconds < sub t.epochSeconds first.epochSeconds <;>
      simp [recordFailureAudits, countingState, push_cons, tooLateAfter_iff, hlate]

/-- A call of the closed circuit. -/
theorem breakerAlone_closed (h : st.status = .closed) :
    breakerAlone cfg name st c = match c.outcome with
      | .error e => ⟨recordFailure cfg st c.ends.epochSeconds, .error (.raised e), 1,
          recordFailureAudits cfg name st c.ends.epochSeconds⟩
      | .ok a => ⟨if st.failures ≠ 0 then {} else st, .ok a, 1, []⟩ := by
  simp [breakerAlone, h]

/-- A call of the open circuit. -/
theorem breakerAlone_shut (h : st.status = .opened) (hlt : c.now.epochSeconds < st.openUntil) :
    breakerAlone cfg name st c = ⟨st, .error (.circuitOpen name), 0, []⟩ := by
  simp [breakerAlone, h, hlt]

/-- The trial. -/
theorem breakerAlone_trial (h : st.status = .opened) (hle : st.openUntil ≤ c.now.epochSeconds)
    (h0 : 0 ≤ c.now.epochSeconds) :
    breakerAlone cfg name st c = match c.outcome with
      | .error e => ⟨{ status := .opened, openUntil := add c.ends.epochSeconds cfg.openSeconds },
          .error (.raised e), 1, [openedRecord name]⟩
      | .ok a => ⟨{}, .ok a, 1, []⟩ := by
  simp [breakerAlone, h, not_lt.2 hle, not_lt.2 h0, recordFailure, recordFailureAudits]

/-! ## Sequences -/

/-- What the stored state knows of the past: the failures that count, or the latest opening. -/
inductive Tracks (cfg : BreakerSettings) (past : List (BreakerEntry ε α)) (last : Instant)
    (st : BreakerState) : Prop
  | counting : st = countingState (failuresSince cfg past) →
    (failuresSince cfg past).length < max 1 cfg.failureThreshold →
    trialDue past = false →
    (∀ t, latestOpening past = some t →
      add t.epochSeconds cfg.openSeconds ≤ last.epochSeconds) →
    Tracks cfg past last st
  | opened (t : Instant) :
    st = { status := .opened, openUntil := add t.epochSeconds cfg.openSeconds } →
    trialDue past = true → latestOpening past = some t → t ≤ last →
    failuresSince cfg past = [] → Tracks cfg past last st

/-- Before the first call. -/
theorem Tracks.initial (last : Instant) : Tracks cfg ([] : List (BreakerEntry ε α)) last {} := by
  refine .counting rfl ?_ rfl fun t ht => ?_
  · simp only [failuresSince, List.foldl_nil, List.length_nil]
    omega
  · cases ht

/-- After the latest open period nothing keeps a call out. -/
theorem not_shut (hover : ∀ t, latestOpening past = some t →
      add t.epochSeconds cfg.openSeconds ≤ last.epochSeconds)
    {now : Instant} (hlast : last ≤ now) :
    ¬ ∃ t, latestOpening past = some t ∧ t ≤ now ∧
      now.epochSeconds < add t.epochSeconds cfg.openSeconds := by
  rintro ⟨t, ht, -, hlt⟩
  exact not_lt.2 ((hover t ht).trans (Instant.epochSeconds_mono hlast)) hlt

/-- What is left to show of a call that is let through. -/
theorem SequentialSpec.of_letThrough (hone : e.out.invoked = 1)
    (hresult : e.out.result = e.call.outcome.mapError .raised)
    (hshut : ¬ ∃ t, latestOpening past = some t ∧ t ≤ e.call.now ∧
      e.call.now.epochSeconds < add t.epochSeconds cfg.openSeconds)
    (hopens : e.opens ↔ e.fails ∧ (trialDue past ∨
      (push (TooLateAfter cfg) (failuresSince cfg past) e.call.ends).length =
        max 1 cfg.failureThreshold))
    (hopened : e.opens → e.out.stored =
      { status := .opened, openUntil := add e.call.ends.epochSeconds cfg.openSeconds })
    (hcloses : trialDue past → ¬ e.fails → e.out.stored = {})
    (haudits : e.out.audits = if e.opens then [openedRecord name] else []) :
    SequentialSpec cfg name past e where
  rejected := by
    simp only [BreakerEntry.rejected, hone]
    exact iff_of_false (by simp) hshut
  rejects hrej := by simp [BreakerEntry.rejected, hone] at hrej
  passes _ := ⟨hone, hresult⟩
  opens := hopens
  within := (failuresSince_within _ _).push
  opened := hopened
  closes htrial _ := hcloses htrial
  audits := haudits

section
variable (hst : st = countingState (failuresSince cfg past))
  (hlen : (failuresSince cfg past).length < max 1 cfg.failureThreshold)
  (htrial : trialDue past = false)
  (hover : ∀ t, latestOpening past = some t →
    add t.epochSeconds cfg.openSeconds ≤ last.epochSeconds)
  (hlast : last ≤ c.now) (hc : c.now ≤ c.ends)

include hst hlen htrial hover hlast hc

/-- A failure of the closed circuit is counted, and the last one that the window allows opens the
circuit. -/
theorem Tracks.failure {x : ε} (hW : cfg.windowSeconds < last.epochSeconds)
    (hx : c.outcome = .error x) :
    SequentialSpec cfg name past (breakerEntry cfg name st c) ∧
      Tracks cfg (past ++ [breakerEntry cfg name st c]) c.ends
        (breakerEntry cfg name st c).out.stored := by
  have hends : cfg.windowSeconds < c.ends.epochSeconds :=
    hW.trans_le (Instant.epochSeconds_mono (Int.le_trans hlast hc))
  have hle : (push (TooLateAfter cfg) (failuresSince cfg past) c.ends).length ≤
      (failuresSince cfg past).length + 1 := length_push_le
  have hpos : 1 ≤ (push (TooLateAfter cfg) (failuresSince cfg past) c.ends).length :=
    length_push_pos
  have hout : (breakerEntry cfg name st c).out =
      ⟨recordFailure cfg st c.ends.epochSeconds, .error (.raised x), 1,
        recordFailureAudits cfg name st c.ends.epochSeconds⟩ := by
    rw [breakerEntry, breakerAlone_closed (by rw [hst, countingState_status]), hx]
  rw [hst, recordFailure_counting fun _ => hends, recordFailureAudits_counting fun _ => hends,
    ← hst] at hout
  have hrej : (breakerEntry cfg name st c).rejected = false := by simp [BreakerEntry.rejected, hout]
  have hfails : (breakerEntry cfg name st c).fails = true := by
    simp [BreakerEntry.fails, hrej, hx, Except.isOk, Except.toBool]
  have hopens : (breakerEntry cfg name st c).opens = true ↔ cfg.failureThreshold ≤
      (push (TooLateAfter cfg) (failuresSince cfg past) c.ends).length := by
    simp only [BreakerEntry.opens, hrej, hout]
    split <;> simp_all
  generalize hwin : push (TooLateAfter cfg) (failuresSince cfg past) c.ends = win'
    at hopens hout hle hpos
  have hspec : SequentialSpec cfg name past (breakerEntry cfg name st c) := by
    refine .of_letThrough (by rw [hout]) (by rw [hout]; simp [hx, Except.mapError])
      (not_shut hover hlast) ?_ ?_ ?_ ?_
    · rw [hopens, htrial, breakerEntry_call, hwin]
      simp only [hfails, true_and, Bool.false_eq_true, false_or]
      omega
    · intro ho
      rw [hout, if_pos (hopens.1 ho)]
      rfl
    · simp [htrial]
    · rw [hout]
      simp only [hopens]
  refine ⟨hspec, ?_⟩
  by_cases hthr : cfg.failureThreshold ≤ win'.length
  · have ho := hopens.2 hthr
    refine .opened c.ends (by rw [hout, if_pos hthr]) ?_ ?_ (Int.le_refl _) ?_
    · rw [trialDue_snoc, hrej, ho]
      rfl
    · rw [latestOpening_snoc, ho]
      rfl
    · rw [failuresSince_snoc, hrej, hfails, ho]
      rfl
  · have ho := Bool.eq_false_iff.2 (mt hopens.1 hthr)
    have hfs : failuresSince cfg (past ++ [breakerEntry cfg name st c]) = win' := by
      rw [failuresSince_snoc, hrej, hfails, ho]
      exact hwin
    refine .counting ?_ ?_ ?_ fun t ht => ?_
    · rw [hout, if_neg hthr, hfs]
    · rw [hfs]
      omega
    · rw [trialDue_snoc, hrej, ho]
      rfl
    · rw [latestOpening_snoc, ho] at ht
      exact (hover t ht).trans (Instant.epochSeconds_mono (Int.le_trans hlast hc))

end

/-- After a success no earlier failure counts. -/
theorem Tracks.success {a : α} (hover : ∀ t, latestOpening past = some t →
      add t.epochSeconds cfg.openSeconds ≤ c.now.epochSeconds)
    (hc : c.now ≤ c.ends) (hx : c.outcome = .ok a)
    (hout : breakerAlone cfg name st c = ⟨{}, .ok a, 1, []⟩) :
    SequentialSpec cfg name past (breakerEntry cfg name st c) ∧
      Tracks cfg (past ++ [breakerEntry cfg name st c]) c.ends
        (breakerEntry cfg name st c).out.stored := by
  have hout : (breakerEntry cfg name st c).out = ⟨{}, .ok a, 1, []⟩ := hout
  have hrej : (breakerEntry cfg name st c).rejected = false := by simp [BreakerEntry.rejected, hout]
  have hfails : (breakerEntry cfg name st c).fails = false := by
    simp [BreakerEntry.fails, hx, Except.isOk, Except.toBool]
  have hopens : (breakerEntry cfg name st c).opens = false := by simp [BreakerEntry.opens, hout]
  have hfs : failuresSince cfg (past ++ [breakerEntry cfg name st c]) = [] := by
    rw [failuresSince_snoc, hrej, hfails]
    rfl
  have hspec : SequentialSpec cfg name past (breakerEntry cfg name st c) := by
    refine .of_letThrough (by rw [hout]) (by rw [hout]; simp [hx, Except.mapError])
      (not_shut hover (Int.le_refl _)) ?_ ?_ ?_ ?_
    · simp [hopens, hfails]
    · simp [hopens]
    · intro _ _
      rw [hout]
    · rw [hout, hopens]
      rfl
  refine ⟨hspec, .counting ?_ ?_ ?_ fun t ht => ?_⟩
  · rw [hout, hfs]
    rfl
  · rw [hfs, List.length_nil]
    omega
  · rw [trialDue_snoc, hrej, hopens]
    rfl
  · rw [latestOpening_snoc, hopens] at ht
    exact (hover t ht).trans (Instant.epochSeconds_mono hc)

/-- In the open period calls are rejected. -/
theorem Tracks.shut
    (hst : st = { status := .opened, openUntil := add t.epochSeconds cfg.openSeconds })
    (htrial : trialDue past = true) (hopening : latestOpening past = some t) (ht : t ≤ last)
    (hfs : failuresSince cfg past = []) (hlast : last ≤ c.now)
    (hc : c.now ≤ c.ends)
    (hlt : c.now.epochSeconds < add t.epochSeconds cfg.openSeconds) :
    SequentialSpec cfg name past (breakerEntry cfg name st c) ∧
      Tracks cfg (past ++ [breakerEntry cfg name st c]) c.ends
        (breakerEntry cfg name st c).out.stored := by
  have hout : (breakerEntry cfg name st c).out = ⟨st, .error (.circuitOpen name), 0, []⟩ :=
    breakerAlone_shut (by rw [hst]) (by rw [hst]; exact hlt)
  have hrej : (breakerEntry cfg name st c).rejected = true := by simp [BreakerEntry.rejected, hout]
  have hopens : (breakerEntry cfg name st c).opens = false := by simp [BreakerEntry.opens, hrej]
  have hspec : SequentialSpec cfg name past (breakerEntry cfg name st c) := by
    constructor
    · simp only [hrej, true_iff]
      exact ⟨t, hopening, Int.le_trans ht hlast, hlt⟩
    · intro _
      rw [hout]
      exact ⟨rfl, rfl, rfl⟩
    · simp [hrej]
    · simp [hopens, BreakerEntry.fails, hrej]
    · exact (failuresSince_within _ _).push
    · simp [hopens]
    · simp [hrej]
    · rw [hout, hopens]
      rfl
  refine ⟨hspec, .opened t (by rw [hout, hst]) ?_ ?_ ?_ ?_⟩
  · rw [trialDue_snoc, hrej]
    exact htrial
  · rw [latestOpening_snoc, hopens]
    exact hopening
  · exact Int.le_trans ht (Int.le_trans hlast hc)
  · rw [failuresSince_snoc, hrej]
    exact hfs

/-- A failing trial opens the circuit again. -/
theorem Tracks.trialFailure {x : ε}
    (hst : st = { status := .opened, openUntil := add t.epochSeconds cfg.openSeconds })
    (htrial : trialDue past = true) (hopening : latestOpening past = some t)
    (hle : add t.epochSeconds cfg.openSeconds ≤ c.now.epochSeconds)
    (h0 : 0 ≤ c.now.epochSeconds) (hx : c.outcome = .error x) :
    SequentialSpec cfg name past (breakerEntry cfg name st c) ∧
      Tracks cfg (past ++ [breakerEntry cfg name st c]) c.ends
        (breakerEntry cfg name st c).out.stored := by
  have hout : (breakerEntry cfg name st c).out =
      ⟨{ status := .opened, openUntil := add c.ends.epochSeconds cfg.openSeconds },
        .error (.raised x), 1, [openedRecord name]⟩ := by
    rw [breakerEntry, breakerAlone_trial (by rw [hst]) (by rw [hst]; exact hle) h0, hx]
  have hrej : (breakerEntry cfg name st c).rejected = false := by simp [BreakerEntry.rejected, hout]
  have hfails : (breakerEntry cfg name st c).fails = true := by
    simp [BreakerEntry.fails, hrej, hx, Except.isOk, Except.toBool]
  have hopens : (breakerEntry cfg name st c).opens = true := by
    simp [BreakerEntry.opens, hrej, hout]
  have hspec : SequentialSpec cfg name past (breakerEntry cfg name st c) := by
    refine .of_letThrough (by rw [hout]) (by rw [hout]; simp [hx, Except.mapError]) ?_ ?_ ?_ ?_ ?_
    · rintro ⟨t', ht', -, hlt⟩
      cases hopening.symm.trans ht'
      exact not_lt.2 hle hlt
    · simp [hopens, hfails, htrial]
    · intro _
      rw [hout]
      rfl
    · simp [hfails]
    · rw [hout, hopens]
      rfl
  refine ⟨hspec, .opened c.ends (by rw [hout]) ?_ ?_ (Int.le_refl _) ?_⟩
  · rw [trialDue_snoc, hrej, hopens]
    rfl
  · rw [latestOpening_snoc, hopens]
    rfl
  · rw [failuresSince_snoc, hrej, hfails, hopens]
    rfl

/-- A call behaves as its past says, and the stored state keeps track. -/
theorem Tracks.call (name : String) (h : Tracks cfg past last st) (hlast : last ≤ c.now)
    (hc : c.now ≤ c.ends) (hW : cfg.windowSeconds < last.epochSeconds) (h0 : 0 ≤ last) :
    SequentialSpec cfg name past (breakerEntry cfg name st c) ∧
      Tracks cfg (past ++ [breakerEntry cfg name st c]) c.ends
        (breakerEntry cfg name st c).out.stored := by
  have h0 := Instant.epochSeconds_nonneg (Int.le_trans h0 hlast)
  have hnow := Instant.epochSeconds_mono hlast
  cases h with
  | counting hst hlen htrial hover =>
    cases hx : c.outcome with
    | error x => exact Tracks.failure hst hlen htrial hover hlast hc hW hx
    | ok a =>
      refine Tracks.success (fun t ht => (hover t ht).trans hnow) hc hx ?_
      rw [breakerAlone_closed (by rw [hst, countingState_status]), hx]
      simp only [hst, countingState_failures]
      cases failuresSince cfg past <;> simp [countingState]
  | opened t hst htrial hopening ht hfs =>
    by_cases hlt : c.now.epochSeconds < add t.epochSeconds cfg.openSeconds
    · exact Tracks.shut hst htrial hopening ht hfs hlast hc hlt
    · have hle := not_lt.1 hlt
      cases hx : c.outcome with
      | error x => exact Tracks.trialFailure hst htrial hopening hle h0 hx
      | ok a =>
        refine Tracks.success (fun t' ht' => ?_) hc hx ?_
        · cases hopening.symm.trans ht'
          exact hle
        · rw [breakerAlone_trial (by rw [hst]) (by rw [hst]; exact hle) h0, hx]

/-- The state that a call of a sequence finds keeps track of the calls before it. -/
theorem Tracks.of_log {start : Instant} {calls : List (Invocation ε α)}
    (hcalls : OneAfterAnother start calls) (h0 : 0 ≤ start)
    (hW : cfg.windowSeconds < start.epochSeconds) {post : List (BreakerEntry ε α)}
    (h : breakerLog cfg name {} calls = past ++ e :: post) :
    ∃ last, Tracks cfg past last e.before ∧ 0 ≤ last ∧ cfg.windowSeconds < last.epochSeconds ∧
      last ≤ e.call.now ∧ e.call.now ≤ e.call.ends ∧ e = breakerEntry cfg name e.before e.call := by
  have hgen : ∀ (calls : List (Invocation ε α)) (before pre : List (BreakerEntry ε α))
      (st : BreakerState) (last : Instant), Tracks cfg before last st → 0 ≤ last →
      cfg.windowSeconds < last.epochSeconds → OneAfterAnother last calls →
      breakerLog cfg name st calls = pre ++ e :: post →
        ∃ last, Tracks cfg (before ++ pre) last e.before ∧ 0 ≤ last ∧
          cfg.windowSeconds < last.epochSeconds ∧ last ≤ e.call.now ∧
          e.call.now ≤ e.call.ends ∧ e = breakerEntry cfg name e.before e.call := by
    intro calls
    induction calls with
    | nil =>
      intro before pre st last _ _ _ _ h
      simp [breakerLog] at h
    | cons c cs ih =>
      rintro before pre st last htr h0 hW ⟨hlast, hc, hcs⟩ h
      cases pre with
      | nil =>
        cases h
        exact ⟨last, by rwa [List.append_nil], h0, hW, hlast, hc, rfl⟩
      | cons x pre =>
        rw [breakerLog, List.cons_append, List.cons.injEq] at h
        obtain ⟨rfl, h⟩ := h
        have hle := Int.le_trans hlast hc
        rw [← List.singleton_append, ← List.append_assoc]
        exact ih _ pre _ c.ends (htr.call name hlast hc hW h0).2 (Int.le_trans h0 hle)
          (hW.trans_le (Instant.epochSeconds_mono hle)) hcs h
  exact hgen calls [] past {} start (.initial start) h0 hW hcalls h

/-- **The breaker in sequence.** Every call of a sequence behaves as the calls before it say. -/
theorem breaker_sequential (cfg : BreakerSettings) (name : String) {start : Instant}
    {calls : List (Invocation ε α)} (hcalls : OneAfterAnother start calls) (h0 : 0 ≤ start)
    (hW : cfg.windowSeconds < start.epochSeconds) {past post : List (BreakerEntry ε α)}
    {e : BreakerEntry ε α} (h : breakerLog cfg name {} calls = past ++ e :: post) :
    SequentialSpec cfg name past e := by
  obtain ⟨last, htracks, h0', hW', hlast, hends, he⟩ := Tracks.of_log hcalls h0 hW h
  rw [he]
  exact (htracks.call name hlast hends hW' h0').1

/-- Five failures, a call in the open period, and the trial. -/
def sampleCalls : List (Invocation String Nat) :=
  [1000, 1001, 1002, 1003, 1004, 1010, 1040].map fun t =>
    ⟨seconds t, 1, if t = 1040 then .ok 7 else .error "boom", seconds t⟩

/-- The trial closes the circuit. -/
theorem breaker_sequential_sample : ∃ past e,
    breakerLog {} "biometric" {} sampleCalls = past ++ [e] ∧
      SequentialSpec {} "biometric" past e :=
  ⟨(breakerLog {} "biometric" {} sampleCalls).dropLast, _, by rfl,
    breaker_sequential {} "biometric"
      (show OneAfterAnother (seconds 1000) sampleCalls by
        simp [OneAfterAnother, sampleCalls, seconds]) (by decide) (by decide +kernel)
      (show breakerLog {} "biometric" {} sampleCalls =
        (breakerLog {} "biometric" {} sampleCalls).dropLast ++ _ :: [] by rfl)⟩

/-! ## The interleaved calls -/

/-- How the call ends. -/
def CallOutcome.callEnd (o : CallOutcome ε α) : CallEnd :=
  match o.result with
  | .ok _ => .returned
  | .error (.raised _) => .raised
  | .error (.circuitOpen _) => .rejected

/-- A run in which only call `i` steps, on a store that works, without a cancellation. -/
inductive Solo (cfg : BreakerSettings) (i : Nat) (s : BreakerSystem) : BreakerSystem → Prop
  | refl : Solo cfg i s s
  | call {t u b} : Solo cfg i s t →
    (∀ ch ∈ BreakerAct.choice? b, ch.cancelled = false ∧ ch.storeFails = false) →
    breakerStep cfg t (.call i b) = some u → Solo cfg i s u
  | tick {t u d} : Solo cfg i s t → breakerStep cfg t (.env (.tick d)) = some u → Solo cfg i s u

/-- One more step of the call. -/
theorem Solo.next {s : BreakerSystem} {w w' : BreakerWorld} {ls : Nat → BreakerCall} {i : Nat}
    {timeout : ℚ} {ph ph' : BreakerPhase} (h : Solo cfg i s ⟨w, ls⟩)
    (hi : ls i = .call timeout ph) (succeeds : Bool)
    (hst : breakerCallStep cfg w timeout { succeeds } ph = some (w', ph')) :
    Solo cfg i s ⟨w', Function.update ls i (.call timeout ph')⟩ := by
  refine h.call (b := .next { succeeds }) (fun ch hch => ?_) ?_
  · cases hch
    exact ⟨rfl, rfl⟩
  · simp [breakerStep, Program.step, breakerProgram, breakerProgramStep, hi, hst]

theorem Solo.update {s : BreakerSystem} {w : BreakerWorld} {i : Nat} {timeout : ℚ}
    {ph : BreakerPhase} (succeeds : Bool) (w' : BreakerWorld) (ph' : BreakerPhase)
    (h : Solo cfg i s ⟨w, Function.update s.locals i (.call timeout ph)⟩)
    (hst : breakerCallStep cfg w timeout { succeeds } ph = some (w', ph')) :
    Solo cfg i s ⟨w', Function.update s.locals i (.call timeout ph')⟩ := by
  simpa using h.next (Function.update_self ..) succeeds hst

/-- A call that nothing interrupts is rejected at the gate, or gets to `fn` with the state that
`breakerAlone` goes on with. -/
theorem solo_gate (cfg : BreakerSettings) (name : String) {s : BreakerSystem} {i : Nat}
    (hi : s.locals i = .idle) (hnow : s.shared.clock = c.now) :
    ∃ w ph, Solo cfg i s ⟨w, Function.update s.locals i (.call c.timeout ph)⟩ ∧
      w.clock = c.now ∧
      ((ph = .done .rejected ∧ breakerAlone cfg name s.shared.store.value c =
          ⟨w.store.value, .error (.circuitOpen name), 0, []⟩) ∨
        ∃ state visto, ph = .running c.now.epochSeconds state visto ∧
          breakerAlone cfg name s.shared.store.value c = match c.outcome with
            | .error e => ⟨recordFailure cfg state c.ends.epochSeconds, .error (.raised e), 1,
                recordFailureAudits cfg name state c.ends.epochSeconds⟩
            | .ok a => ⟨if state.status ≠ .closed ∨ state.failures ≠ 0 then {} else w.store.value,
                .ok a, 1, []⟩) := by
  obtain ⟨w, ls⟩ := s
  dsimp only at hi hnow ⊢
  have hstart : Solo cfg i ⟨w, ls⟩
      ⟨w, Function.update ls i (.call c.timeout (.getting c.now.epochSeconds w.store))⟩ := by
    refine Solo.call (b := .call c.timeout) .refl (fun ch hch => by cases hch) ?_
    simp [breakerStep, Program.step, breakerProgram, breakerProgramStep, hi, hnow]
  by_cases hshut : w.store.value.status = .opened ∧ c.now.epochSeconds < w.store.value.openUntil
  · refine ⟨w, .done .rejected, Solo.update true _ _ hstart (by simp [breakerCallStep, hshut]),
      hnow, .inl ⟨rfl, ?_⟩⟩
    simp [breakerAlone, hshut]
  generalize hstate : (if w.store.value.status = .opened then
    { w.store.value with status := .halfOpen, trialUntil := 0 } else w.store.value) = state
  by_cases hhalf : state.status = .halfOpen
  · by_cases htrial : c.now.epochSeconds < state.trialUntil
    · refine ⟨w, .done .rejected, Solo.update true _ _ hstart (by
        simp [breakerCallStep, hshut, hstate, hhalf, htrial]), hnow, .inl ⟨rfl, ?_⟩⟩
      simp [breakerAlone, hshut, hstate, hhalf, htrial]
    · -- the trial marks the state first
      have hmark := Solo.update true w (.marking c.now.epochSeconds
        { state with trialUntil := add (add c.now.epochSeconds c.timeout) 1 } w.store) hstart
        (by simp [breakerCallStep, hshut, hstate, hhalf, htrial])
      refine ⟨_, _, Solo.update true _ _ hmark rfl, hnow, .inr ⟨_, _, rfl, ?_⟩⟩
      simp only [breakerAlone, hshut, hstate, hhalf, htrial]
      cases c.outcome <;> simp
  · refine ⟨w, _, Solo.update true _ (.running c.now.epochSeconds state w.store) hstart ?_, hnow,
      .inr ⟨state, w.store, rfl, ?_⟩⟩
    · simp [breakerCallStep, hshut, hstate, hhalf]
    · have hsame : state = w.store.value := by
        split at hstate
        · subst hstate
          exact absurd rfl hhalf
        · exact hstate.symm
      simp only [breakerAlone, hshut, hstate, hhalf]
      subst hsame
      cases c.outcome <;> simp

/-- A call that nothing interrupts does what `breakerAlone` says. -/
theorem breakerAlone_solo {s : BreakerSystem} {i : Nat} (hi : s.locals i = .idle)
    (hnow : s.shared.clock = c.now) (hc : c.now ≤ c.ends) :
    ∃ w, Solo cfg i s ⟨w, Function.update s.locals i
        (.call c.timeout (.done (breakerAlone cfg name s.shared.store.value c).callEnd))⟩ ∧
      w.store.value = (breakerAlone cfg name s.shared.store.value c).stored ∧
      (w.clock = c.now ∨ w.clock = c.ends) := by
  obtain ⟨w, ph, hsolo, hclock, ⟨rfl, hout⟩ | ⟨state, visto, rfl, hout⟩⟩ :=
    solo_gate cfg name hi hnow
  · rw [hout]
    exact ⟨w, hsolo, rfl, .inl hclock⟩
  have htick : Solo cfg i s ⟨{ w with clock := c.ends }, Function.update s.locals i
      (.call c.timeout (.running c.now.epochSeconds state visto))⟩ := by
    refine hsolo.tick (d := (c.ends - c.now).toNat) ?_
    have hd := Int.toNat_of_nonneg (Int.sub_nonneg.2 hc)
    simp only [breakerStep, Program.step, breakerProgram, breakerEnvStep, Option.map_some, hclock,
      hd, Option.some.injEq, Sys.mk.injEq, and_true, BreakerWorld.mk.injEq, true_and]
    rw [Int.add_comm, Int.sub_add_cancel]
  rw [hout]
  cases hx : c.outcome with
  | error e =>
    have hrec := htick.update false { w with clock := c.ends }
      (.recording c.now.epochSeconds state (recordFailure cfg state c.ends.epochSeconds) visto
        .raised)
      (by simp [breakerCallStep])
    exact ⟨_, hrec.update true _ _ rfl, rfl, .inr rfl⟩
  | ok a =>
    by_cases hsave : state.status ≠ .closed ∨ state.failures ≠ 0
    · have hrec := htick.update true { w with clock := c.ends }
        (.recording c.now.epochSeconds state {} visto .returned)
        (by simp only [breakerCallStep, if_pos hsave]; rfl)
      exact ⟨_, hrec.update true _ _ rfl, (if_pos hsave).symm, .inr rfl⟩
    · refine ⟨{ w with clock := c.ends }, htick.update true _ _ ?_, (if_neg hsave).symm, .inr rfl⟩
      simp only [breakerCallStep, if_neg hsave]
      rfl

end Aeropass
