import Aeropass.Breaker.Sequential

/-!
# Bursts of failures

A burst is a stretch of consecutive calls that are let through and fail, as many as the threshold,
the last at most `window_seconds` after the first. The counter keeps one window start, and a failure
that comes more than `window_seconds` after it starts again from one. So a burst opens the circuit
exactly when none of its failures after the first one comes too late for the window that an earlier
failure started (`burst_opens_iff`).
-/

namespace Aeropass

open Binary64 Runs Threads Window

variable {ε α : Type*} {cfg : BreakerSettings} {name : String} {st : BreakerState}
  {xs ys : List (BreakerEntry ε α)} {x y e : BreakerEntry ε α} {c : Invocation ε α}

/-- The calls that were let through. -/
def letThrough (xs : List (BreakerEntry ε α)) : List (BreakerEntry ε α) :=
  xs.filter (!·.rejected)

/-- A burst of failures that ends with the call `e`. -/
structure Burst (cfg : BreakerSettings) (stretch : List (BreakerEntry ε α))
    (e : BreakerEntry ε α) : Prop where
  through : e.rejected = false
  fails : ∀ x ∈ letThrough (stretch ++ [e]), x.fails
  length : (letThrough (stretch ++ [e])).length = cfg.failureThreshold
  within : ∀ x ∈ (letThrough (stretch ++ [e])).head?,
    (e.call.ends : ℚ) ≤ x.call.ends + cfg.windowSeconds * 1000000

/-- Every burst in the sequence leaves the circuit open. -/
def BurstsOpen (cfg : BreakerSettings) (name : String) (calls : List (Invocation ε α)) : Prop :=
  ∀ past stretch e post, breakerLog cfg name {} calls = past ++ (stretch ++ e :: post) →
    Burst cfg stretch e → e.out.stored.status = .opened

/-- The call finds the circuit closed, and ends more than `window_seconds` after the start of its
window. -/
def BreakerEntry.TooLate (cfg : BreakerSettings) (x : BreakerEntry ε α) : Prop :=
  x.before.status = .closed ∧
    cfg.windowSeconds < sub x.call.ends.epochSeconds x.before.windowStart

/-! ## A call -/

/-- What a call makes of a state that is not half open: it is rejected, succeeds, fails as the
trial, or fails in the closed circuit. -/
inductive AloneEffect (cfg : BreakerSettings) (c : Invocation ε α) (st : BreakerState) :
    Bool → Bool → BreakerState → Prop
  | rejected : st.status = .opened → AloneEffect cfg c st true false st
  | success {st'} : st'.status = .closed → AloneEffect cfg c st false false st'
  | trial : st.status = .opened → AloneEffect cfg c st false true
      { status := .opened, openUntil := add c.ends.epochSeconds cfg.openSeconds }
  | failure : st.status = .closed →
    AloneEffect cfg c st false true (recordFailure cfg st c.ends.epochSeconds)

/-- What a call does outside of `HALF_OPEN`, by whether it is rejected and fails. -/
theorem breakerAlone_effect (cfg : BreakerSettings) (name : String) (c : Invocation ε α)
    (h : st.status ≠ .halfOpen) :
    AloneEffect cfg c st (breakerEntry cfg name st c).rejected (breakerEntry cfg name st c).fails
      (breakerEntry cfg name st c).out.stored := by
  cases hs : st.status with
  | halfOpen => exact absurd hs h
  | closed =>
    have hout : breakerAlone cfg name st c = _ := breakerAlone_closed hs
    cases hx : c.outcome with
    | error e =>
      simp only [hx] at hout
      simp only [BreakerEntry.rejected, BreakerEntry.fails, breakerEntry, hout, hx]
      exact .failure hs
    | ok a =>
      simp only [hx] at hout
      simp only [BreakerEntry.rejected, BreakerEntry.fails, breakerEntry, hout, hx]
      refine .success ?_
      split
      · rfl
      · exact hs
  | opened =>
    by_cases hrej : c.now.epochSeconds < st.openUntil ∨ c.now.epochSeconds < 0
    · have hout : breakerAlone cfg name st c = ⟨st, .error (.circuitOpen name), 0, []⟩ := by
        rcases hrej with hrej | hrej <;> simp [breakerAlone, hs, hrej]
      simp only [BreakerEntry.rejected, BreakerEntry.fails, breakerEntry, hout]
      exact .rejected hs
    · rw [not_or, not_lt, not_lt] at hrej
      have hout : breakerAlone cfg name st c = _ := breakerAlone_trial hs hrej.1 hrej.2
      cases hx : c.outcome with
      | error e =>
        simp only [hx] at hout
        simp only [BreakerEntry.rejected, BreakerEntry.fails, breakerEntry, hout, hx]
        exact .trial hs
      | ok a =>
        simp only [hx] at hout
        simp only [BreakerEntry.rejected, BreakerEntry.fails, breakerEntry, hout, hx]
        exact .success rfl

/-- A call that is over leaves no trial in the store. -/
theorem stored_not_halfOpen (h : st.status ≠ .halfOpen) :
    (breakerEntry cfg name st c).out.stored.status ≠ .halfOpen := by
  have heff := breakerAlone_effect cfg name c h
  generalize (breakerEntry cfg name st c).out.stored = st' at heff
  generalize (breakerEntry cfg name st c).rejected = rej at heff
  generalize (breakerEntry cfg name st c).fails = fails at heff
  cases heff with
  | rejected => exact h
  | success hs => rw [hs]; nofun
  | trial => nofun
  | failure hs => exact (recordFailure_spec (by simp [hs])).1

/-- A rejected call leaves the state. -/
theorem stored_of_rejected (h : st.status ≠ .halfOpen)
    (hrej : (breakerEntry cfg name st c).rejected = true) :
    (breakerEntry cfg name st c).out.stored = st := by
  have heff := breakerAlone_effect cfg name c h
  rw [hrej] at heff
  generalize (breakerEntry cfg name st c).out.stored = st' at heff
  generalize (breakerEntry cfg name st c).fails = fails at heff
  cases heff
  rfl

/-- A failing call that finds the circuit open leaves it open. -/
theorem opened_of_fails (hx : x = breakerEntry cfg name st x.call) (h : st.status = .opened)
    (hf : x.fails = true) : x.out.stored.status = .opened := by
  have heff := breakerAlone_effect cfg name x.call
    (show st.status ≠ .halfOpen by rw [h]; nofun)
  rw [← hx, hf] at heff
  generalize x.out.stored = st' at heff
  generalize x.rejected = rej at heff
  cases heff with
  | trial => rfl
  | failure hs => cases h.symm.trans hs

/-- A failing call that finds the circuit closed records its failure. -/
theorem recorded_of_fails (hx : x = breakerEntry cfg name st x.call) (h : st.status = .closed)
    (hf : x.fails = true) : x.out.stored = recordFailure cfg st x.call.ends.epochSeconds := by
  have heff := breakerAlone_effect cfg name x.call
    (show st.status ≠ .halfOpen by rw [h]; nofun)
  rw [← hx, hf] at heff
  generalize x.out.stored = st' at heff
  generalize x.rejected = rej at heff
  cases heff with
  | trial hs => cases h.symm.trans hs
  | failure => rfl

/-! ## Entries that follow each other -/

/-- Each entry is the call on the state that the one before it left. -/
def Linked (cfg : BreakerSettings) (name : String) (st : BreakerState) :
    List (BreakerEntry ε α) → Prop
  | [] => True
  | x :: xs => x = breakerEntry cfg name st x.call ∧ Linked cfg name x.out.stored xs

/-- The state that entries leave. -/
def storedAfter (st : BreakerState) : List (BreakerEntry ε α) → BreakerState
  | [] => st
  | x :: xs => storedAfter x.out.stored xs

theorem storedAfter_append : storedAfter st (xs ++ ys) = storedAfter (storedAfter st xs) ys := by
  induction xs generalizing st with
  | nil => rfl
  | cons x xs ih => exact ih

theorem linked_breakerLog (cfg : BreakerSettings) (name : String) (st : BreakerState)
    (cs : List (Invocation ε α)) : Linked cfg name st (breakerLog cfg name st cs) := by
  induction cs generalizing st with
  | nil => trivial
  | cons c cs ih => exact ⟨rfl, ih _⟩

theorem linked_append :
    Linked cfg name st (xs ++ ys) ↔
      Linked cfg name st xs ∧ Linked cfg name (storedAfter st xs) ys := by
  induction xs generalizing st with
  | nil => simp [Linked, storedAfter]
  | cons x xs ih => simp only [List.cons_append, Linked, storedAfter, ih, and_assoc]

/-- Calls that do not start in `HALF_OPEN` do not end in it. -/
theorem Linked.not_halfOpen (h : Linked cfg name st xs) (hst : st.status ≠ .halfOpen) :
    (storedAfter st xs).status ≠ .halfOpen := by
  induction xs generalizing st with
  | nil => exact hst
  | cons x xs ih =>
    refine ih h.2 ?_
    rw [h.1]
    exact stored_not_halfOpen hst

/-- The calls that were let through follow each other too. -/
theorem Linked.filter (h : Linked cfg name st xs) (hst : st.status ≠ .halfOpen) :
    Linked cfg name st (letThrough xs) := by
  induction xs generalizing st with
  | nil => trivial
  | cons x xs ih =>
    obtain ⟨hx, hxs⟩ := h
    have hnot : x.out.stored.status ≠ .halfOpen := by
      rw [hx]
      exact stored_not_halfOpen hst
    cases hrej : x.rejected with
    | true =>
      have hsame : x.out.stored = st := by
        rw [hx] at hrej ⊢
        exact stored_of_rejected hst hrej
      rw [hsame] at hxs
      simpa only [letThrough, List.filter_cons, hrej, Bool.not_true, Bool.false_eq_true, if_false]
        using ih hxs hst
    | false =>
      simp only [letThrough, List.filter_cons, hrej, Bool.not_false, if_true]
      exact ⟨hx, ih hxs hnot⟩

/-! ## Failures in a row -/

/-- Failures leave an open circuit open. -/
theorem Linked.opened (h : Linked cfg name st xs) (hf : ∀ x ∈ xs, x.fails)
    (hs : st.status = .opened) : (storedAfter st xs).status = .opened := by
  induction xs generalizing st with
  | nil => exact hs
  | cons x xs ih =>
    obtain ⟨hfx, hf⟩ := List.forall_mem_cons.1 hf
    exact ih h.2 hf (opened_of_fails h.1 hs hfx)

/-- Failures none of which comes too late are all counted, until they open the circuit. -/
theorem Linked.counted (h : Linked cfg name st xs) (hf : ∀ x ∈ xs, x.fails)
    (hs : st.status = .closed) (hlate : ∀ x ∈ xs, ¬ x.TooLate cfg)
    (hlen : cfg.failureThreshold ≤ st.failures + xs.length) (hne : xs ≠ []) :
    (storedAfter st xs).status = .opened := by
  induction xs generalizing st with
  | nil => exact absurd rfl hne
  | cons x xs ih =>
    obtain ⟨hx, hxs⟩ := h
    obtain ⟨hfx, hf⟩ := List.forall_mem_cons.1 hf
    obtain ⟨hlx, hlate⟩ := List.forall_mem_cons.1 hlate
    have hbefore : x.before = st := congrArg (·.before) hx
    have hrec := recorded_of_fails hx hs hfx
    have hin : ¬ cfg.windowSeconds < sub x.call.ends.epochSeconds st.windowStart := by
      intro hw
      rw [BreakerEntry.TooLate, hbefore] at hlx
      exact hlx ⟨hs, hw⟩
    rw [recordFailure_inTime hs hin] at hrec
    rw [storedAfter]
    split at hrec
    · exact hxs.opened hf (by rw [hrec])
    · next hthr =>
      rw [List.length_cons] at hlen
      refine ih hxs hf (by rw [hrec]; exact hs) hlate (by rw [hrec]; dsimp only; omega) ?_
      rintro rfl
      rw [List.length_nil] at hlen
      omega

/-- Too few failures do not open a closed circuit. -/
theorem Linked.too_few (h : Linked cfg name st xs) (hf : ∀ x ∈ xs, x.fails)
    (hs : st.status = .closed) (hlen : st.failures + xs.length < cfg.failureThreshold) :
    (storedAfter st xs).status = .closed := by
  induction xs generalizing st with
  | nil => exact hs
  | cons x xs ih =>
    obtain ⟨hx, hxs⟩ := h
    obtain ⟨hfx, hf⟩ := List.forall_mem_cons.1 hf
    rw [List.length_cons] at hlen
    have hrec := recorded_of_fails hx hs hfx
    rw [storedAfter]
    by_cases hlate : cfg.windowSeconds < sub x.call.ends.epochSeconds st.windowStart
    · -- a new window counts this failure only
      rw [recordFailure_late hs hlate, if_neg (by omega)] at hrec
      exact ih hxs hf (by rw [hrec]) (by rw [hrec]; dsimp only; omega)
    · rw [recordFailure_inTime hs hlate, if_neg (by omega)] at hrec
      exact ih hxs hf (by rw [hrec]; exact hs) (by rw [hrec]; dsimp only; omega)

/-- Failures in a row, as many as the threshold, open the circuit exactly when none of the later
ones comes too late. -/
theorem Linked.opens_iff (h : Linked cfg name st (x :: xs)) (hst : st.status ≠ .halfOpen)
    (hf : ∀ y ∈ x :: xs, y.fails) (hlen : (x :: xs).length = cfg.failureThreshold) :
    (storedAfter st (x :: xs)).status = .opened ↔ ∀ y ∈ xs, ¬ y.TooLate cfg := by
  obtain ⟨hx, hxs⟩ := h
  obtain ⟨hfx, hf⟩ := List.forall_mem_cons.1 hf
  rw [List.length_cons] at hlen
  rw [storedAfter]
  constructor
  · -- after a failure that comes too late only the ones that follow it count, which are too few
    intro ho y hy hlate
    obtain ⟨pre, post, rfl⟩ := List.append_of_mem hy
    obtain ⟨-, hy', hpost⟩ := linked_append.1 hxs
    have hbefore : y.before = storedAfter x.out.stored pre := congrArg (·.before) hy'
    rw [BreakerEntry.TooLate, hbefore] at hlate
    have hrec := recorded_of_fails hy' hlate.1 (hf y hy)
    rw [List.length_append, List.length_cons] at hlen
    rw [recordFailure_late hlate.1 hlate.2, if_neg (by omega)] at hrec
    have hclosed : (storedAfter y.out.stored post).status = .closed := by
      rw [hrec] at hpost ⊢
      exact hpost.too_few (fun z hz => hf z (by simp [hz])) rfl (by dsimp only; omega)
    rw [storedAfter_append, storedAfter, hclosed] at ho
    cases ho
  · intro hlate
    cases hs : st.status with
    | halfOpen => exact absurd hs hst
    | opened => exact hxs.opened hf (opened_of_fails hx hs hfx)
    | closed =>
      -- the first failure opens the circuit, or leaves it closed with at least one failure
      have hrec := recorded_of_fails hx hs hfx
      obtain ⟨hnot, hcount⟩ := @recordFailure_spec cfg st x.call.ends.epochSeconds (by simp [hs])
      rw [← hrec] at hnot hcount
      cases ho : x.out.stored.status with
      | halfOpen => exact absurd ho hnot
      | opened => exact hxs.opened hf ho
      | closed =>
        obtain ⟨hthr, hone⟩ := hcount ho
        refine hxs.counted hf ho hlate (by omega) ?_
        rintro rfl
        rw [List.length_nil] at hlen
        omega

/-- After a failure that did not open the circuit there are failures that count. -/
theorem failuresSince_ne_nil {pre : List (BreakerEntry ε α)}
    (hprev : ∃ y ∈ (letThrough pre).getLast?, y.fails) (htrial : trialDue pre = false) :
    failuresSince cfg pre ≠ [] := by
  induction pre using List.reverseRecOn with
  | nil => simp [letThrough] at hprev
  | append_singleton pre y ih =>
    rw [trialDue_snoc] at htrial
    rw [failuresSince_snoc]
    rw [letThrough, List.filter_append] at hprev
    cases hrej : y.rejected with
    | true =>
      simp only [hrej, if_true] at htrial ⊢
      refine ih ?_ htrial
      simpa [letThrough, hrej] using hprev
    | false =>
      have hfails : y.fails = true := by simpa [hrej] using hprev
      simp only [hrej, Bool.false_eq_true, if_false] at htrial ⊢
      simp [hfails, htrial, push_ne_nil]

/-- **Bursts of failures.** In every sequence of calls a burst leaves the circuit open exactly when
none of its failures after the first one finds the circuit closed with its window over. -/
theorem burst_opens_iff (cfg : BreakerSettings) (name : String) {calls : List (Invocation ε α)}
    {past stretch post : List (BreakerEntry ε α)} {e : BreakerEntry ε α}
    (h : breakerLog cfg name {} calls = past ++ (stretch ++ e :: post))
    (hb : Burst cfg stretch e) :
    e.out.stored.status = .opened ↔
      ∀ x ∈ (letThrough (stretch ++ [e])).tail, ¬ x.TooLate cfg := by
  have hlinked := linked_breakerLog cfg name {} calls
  rw [h, ← List.singleton_append, ← List.append_assoc stretch] at hlinked
  obtain ⟨hpast, hrest⟩ := linked_append.1 hlinked
  have hst := hpast.not_halfOpen (by decide)
  have hrest := (linked_append.1 hrest).1.filter hst
  have hlast : letThrough (stretch ++ [e]) = letThrough stretch ++ [e] := by
    rw [letThrough, List.filter_append]
    simp [hb.through, letThrough]
  have hstored :
      e.out.stored = storedAfter (storedAfter {} past) (letThrough (stretch ++ [e])) := by
    rw [hlast, storedAfter_append]
    rfl
  rw [hstored]
  have hfails := hb.fails
  have hlen := hb.length
  have hmem : e ∈ letThrough (stretch ++ [e]) := by rw [hlast]; simp
  cases hthrough : letThrough (stretch ++ [e]) with
  | nil => rw [hthrough] at hmem; cases hmem
  | cons x xs =>
    rw [hthrough] at hrest hfails hlen
    exact hrest.opens_iff hst hfails hlen

/-- Where the call let through before it failed, a call comes too late exactly when the circuit is
not open and it ends too late after the first of the failures counted so far: the condition on the
times of the failures alone. -/
theorem tooLate_iff_failures {start : Instant} {calls : List (Invocation ε α)}
    (hcalls : OneAfterAnother start calls) (h0 : 0 ≤ start)
    (hW : cfg.windowSeconds < start.epochSeconds) {pre post : List (BreakerEntry ε α)}
    (h : breakerLog cfg name {} calls = pre ++ x :: post)
    (hprev : ∃ y ∈ (letThrough pre).getLast?, y.fails) :
    x.TooLate cfg ↔ trialDue pre = false ∧
      ∃ first ∈ (failuresSince cfg pre).head?, TooLateAfter cfg first x.call.ends := by
  obtain ⟨last, htracks, -⟩ := Tracks.of_log hcalls h0 hW h
  cases htracks with
  | opened t hst htrial =>
    refine iff_of_false (fun hlate => ?_) (by simp [htrial])
    rw [BreakerEntry.TooLate, hst] at hlate
    cases hlate.1
  | counting hst _ htrial =>
    have hne : failuresSince cfg pre ≠ [] := failuresSince_ne_nil hprev htrial
    rw [BreakerEntry.TooLate, hst]
    cases hwin : failuresSince cfg pre with
    | nil => exact absurd hwin hne
    | cons first rest => simp [countingState, htrial, tooLateAfter_iff]

/-- What calls that fail at the given seconds do. -/
def failuresAt (times : List Int) : List (BreakerEntry String Nat) :=
  breakerLog {} "biometric" {} (times.map fun t => ⟨seconds t, 1, .error "boom", seconds t⟩)

/-- A failure, and five more after its window. -/
def lateBurst : List (BreakerEntry String Nat) := failuresAt [1000, 1100, 1110, 1120, 1130, 1140]

/-- A failure, and five more within five seconds, the second of them after the window of the
first. -/
def splitBurst : List (BreakerEntry String Nat) := failuresAt [1000, 1059, 1061, 1062, 1063, 1064]

/-- The five failures of `lateBurst` open the circuit. -/
theorem burst_opens_iff_late : (lateBurst.getLast (by decide)).out.stored.status = .opened ↔
    ∀ x ∈ (letThrough ((lateBurst.drop 1).dropLast ++ [lateBurst.getLast (by decide)])).tail,
      ¬ x.TooLate {} :=
  burst_opens_iff {} "biometric"
    (show lateBurst = lateBurst.take 1 ++
      ((lateBurst.drop 1).dropLast ++ lateBurst.getLast (by decide) :: []) by rfl)
    ⟨by decide +kernel, by decide +kernel, by decide +kernel, by decide +kernel⟩

/-- Those of `splitBurst` do not. -/
theorem bursts_do_not_all_open : ¬ ∀ (calls : List (Invocation String Nat)),
    OneAfterAnother (seconds 1000) calls → BurstsOpen {} "biometric" calls := by
  intro h
  have hopen := h ([1000, 1059, 1061, 1062, 1063, 1064].map fun t =>
      ⟨seconds t, 1, .error "boom", seconds t⟩) (by simp [OneAfterAnother, seconds])
    (splitBurst.take 1) (splitBurst.drop 1).dropLast (splitBurst.getLast (by decide)) [] (by rfl)
    ⟨by decide +kernel, by decide +kernel, by decide +kernel, by decide +kernel⟩
  revert hopen
  decide +kernel

end Aeropass
