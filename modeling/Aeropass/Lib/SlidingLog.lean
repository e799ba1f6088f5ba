import Mathlib.Algebra.Order.Monoid.Defs
import Mathlib.Data.List.Induction
import Mathlib.Tactic.Common

/-!
# Sliding windows kept as a log

A limiter that lets at most `limit` events through in any time of length `W` keeps the instants of
the events it let through, oldest first. When an event comes it drops from the front the instants
that are `W` old or older (`prune`), and lets the event through while fewer than `limit` remain
(`accept`). For events that come in order, what is left of the log is exactly the part of the whole
history that is younger than `W` (`live_after`); the bound on any window (`length_filter_admitted`)
and the meaning of a refusal follow from that.
-/

namespace SlidingLog

variable {τ : Type*} [Add τ] [LinearOrder τ]

/-- The log without the entries at its front that are `W` old. -/
def prune (W now : τ) (log : List τ) : List τ := log.dropWhile fun h => decide (h + W ≤ now)

/-- The answer to one more event, and the log after it. -/
def accept (W : τ) (limit : ℕ) (now : τ) (log : List τ) : Bool × List τ :=
  if limit ≤ (prune W now log).length then (false, prune W now log)
  else (true, prune W now log ++ [now])

/-- The entries younger than `W`. -/
def live (W now : τ) (log : List τ) : List τ := log.filter fun h => decide (now < h + W)

/-- The log after events, from a log. -/
def after (W : τ) (limit : ℕ) (log : List τ) : List τ → List τ
  | [] => log
  | now :: nows => after W limit (accept W limit now log).2 nows

/-- The events that were let through, from a log. -/
def admitted (W : τ) (limit : ℕ) (log : List τ) : List τ → List τ
  | [] => []
  | now :: nows =>
    if (accept W limit now log).1 then now :: admitted W limit (accept W limit now log).2 nows
    else admitted W limit (accept W limit now log).2 nows

variable {W now now' : τ} {limit : ℕ} {log nows : List τ}

theorem after_append (log : List τ) (nows more : List τ) :
    after W limit log (nows ++ more) = after W limit (after W limit log nows) more := by
  induction nows generalizing log with
  | nil => rfl
  | cons now nows ih => exact ih _

/-- What is admitted of two lists one after the other. -/
theorem admitted_append (log : List τ) (nows more : List τ) :
    admitted W limit log (nows ++ more) =
      admitted W limit log nows ++ admitted W limit (after W limit log nows) more := by
  induction nows generalizing log with
  | nil => rfl
  | cons now nows ih =>
    simp only [List.cons_append, admitted, after, ih]
    split <;> rfl

/-- Only events are let through. -/
theorem admitted_sublist (log : List τ) (nows : List τ) :
    (admitted W limit log nows).Sublist nows := by
  induction nows generalizing log with
  | nil => exact List.Sublist.refl _
  | cons now nows ih =>
    rw [admitted]
    split
    · exact (ih _).cons_cons now
    · exact (ih _).cons now

/-! ## Pruning -/

/-- Pruning twice is pruning at the later instant. -/
theorem prune_prune (h : now ≤ now') : prune W now' (prune W now log) = prune W now' log := by
  induction log with
  | nil => rfl
  | cons x log ih =>
    by_cases hx : x + W ≤ now
    · have hx' : x + W ≤ now' := hx.trans h
      simpa [prune, hx, hx'] using ih
    · simp [prune, hx]

/-- A log whose head is young is kept. -/
theorem prune_of_head {x : τ} (h : now < x + W) : prune W now (x :: log) = x :: log := by
  simp [prune, not_le.2 h]

/-- A log whose head is old loses it. -/
theorem length_prune_of_head {x : τ} (h : x + W ≤ now) :
    (prune W now (x :: log)).length ≤ log.length := by
  simp only [prune, List.dropWhile_cons, h, decide_true, if_true]
  exact (List.dropWhile_sublist _).length_le

theorem live_live (h : now ≤ now') : live W now' (live W now log) = live W now' log := by
  rw [live, live, List.filter_filter]
  refine List.filter_congr fun x _ => ?_
  by_cases hx : now' < x + W
  · simp [hx, h.trans_lt hx]
  · simp [hx]

theorem live_append (xs ys : List τ) : live W now (xs ++ ys) = live W now xs ++ live W now ys :=
  List.filter_append ..

/-- The log holds events, in their order. -/
theorem after_sublist (log : List τ) (nows : List τ) :
    (after W limit log nows).Sublist (log ++ nows) := by
  induction nows generalizing log with
  | nil => simp [after]
  | cons now nows ih =>
    have hp : (prune W now log).Sublist log := List.dropWhile_sublist _
    rw [after]
    refine (ih _).trans ?_
    rw [accept]
    split
    · exact hp.append ((List.Sublist.refl nows).cons now)
    · rw [List.append_assoc]
      exact hp.append (List.Sublist.refl _)

/-- The last event and its answer. -/
theorem admitted_snoc (nows : List τ) (now : τ) :
    admitted W limit [] (nows ++ [now]) = admitted W limit [] nows ++
      if limit ≤ (prune W now (after W limit [] nows)).length then [] else [now] := by
  rw [admitted_append, admitted, admitted, accept]
  split <;> simp

theorem after_snoc (nows : List τ) (now : τ) :
    after W limit [] (nows ++ [now]) = prune W now (after W limit [] nows) ++
      if limit ≤ (prune W now (after W limit [] nows)).length then [] else [now] := by
  rw [after_append, after, after, accept]
  split <;> simp

/-! ## Events in order -/

section
variable [AddRightMono τ]

/-- In a sorted log the old entries are those at the front. -/
theorem prune_eq_live (h : log.Pairwise (· ≤ ·)) : prune W now log = live W now log := by
  induction log with
  | nil => rfl
  | cons x log ih =>
    rw [List.pairwise_cons] at h
    by_cases hx : x + W ≤ now
    · have := ih h.2
      simpa [prune, live, hx, not_lt.2 hx] using this
    · have hall : ∀ y ∈ x :: log, now < y + W := by
        intro y hy
        rcases List.mem_cons.1 hy with rfl | hy
        · exact not_le.1 hx
        · exact (not_le.1 hx).trans_le (add_le_add_left (h.1 y hy) W)
      rw [prune_of_head (not_le.1 hx), live, List.filter_eq_self.2 (by simpa using hall)]

omit [AddRightMono τ] in
theorem sorted_after (h : nows.Pairwise (· ≤ ·)) : (after W limit [] nows).Pairwise (· ≤ ·) :=
  h.sublist (by simpa using after_sublist [] nows)

/-- For events in order the log stands for the whole history: what either has younger than `W` is
the same. -/
theorem live_after (h : nows.Pairwise (· ≤ ·)) (hnow : ∀ x ∈ nows, x ≤ now) :
    live W now (after W limit [] nows) = live W now (admitted W limit [] nows) := by
  induction nows using List.reverseRecOn generalizing now with
  | nil => rfl
  | append_singleton nows m ih =>
    rw [List.pairwise_append] at h
    have hm : ∀ x ∈ nows, x ≤ m := fun x hx => h.2.2 x hx m (by simp)
    have hmn : m ≤ now := hnow m (by simp)
    rw [after_snoc, admitted_snoc, live_append, live_append, prune_eq_live (sorted_after h.1),
      ih h.1 hm, live_live hmn]

/-- The log, pruned at an event that comes after the others, is the part of the history that is
younger than `W`. -/
theorem prune_after (h : nows.Pairwise (· ≤ ·)) (hnow : ∀ x ∈ nows, x ≤ now) :
    prune W now (after W limit [] nows) = live W now (admitted W limit [] nows) := by
  rw [prune_eq_live (sorted_after h), live_after h hnow]

/-- Of events that are pairwise closer than `W` at most `limit` are let through. -/
theorem length_filter_admitted {P : τ → Bool} (h : nows.Pairwise (· ≤ ·))
    (hP : ∀ x y, P x → P y → x ≤ y → y < x + W) :
    ((admitted W limit [] nows).filter P).length ≤ limit := by
  induction nows using List.reverseRecOn with
  | nil => simp [admitted]
  | append_singleton nows m ih =>
    rw [List.pairwise_append] at h
    have hm : ∀ x ∈ nows, x ≤ m := fun x hx => h.2.2 x hx m (by simp)
    rw [admitted_snoc, prune_after h.1 hm]
    split
    · simpa using ih h.1
    · next hlt =>
      rw [List.filter_append, List.length_append]
      by_cases hPm : P m
      · -- the earlier events of the window are all younger than `W` at `m`
        have hsub : ((admitted W limit [] nows).filter P).length ≤
            (live W m (admitted W limit [] nows)).length := by
          rw [live, ← List.countP_eq_length_filter, ← List.countP_eq_length_filter]
          refine List.countP_mono_left fun x hx hPx => ?_
          have hxm : x ≤ m := hm x ((admitted_sublist [] nows).subset hx)
          exact decide_eq_true (hP x m hPx hPm hxm)
        simp only [List.filter_cons, hPm, if_true, List.filter_nil, List.length_singleton]
        omega
      · simpa [hPm] using ih h.1

/-- The history has at most `limit` events younger than `W`. -/
theorem length_live_le (h : nows.Pairwise (· ≤ ·)) (hnow : ∀ x ∈ nows, x ≤ now) :
    (live W now (admitted W limit [] nows)).length ≤ limit := by
  have hle : ∀ x ∈ admitted W limit [] nows, x ≤ now := fun x hx =>
    hnow x ((admitted_sublist [] nows).subset hx)
  have heq : live W now (admitted W limit [] nows) =
      (admitted W limit [] nows).filter fun x => decide (now < x + W ∧ x ≤ now) := by
    refine List.filter_congr fun x hx => ?_
    simp [hle x hx]
  rw [heq]
  refine length_filter_admitted h fun x y hx hy _ => ?_
  simp only [decide_eq_true_eq] at hx hy
  exact hy.2.trans_lt hx.1

/-- An event is refused exactly when the history has `limit` events younger than `W`. -/
theorem accept_eq_false_iff (h : nows.Pairwise (· ≤ ·)) (hnow : ∀ x ∈ nows, x ≤ now) :
    (accept W limit now (after W limit [] nows)).1 = false ↔
      (live W now (admitted W limit [] nows)).length = limit := by
  have hle : (live W now (admitted W limit [] nows)).length ≤ limit := length_live_le h hnow
  rw [accept, prune_after h hnow]
  split
  · simp only [true_iff]
    omega
  · simp only [Bool.true_eq_false, false_iff]
    omega

end

/-! ## Waiting -/

/-- While the head of a full log is young nothing is let through. -/
theorem admitted_of_young {x : τ} (hfull : limit ≤ (x :: log).length)
    (h : ∀ m ∈ nows, m < x + W) :
    admitted W limit (x :: log) nows = [] ∧ after W limit (x :: log) nows = x :: log := by
  induction nows with
  | nil => exact ⟨rfl, rfl⟩
  | cons m nows ih =>
    have ha : accept W limit m (x :: log) = (false, x :: log) := by
      rw [accept, prune_of_head (h m (by simp)), if_pos hfull]
    have := ih fun y hy => h y (List.mem_cons_of_mem m hy)
    simpa [admitted, after, ha] using this

/-- Where no event is let through, only pruning happens to the log. -/
theorem prune_after_of_admitted_nil (h : ∀ m ∈ nows, m ≤ now)
    (hnone : admitted W limit log nows = []) :
    prune W now (after W limit log nows) = prune W now log := by
  induction nows generalizing log with
  | nil => rfl
  | cons m nows ih =>
    rw [admitted] at hnone
    split at hnone
    · cases hnone
    · next ha =>
      have hlog : (accept W limit m log).2 = prune W m log := by
        rw [accept] at ha ⊢
        split at ha
        · next hle => rw [if_pos hle]
        · simp at ha
      rw [after, ih (fun y hy => h y (List.mem_cons_of_mem m hy)) hnone, hlog,
        prune_prune (h m (by simp))]

end SlidingLog
