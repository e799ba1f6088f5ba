import Aeropass.Domain.Basic
import Aeropass.Lib.SlidingLog
import Mathlib.Algebra.Order.Group.Int

/-!
# The in-memory rate limiter

`adapters/fakes/rate_limiter.py`: a deque of instants for each key. A sequence of `hit` calls, each
with its key and the clock's instant, runs from empty deques. For one key it is a sliding log
(`SlidingLog`), and the other keys' hits do not enter it (`after_key`, `allowedHits_eq`).
-/

namespace Aeropass

open SlidingLog

structure RateLimitResult where
  allowed : Bool
  retryAfter : Int := 0
  deriving DecidableEq, Repr

/-- `MAX_EMISIONES`. -/
def maxEmisiones : Nat := 30

/-- `VENTANA_SEGUNDOS`. -/
def ventanaSegundos : Int := 60

/-- `math.ceil` of a duration's `total_seconds()`. -/
def ceilSeconds (d : Int) : Int := -(-d / 1000000)

/-- `_hits`, the deque of each key. -/
abbrev FakeRateLimiter := String → List Instant

namespace FakeRateLimiter

/-- The `while` loop of `hit`. -/
def popExpired (now : Instant) : List Instant → List Instant
  | [] => []
  | first :: hits =>
    if seconds ventanaSegundos ≤ now - first then popExpired now hits else first :: hits

/-- `hit`, at the clock's instant. -/
def hit (self : FakeRateLimiter) (key : String) (now : Instant) :
    RateLimitResult × FakeRateLimiter :=
  let hits := popExpired now (self key)
  if maxEmisiones ≤ hits.length then
    -- `hits[0]`: a full deque has a first element
    let wait := seconds ventanaSegundos - (now - hits.headD now)
    ({ allowed := false, retryAfter := max 1 (ceilSeconds wait) },
      Function.update self key hits)
  else ({ allowed := true }, Function.update self key (hits ++ [now]))

/-- `FakeRateLimiter(clock)`. -/
def empty : FakeRateLimiter := fun _ => []

/-- The limiter after hits. -/
def after (self : FakeRateLimiter) : List (String × Instant) → FakeRateLimiter
  | [] => self
  | (key, now) :: hs => after (self.hit key now).2 hs

/-- The answers to hits. -/
def answers (self : FakeRateLimiter) : List (String × Instant) → List RateLimitResult
  | [] => []
  | (key, now) :: hs => (self.hit key now).1 :: answers (self.hit key now).2 hs

/-- The instants of the hits of a key that were allowed. -/
def allowedHits (self : FakeRateLimiter) (key : String) : List (String × Instant) → List Instant
  | [] => []
  | (k, now) :: hs =>
    if k = key ∧ (self.hit k now).1.allowed then now :: allowedHits (self.hit k now).2 key hs
    else allowedHits (self.hit k now).2 key hs

/-- The instants of the hits of a key. -/
def instantsOf (key : String) (hs : List (String × Instant)) : List Instant :=
  (hs.filter (·.1 = key)).map (·.2)

/-- The clock does not go back. -/
def InOrder (hs : List (String × Instant)) : Prop := hs.Pairwise (·.2 ≤ ·.2)

/-- The hits of a key in `[t, t + 60 s)`. -/
def inWindow (t : Instant) (hits : List Instant) : List Instant :=
  hits.filter fun h => t ≤ h ∧ h < t + seconds ventanaSegundos

/-- The hits of a key in `(t - 60 s, t]`. -/
def upTo (t : Instant) (hits : List Instant) : List Instant :=
  hits.filter fun h => t - seconds ventanaSegundos < h ∧ h ≤ t

variable {self : FakeRateLimiter} {key : String} {now : Instant} {hs : List (String × Instant)}

/-! ## One key -/

/-- The loop drops what is out of the window. -/
theorem popExpired_eq (now : Instant) (hits : List Instant) :
    popExpired now hits = prune (seconds ventanaSegundos) now hits := by
  induction hits with
  | nil => rfl
  | cons first hits ih =>
    have hiff : seconds ventanaSegundos ≤ now - first ↔ first + seconds ventanaSegundos ≤ now :=
      ⟨Int.add_le_of_le_sub_left, Int.le_sub_left_of_add_le⟩
    rw [prune] at ih
    rw [popExpired, prune, List.dropWhile_cons]
    by_cases h : first + seconds ventanaSegundos ≤ now
    · simpa [hiff, h] using ih
    · simp [hiff, h]

/-- A hit is admitted by the sliding log of its key. -/
theorem hit_allowed : (self.hit key now).1.allowed =
    (accept (seconds ventanaSegundos) maxEmisiones now (self key)).1 := by
  simp only [hit, accept, popExpired_eq]
  split <;> rfl

theorem hit_self : (self.hit key now).2 key =
    (accept (seconds ventanaSegundos) maxEmisiones now (self key)).2 := by
  simp only [hit, accept, popExpired_eq]
  split <;> simp

/-- A hit touches the deque of its key only. -/
theorem hit_other {k : String} (h : k ≠ key) : (self.hit key now).2 k = self k := by
  simp only [hit]
  split <;> simp [h]

theorem instantsOf_cons_self : instantsOf key ((key, now) :: hs) = now :: instantsOf key hs := by
  simp [instantsOf]

theorem instantsOf_cons_other {k : String} (h : k ≠ key) :
    instantsOf key ((k, now) :: hs) = instantsOf key hs := by
  simp [instantsOf, h]

/-- The deque of a key is the sliding log of its own hits. -/
theorem after_key (self : FakeRateLimiter) (key : String) (hs : List (String × Instant)) :
    self.after hs key =
      SlidingLog.after (seconds ventanaSegundos) maxEmisiones (self key) (instantsOf key hs) := by
  induction hs generalizing self with
  | nil => rfl
  | cons h hs ih =>
    obtain ⟨k, now⟩ := h
    rw [after, ih]
    by_cases hk : k = key
    · subst hk
      rw [instantsOf_cons_self, SlidingLog.after, hit_self]
    · rw [instantsOf_cons_other hk, hit_other (Ne.symm hk)]

/-- The allowed hits of a key are those its sliding log let through. -/
theorem allowedHits_eq (self : FakeRateLimiter) (key : String) (hs : List (String × Instant)) :
    self.allowedHits key hs =
      admitted (seconds ventanaSegundos) maxEmisiones (self key) (instantsOf key hs) := by
  induction hs generalizing self with
  | nil => rfl
  | cons h hs ih =>
    obtain ⟨k, now⟩ := h
    rw [allowedHits]
    by_cases hk : k = key
    · subst hk
      rw [instantsOf_cons_self, admitted, ih, hit_allowed, hit_self]
      simp
    · simp only [hk, false_and, if_false]
      rw [ih, instantsOf_cons_other hk, hit_other (Ne.symm hk)]

theorem after_append (self : FakeRateLimiter) (hs more : List (String × Instant)) :
    self.after (hs ++ more) = (self.after hs).after more := by
  induction hs generalizing self with
  | nil => rfl
  | cons h hs ih => exact ih _

theorem instantsOf_sorted (h : InOrder hs) : (instantsOf key hs).Pairwise (· ≤ ·) :=
  List.pairwise_map.2 (h.filter _)

theorem instantsOf_le (h : ∀ x ∈ hs, x.2 ≤ now) : ∀ x ∈ instantsOf key hs, x ≤ now := by
  intro x hx
  obtain ⟨y, hy, rfl⟩ := List.mem_map.1 hx
  exact h y (List.mem_filter.1 hy).1

/-! ## Answers -/

/-- The last minute of hits that have come is what is live of them. -/
theorem upTo_eq_live {hits : List Instant} (h : ∀ x ∈ hits, x ≤ now) :
    upTo now hits = live (seconds ventanaSegundos) now hits := by
  refine List.filter_congr fun x hx => ?_
  simp only [decide_eq_decide]
  exact ⟨fun hlt => Int.lt_add_of_sub_right_lt hlt.1,
    fun hlt => ⟨Int.sub_right_lt_of_lt_add hlt, h x hx⟩⟩

/-- Allowed hits are hits. -/
theorem allowedHits_le (hnow : ∀ x ∈ hs, x.2 ≤ now) (key : String) :
    ∀ x ∈ empty.allowedHits key hs, x ≤ now := by
  intro x hx
  rw [allowedHits_eq] at hx
  exact instantsOf_le hnow x ((admitted_sublist _ _).subset hx)

/-- At an instant after the hits the deque of a key, pruned, is the last minute of its history. -/
theorem popExpired_after (h : InOrder hs) (hnow : ∀ x ∈ hs, x.2 ≤ now) (key : String) :
    popExpired now (empty.after hs key) = upTo now (empty.allowedHits key hs) := by
  rw [upTo_eq_live (allowedHits_le hnow key), popExpired_eq, after_key, empty,
    prune_after (instantsOf_sorted h) (instantsOf_le hnow), ← empty, ← allowedHits_eq]

/-- In any half-open minute at most 30 hits of a key are allowed. -/
theorem length_inWindow_le (h : InOrder hs) (key : String) (t : Instant) :
    (inWindow t (empty.allowedHits key hs)).length ≤ maxEmisiones := by
  rw [allowedHits_eq, inWindow]
  refine length_filter_admitted (instantsOf_sorted h) fun x y hx hy _ => ?_
  simp only [decide_eq_true_eq] at hx hy
  exact hy.2.trans_le (Int.add_le_add_right hx.1 _)

theorem length_upTo_le (h : InOrder hs) (key : String) (t : Instant) :
    (upTo t (empty.allowedHits key hs)).length ≤ maxEmisiones := by
  rw [allowedHits_eq, upTo]
  refine length_filter_admitted (instantsOf_sorted h) fun x y hx hy _ => ?_
  simp only [decide_eq_true_eq] at hx hy
  exact hy.2.trans_lt (Int.lt_add_of_sub_right_lt hx.1)

/-- A hit is refused exactly when its last minute is full. -/
theorem hit_refused_iff (h : InOrder hs) (hnow : ∀ x ∈ hs, x.2 ≤ now) :
    ((empty.after hs).hit key now).1.allowed = false ↔
      (upTo now (empty.allowedHits key hs)).length = maxEmisiones := by
  rw [hit_allowed, after_key, empty,
    accept_eq_false_iff (instantsOf_sorted h) (instantsOf_le hnow), ← empty, ← allowedHits_eq,
    upTo_eq_live (allowedHits_le hnow key)]

/-! ## What does not matter -/

/-- The deques of the second limiter are those of the first, some of them pruned at `now`. -/
def Pruned (now : Instant) (self other : FakeRateLimiter) : Prop :=
  ∀ key, other key = self key ∨ other key = popExpired now (self key)

/-- From the pruning on, a hit gets the same answer, and the deques still differ by it only. -/
theorem Pruned.hit {other : FakeRateLimiter} {t : Instant} (h : Pruned now self other)
    (ht : now ≤ t) (key : String) :
    (other.hit key t).1 = (self.hit key t).1 ∧
      Pruned now (self.hit key t).2 (other.hit key t).2 := by
  have hpop : popExpired t (other key) = popExpired t (self key) := by
    rcases h key with hk | hk
    · rw [hk]
    · rw [hk, popExpired_eq, popExpired_eq, popExpired_eq, prune_prune ht]
  simp only [FakeRateLimiter.hit, hpop]
  split
  · refine ⟨rfl, fun k => ?_⟩
    by_cases hk : k = key
    · subst hk; simp
    · simpa [hk] using h k
  · refine ⟨rfl, fun k => ?_⟩
    by_cases hk : k = key
    · subst hk; simp
    · simpa [hk] using h k

/-- A limiter that has dropped what is out of the window answers as before. -/
theorem Pruned.answers {other : FakeRateLimiter} (h : Pruned now self other)
    (hs : List (String × Instant)) (hnow : ∀ x ∈ hs, now ≤ x.2) :
    other.answers hs = self.answers hs := by
  induction hs generalizing self other with
  | nil => rfl
  | cons x hs ih =>
    obtain ⟨k, t⟩ := x
    obtain ⟨hans, hnext⟩ := h.hit (hnow (k, t) (by simp)) k
    rw [FakeRateLimiter.answers, FakeRateLimiter.answers, hans,
      ih hnext fun x hx => hnow x (List.mem_cons_of_mem _ hx)]

/-- A refusal only prunes the deque of its key. -/
theorem hit_of_refused (h : (self.hit key now).1.allowed = false) :
    (self.hit key now).2 = Function.update self key (popExpired now (self key)) := by
  simp only [hit] at h ⊢
  split at h
  · next hle => rw [if_pos hle]
  · cases h

/-- A refused hit changes no later answer. -/
theorem answers_of_refused (h : (self.hit key now).1.allowed = false)
    (hs : List (String × Instant)) (hnow : ∀ x ∈ hs, now ≤ x.2) :
    (self.hit key now).2.answers hs = self.answers hs := by
  refine Pruned.answers (fun k => ?_) hs hnow
  rw [hit_of_refused h]
  by_cases hk : k = key
  · subst hk; simp
  · simp [hk]

/-- The hits of the other keys do not matter. -/
theorem hit_filter (self : FakeRateLimiter) (key : String) (now : Instant)
    (hs : List (String × Instant)) :
    ((self.after hs).hit key now).1 = ((self.after (hs.filter (·.1 = key))).hit key now).1 := by
  have hsame : instantsOf key (hs.filter (·.1 = key)) = instantsOf key hs := by
    simp [instantsOf, List.filter_filter]
  simp only [hit, after_key, hsame]
  split <;> rfl

/-! ## Waiting -/

/-- What a refusal leaves: a full deque whose first hit is still in the window, and a waiting time
that ends with it. -/
theorem refused_deque (h : InOrder hs) (hnow : ∀ x ∈ hs, x.2 ≤ now)
    (href : ((empty.after hs).hit key now).1.allowed = false) :
    ∃ first rest, ((empty.after hs).hit key now).2 key = first :: rest ∧
      (first :: rest).length = maxEmisiones ∧ first ≤ now ∧
      now < first + seconds ventanaSegundos ∧
      ((empty.after hs).hit key now).1.retryAfter =
        max 1 (ceilSeconds (seconds ventanaSegundos - (now - first))) := by
  have hfull := (hit_refused_iff h hnow).1 href
  have hlog := popExpired_after h hnow key
  obtain ⟨first, rest, hcons⟩ : ∃ first rest,
      upTo now (empty.allowedHits key hs) = first :: rest := by
    cases hup : upTo now (empty.allowedHits key hs) with
    | nil => rw [hup] at hfull; cases hfull
    | cons first rest => exact ⟨first, rest, rfl⟩
  have hmem : first ∈ upTo now (empty.allowedHits key hs) := by simp [hcons]
  have hin := (List.mem_filter.1 hmem).2
  simp only [decide_eq_true_eq] at hin
  rw [hcons] at hfull hlog
  refine ⟨first, rest, ?_, hfull, hin.2, Int.lt_add_of_sub_right_lt hin.1, ?_⟩
  · rw [hit_of_refused href, hlog]
    simp
  · simp only [hit, hlog, hfull, le_refl, if_true, List.headD_cons]

/-- The waiting time of a refusal. -/
theorem retryAfter_bounds {first now : Int} (hle : first ≤ now)
    (hlt : now < first + seconds ventanaSegundos) :
    let r := max 1 (ceilSeconds (seconds ventanaSegundos - (now - first)))
    1 ≤ r ∧ r ≤ ventanaSegundos ∧ first + seconds ventanaSegundos ≤ now + seconds r ∧
      ∀ s, s < r → 1 ≤ s → now + seconds s < first + seconds ventanaSegundos := by
  simp only [ceilSeconds, seconds, ventanaSegundos] at *
  refine ⟨?_, ?_, ?_, fun s hs hs1 => ?_⟩ <;> omega

/-- A refusal's `retry_after` is the least number of whole seconds to wait. -/
theorem retryAfter_spec (h : InOrder hs) (hnow : ∀ x ∈ hs, x.2 ≤ now)
    (href : ((empty.after hs).hit key now).1.allowed = false) {r : Int}
    (hr : r = ((empty.after hs).hit key now).1.retryAfter) :
    1 ≤ r ∧ r ≤ ventanaSegundos ∧
    (∀ mid : List (String × Instant), (∀ x ∈ mid, x.2 ≤ now + seconds r) →
      ((empty.after hs).hit key now).2.allowedHits key mid = [] →
      ((empty.after (hs ++ (key, now) :: mid)).hit key (now + seconds r)).1.allowed = true) ∧
    ∀ s, 1 ≤ s → s < r → ∀ mid : List (String × Instant),
      (∀ x ∈ mid, x.2 ≤ now + seconds s) →
      ((empty.after (hs ++ (key, now) :: mid)).hit key (now + seconds s)).1.allowed = false := by
  obtain ⟨first, rest, hlog, hfull, hle, hlt, hwait⟩ := refused_deque h hnow href
  obtain ⟨hone, hsixty, hold, hyoung⟩ := retryAfter_bounds hle hlt
  rw [← hwait, ← hr] at hone hsixty hold
  simp only [← hwait, ← hr] at hyoung
  refine ⟨hone, hsixty, fun mid hmid hnone => ?_, fun s hs1 hs mid hmid => ?_⟩
  · rw [allowedHits_eq, hlog] at hnone
    have hprune := prune_after_of_admitted_nil (instantsOf_le hmid) hnone
    have hlen : (prune (seconds ventanaSegundos) (now + seconds r) (first :: rest)).length ≤
        rest.length := length_prune_of_head hold
    rw [hit_allowed, after_append, after, after_key, hlog, accept, hprune]
    rw [if_neg (by rw [List.length_cons] at hfull; omega)]
  · have hall : ∀ m ∈ instantsOf key mid, m < first + seconds ventanaSegundos := fun m hm =>
      (instantsOf_le hmid m hm).trans_lt (hyoung s hs hs1)
    obtain ⟨-, hsame⟩ := admitted_of_young hfull.ge hall
    rw [hit_allowed, after_append, after, after_key, hlog, hsame, accept,
      prune_of_head (hyoung s hs hs1), if_pos hfull.ge]

/-! ## The limit -/

/-- The in-memory limiter lets 30 hits of a key through in any half-open minute, refuses a hit
exactly when the minute before it is full, forgets what it refused, keeps the keys apart, and tells
a refused caller the least number of whole seconds to wait. -/
theorem fakeRateLimiter_slides (hs : List (String × Instant)) (h : InOrder hs) :
    (∀ key t, (inWindow t (empty.allowedHits key hs)).length ≤ maxEmisiones ∧
      (upTo t (empty.allowedHits key hs)).length ≤ maxEmisiones) ∧
    (∀ key now, ((empty.after hs).hit key now).1 =
      ((empty.after (hs.filter (·.1 = key))).hit key now).1) ∧
    ∀ key now, (∀ x ∈ hs, x.2 ≤ now) →
      (((empty.after hs).hit key now).1.allowed = false ↔
        (upTo now (empty.allowedHits key hs)).length = maxEmisiones) ∧
      (((empty.after hs).hit key now).1.allowed = false →
        (∀ more : List (String × Instant), (∀ x ∈ more, now ≤ x.2) →
          (empty.after (hs ++ [(key, now)])).answers more = (empty.after hs).answers more) ∧
        ∃ r, ((empty.after hs).hit key now).1.retryAfter = r ∧ 1 ≤ r ∧ r ≤ ventanaSegundos ∧
          (∀ mid : List (String × Instant), (∀ x ∈ mid, x.2 ≤ now + seconds r) →
            (empty.after (hs ++ [(key, now)])).allowedHits key mid = [] →
            ((empty.after (hs ++ (key, now) :: mid)).hit key (now + seconds r)).1.allowed = true) ∧
          ∀ s, 1 ≤ s → s < r → ∀ mid : List (String × Instant),
            (∀ x ∈ mid, x.2 ≤ now + seconds s) →
            ((empty.after (hs ++ (key, now) :: mid)).hit key (now + seconds s)).1.allowed =
              false) := by
  refine ⟨fun key t => ⟨length_inWindow_le h key t, length_upTo_le h key t⟩,
    fun key now => hit_filter empty key now hs, fun key now hnow => ⟨hit_refused_iff h hnow,
      fun href => ?_⟩⟩
  have hafter : empty.after (hs ++ [(key, now)]) = ((empty.after hs).hit key now).2 := by
    rw [after_append]
    rfl
  rw [hafter]
  exact ⟨fun more hmore => answers_of_refused href more hmore, _, rfl,
    retryAfter_spec h hnow href rfl⟩

/-- Thirty hits at one instant fill the minute, and the next one is told to wait 60 s. -/
theorem fakeRateLimiter_slides_burst :
    InOrder (List.replicate 30 ("p", 0)) ∧ (∀ x ∈ List.replicate 30 ("p", (0 : Instant)), x.2 ≤ 0) ∧
      ((empty.after (List.replicate 30 ("p", 0))).hit "p" 0).1 =
        { allowed := false, retryAfter := 60 } ∧
      (upTo 0 (empty.allowedHits "p" (List.replicate 30 ("p", 0)))).length = maxEmisiones := by
  have hord : InOrder (List.replicate 30 ("p", 0)) := by
    simp [InOrder]
  have hle : ∀ x ∈ List.replicate 30 ("p", (0 : Instant)), x.2 ≤ 0 := by
    intro x hx
    simp [List.eq_of_mem_replicate hx]
  have hans : ((empty.after (List.replicate 30 ("p", 0))).hit "p" 0).1 =
      { allowed := false, retryAfter := 60 } := by decide +kernel
  exact ⟨hord, hle, hans,
    ((fakeRateLimiter_slides _ hord).2.2 "p" 0 hle).1.1 (by rw [hans])⟩

end FakeRateLimiter

end Aeropass
