import Aeropass.Fakes.RateLimiter
import Aeropass.System.Schema

/-!
# The backend with its limiter

Where `issue` asks `hit`, the in-memory limiter of the process answers instead of the environment.
With Redis down it fails open, so a hit is recorded with how it was answered. What the limiter was
asked and let through is read off the hits so far (`HitsOK`).
-/

namespace Aeropass

open CredentialTables CredencialAcceso Runs Threads FakeRateLimiter

/-! ## The limited backend -/

/-- `FaultInjectingRateLimiter.hit`: with Redis down it fails open, and its limiter is not asked. -/
def FaultInjectingRateLimiter.hit (inner : FakeRateLimiter) (tripped : Bool) (key : String)
    (now : Instant) : RateLimitResult × FakeRateLimiter :=
  if tripped then ({ allowed := true }, inner) else inner.hit key now

/-- A call of `hit`: the call that made it, for whom, when, whether the fault tripped, and whether
it was let through. -/
structure Hit where
  call : Nat
  pasajeroId : UUID
  instante : Instant
  tripped : Bool
  allowed : Bool
  deriving DecidableEq

/-- It was let through by the limiter, which was asked. -/
def Hit.counted (h : Hit) : Bool := h.allowed && !h.tripped

/-- The backend with its limiter, and the hits so far. -/
structure LimitedWorld where
  backend : BackendWorld
  limiter : FakeRateLimiter
  hits : List Hit

/-- The passenger for whom the next step of a call asks the limiter. -/
def Service.asks? : Service → Option UUID
  | .credentials (.issue _ _ (.found _ pasajero)) => some pasajero.id
  | _ => none

/-- The fault `redis_down` trips at a step. -/
def ServiceAct.trips : ServiceAct → Bool
  | .credentials (.next ch) => ch.fault = .lost
  | _ => false

/-- A step with the limiter's answer. -/
def ServiceAct.answered (r : RateLimitResult) : ServiceAct → ServiceAct
  | .credentials (.next ch) =>
    .credentials (.next { ch with admitted := r.allowed, retryAfter := r.retryAfter })
  | a => a

/-- One step of call `i`. -/
def limitedCall (cfg : BackendSettings) (i : Nat) (w : LimitedWorld) (l : Service)
    (a : ServiceAct) : Option (LimitedWorld × Service) :=
  match l.asks? with
  | some id =>
    let now := w.backend.out.clock
    let r := FaultInjectingRateLimiter.hit w.limiter a.trips id.str now
    (serviceStep cfg i w.backend l (a.answered r.1)).map fun s =>
      (⟨s.1, r.2, w.hits ++ [⟨i, id, now, a.trips, r.1.allowed⟩]⟩, s.2)
  | none =>
    (serviceStep cfg i w.backend l a).map fun s => ({ w with backend := s.1 }, s.2)

/-- Time passes. -/
def limitedEnvStep (w : LimitedWorld) (d : Nat) : Option LimitedWorld :=
  (backendEnvStep w.backend d).map fun backend => { w with backend }

def limitedProgram (cfg : BackendSettings) : Program LimitedWorld Service ServiceAct Nat :=
  ⟨limitedCall cfg, limitedEnvStep⟩

/-- The limited backend and all calls. -/
abbrev LimitedSystem := Sys LimitedWorld Service

/-- The step function of the limited backend. -/
def limitedStep (cfg : BackendSettings) :
    LimitedSystem → Act ServiceAct Nat → Option LimitedSystem :=
  (limitedProgram cfg).step

/-- The backend under the limiter. -/
def LimitedSystem.backend (s : LimitedSystem) : BackendSystem := ⟨s.shared.backend, s.locals⟩

/-- The backend is empty at the instant `t₀`, and the limiter has had no hit. -/
structure LimitedSystem.Initial (t₀ : Instant) (s : LimitedSystem) : Prop where
  backend : s.backend.Initial
  limiter : s.shared.limiter = .empty
  hits : s.shared.hits = []
  clock : s.shared.backend.out.clock = t₀

/-- The hit of the call that drew the id of a credential. -/
def LimitedWorld.hitOf (w : LimitedWorld) (r : CredencialAccesoRow) : Option Hit :=
  (w.backend.issuer r.id).bind fun i => w.hits.find? fun h => h.call = i

/-- The credentials of a passenger. -/
def LimitedWorld.passesOf (w : LimitedWorld) (id : UUID) : List CredencialAccesoRow :=
  w.backend.tables.credenciales.rows.filter fun r => r.pasajeroId = id

variable {cfg : BackendSettings} {s t : LimitedSystem} {t₀ : Instant} {i j : Nat}

/-! ## Steps -/

/-- A step of a call of the limited backend is one of the backend. -/
theorem backendStep_of_service {a : ServiceAct} {r : BackendWorld × Service}
    (h : serviceStep cfg i s.shared.backend (s.locals i) a = some r)
    (hsh : t.shared.backend = r.1) (hi : t.locals i = r.2)
    (hother : ∀ j, j ≠ i → t.locals j = s.locals j) :
    backendStep cfg s.backend (.call i a) = some t.backend := by
  obtain ⟨u, hu, hus, hui, huo⟩ := Program.step_of_call (P := backendProgram cfg)
    (s := s.backend) h
  have hlocals : u.locals = t.locals :=
    funext (Sys.forall_locals (fun j l => l = t.locals j) (by rw [hui, hi]) huo
      fun j hj => (hother j hj).symm)
  rw [backendStep, hu]
  cases u
  cases hlocals
  cases hus.trans hsh.symm
  rfl

/-- A step of the limited backend: a hit, which leaves the backend's tables, or a step that asks
nothing. -/
inductive LimitedStep (cfg : BackendSettings) (s t : LimitedSystem) : Prop
  | hit {i user codigo c p ph tripped r a} :
    s.locals i = .credentials (.issue user codigo (.found c p)) →
    r = FaultInjectingRateLimiter.hit s.shared.limiter tripped p.id.str
      s.shared.backend.out.clock →
    t.shared.limiter = r.2 →
    t.shared.hits =
      s.shared.hits ++ [⟨i, p.id, s.shared.backend.out.clock, tripped, r.1.allowed⟩] →
    t.locals i = .credentials (.issue user codigo ph) →
    (ph = .admitted c p ∧ r.1.allowed = true ∨ ∃ e, ph = .done (.error e)) →
    (∀ j, j ≠ i → t.locals j = s.locals j) → backendStep cfg s.backend a = some t.backend →
    t.shared.backend = s.shared.backend → LimitedStep cfg s t
  | quiet {a} : backendStep cfg s.backend a = some t.backend →
    t.shared.limiter = s.shared.limiter → t.shared.hits = s.shared.hits →
    (∀ i b, a = .call i b → (s.locals i).asks? = none) → LimitedStep cfg s t

/-- The steps of the backend with its limiter. -/
theorem limitedStep_cases {a : Act ServiceAct Nat} (h : limitedStep cfg s a = some t) :
    LimitedStep cfg s t := by
  rcases Program.step_cases h with ⟨i, b, r, rfl, hc, hsh, hi, hother⟩ | ⟨d, rfl, he, hl⟩
  · have hc : limitedCall cfg i s.shared (s.locals i) b = some r := hc
    unfold limitedCall at hc
    split at hc
    · next id hask =>
      obtain ⟨r', hr', rfl⟩ := Option.map_eq_some_iff.1 hc
      have hb := backendStep_of_service hr' (by rw [hsh]) hi hother
      have hlim := congrArg LimitedWorld.limiter hsh
      have hhits := congrArg LimitedWorld.hits hsh
      unfold Service.asks? at hask
      split at hask
      · next user codigo c p hl =>
        cases hask
        rw [hl] at hr'
        cases b with
        | credentials b =>
          cases b with
          | next ch =>
            simp only [ServiceAct.answered, serviceStep, callStep, issueStep] at hr'
            split at hr'
            · next hall =>
              cases hr'
              exact .hit hl rfl hlim hhits hi (.inl ⟨rfl, hall⟩) hother hb (by rw [hsh]; rfl)
            · cases hr'
              exact .hit hl rfl hlim hhits hi (.inr ⟨_, rfl⟩) hother hb (by rw [hsh]; rfl)
          | invoke q => cases hr'
        | registration b => cases hr'
        | verification b => cases hr'
      · cases hask
    · next hask =>
      obtain ⟨r', hr', rfl⟩ := Option.map_eq_some_iff.1 hc
      exact .quiet (backendStep_of_service hr' (by rw [hsh]) hi hother) (by rw [hsh]) (by rw [hsh])
        fun j b' hab => by cases hab; exact hask
  · have he : limitedEnvStep s.shared d = some t.shared := he
    unfold limitedEnvStep at he
    obtain ⟨b, hb, ht⟩ := Option.map_eq_some_iff.1 he
    refine .quiet (a := .env d) ?_ (by rw [← ht]) (by rw [← ht]) fun j b' hab => by cases hab
    have hstep : backendStep cfg s.backend (.env d) = some ⟨b, s.locals⟩ := by
      simp only [backendStep, Program.step, backendProgram, LimitedSystem.backend, hb,
        Option.map_some]
    rw [hstep, LimitedSystem.backend, ← ht, hl]

/-- The limited backend takes steps of the backend. -/
theorem LimitedStep.backendStep (h : LimitedStep cfg s t) :
    ∃ a, Aeropass.backendStep cfg s.backend a = some t.backend := by
  cases h with
  | hit _ _ _ _ _ _ _ hb => exact ⟨_, hb⟩
  | quiet hb => exact ⟨_, hb⟩

/-! ## The history of the limiter -/

/-- What the limiter was asked: the hits that did not fail open. -/
def asked (hits : List Hit) : List (String × Instant) :=
  (hits.filter fun h => !h.tripped).map fun h => (h.pasajeroId.str, h.instante)

/-- The instants at which the limiter let a key through. -/
def countedOf (key : String) (hits : List Hit) : List Instant :=
  (hits.filter fun h => h.pasajeroId.str = key ∧ h.counted).map (·.instante)

/-- The limiter is what its hits have made of it, and answered them. -/
structure HitsOK (limiter : FakeRateLimiter) (hits : List Hit) : Prop where
  limiter : limiter = FakeRateLimiter.empty.after (asked hits)
  counted : ∀ key, countedOf key hits = empty.allowedHits key (asked hits)

variable {limiter : FakeRateLimiter} {hits : List Hit}

/-- The allowed hits of a key after one more hit. -/
theorem allowedHits_snoc (self : FakeRateLimiter) (key k : String) (hs : List (String × Instant))
    (now : Instant) : self.allowedHits key (hs ++ [(k, now)]) = self.allowedHits key hs ++
      if k = key ∧ ((self.after hs).hit k now).1.allowed then [now] else [] := by
  induction hs generalizing self with
  | nil => rfl
  | cons h hs ih =>
    simp only [List.cons_append, allowedHits, after, ih]
    split <;> rfl

/-- One more hit. -/
theorem HitsOK.snoc (h : HitsOK limiter hits) (i : Nat) (id : UUID) (now : Instant)
    (tripped : Bool) {r : RateLimitResult × FakeRateLimiter}
    (hr : r = FaultInjectingRateLimiter.hit limiter tripped id.str now) :
    HitsOK r.2 (hits ++ [⟨i, id, now, tripped, r.1.allowed⟩]) := by
  obtain ⟨hlim, hcount⟩ := h
  rw [hr]
  cases tripped with
  | true =>
    refine ⟨by simpa [asked, FaultInjectingRateLimiter.hit] using hlim, fun key => ?_⟩
    simpa [asked, countedOf, Hit.counted, FaultInjectingRateLimiter.hit] using hcount key
  | false =>
    simp only [FaultInjectingRateLimiter.hit, Bool.false_eq_true, if_false]
    have hasked : asked (hits ++ [⟨i, id, now, false, (limiter.hit id.str now).1.allowed⟩]) =
        asked hits ++ [(id.str, now)] := by simp [asked]
    refine ⟨by rw [hasked, after_append, ← hlim]; rfl, fun key => ?_⟩
    rw [hasked, allowedHits_snoc, ← hcount, ← hlim, countedOf, List.filter_append, List.map_append,
      ← countedOf]
    by_cases hkey : id.str = key ∧ (limiter.hit id.str now).1.allowed = true
    · obtain ⟨rfl, hall⟩ := hkey
      simp [Hit.counted, hall]
    · rw [if_neg hkey]
      simpa [Hit.counted] using hkey

/-- In any half-open minute the limiter lets a key through 30 times at most. -/
theorem HitsOK.length_inWindow (h : HitsOK limiter hits)
    (hord : hits.Pairwise (·.instante ≤ ·.instante)) (key : String) (t : Instant) :
    (inWindow t (countedOf key hits)).length ≤ maxEmisiones := by
  rw [h.counted]
  exact length_inWindow_le (List.pairwise_map.2 (hord.filter _)) key t

/-- What fits in a number of minutes. -/
theorem length_le_of_inWindow {xs : List Instant} (h : ∀ t, (inWindow t xs).length ≤ maxEmisiones)
    (n : Nat) (hlo : ∀ x ∈ xs, t₀ ≤ x)
    (hhi : ∀ x ∈ xs, x < t₀ + n * seconds ventanaSegundos) :
    xs.length ≤ maxEmisiones * n := by
  induction n generalizing xs with
  | zero =>
    cases xs with
    | nil => simp
    | cons x xs =>
      have h1 := hlo x (by simp)
      have h2 := hhi x (by simp)
      simp only [Instant] at *
      omega
  | succ n ih =>
    -- the last of the minutes, and what came before it
    have hsplit := List.length_eq_length_filter_add
      (fun x : Instant => decide (x < t₀ + n * seconds ventanaSegundos)) (l := xs)
    have hbefore : (xs.filter fun x => x < t₀ + n * seconds ventanaSegundos).length ≤
        maxEmisiones * n := by
      refine ih (fun t => Nat.le_trans ?_ (h t)) (fun x hx => hlo x (List.mem_filter.1 hx).1)
        fun x hx => of_decide_eq_true (List.mem_filter.1 hx).2
      exact ((List.filter_sublist).filter _).length_le
    have hlast : (xs.filter fun x => !decide (x < t₀ + n * seconds ventanaSegundos)).length ≤
        maxEmisiones := by
      refine Nat.le_trans (Nat.le_of_eq ?_) (h (t₀ + n * seconds ventanaSegundos))
      rw [inWindow]
      refine congrArg List.length (List.filter_congr fun x hx => ?_)
      have hlt := hhi x hx
      rw [← decide_not, decide_eq_decide]
      simp only [Instant, seconds, ventanaSegundos] at *
      push_cast at hlt
      omega
    rw [Nat.mul_succ]
    omega

end Aeropass
