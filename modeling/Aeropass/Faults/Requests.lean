import Aeropass.Faults.Context
import Aeropass.Lib.Runs
import Mathlib.Data.Finset.Sort
import Mathlib.Data.String.Basic

/-!
# Faults of concurrent requests

`FaultInjectionMiddleware` around the application. The plan of a request is in the context of its
task, and a task that the application starts there has a copy of the context, with a reference to
the same plan; the fault wrappers `trip` in any of these tasks, in any order. `Within` is what a
step in one request may change.
-/

namespace Aeropass.Faults

open Runs

/-! ## The middleware -/

/-- The headers of a scope or a message. -/
abbrev Headers := List (List UInt8 × List UInt8)

/-- `str.encode()`. -/
def encode (s : String) : List UInt8 := s.toUTF8.data.toList

/-- `bytes.decode("latin-1")`. -/
def decodeLatin1 (bs : List UInt8) : String := String.ofList (bs.map fun b => Char.ofNat b.toNat)

/-- `FAULT_HEADER`. -/
def faultHeader : List UInt8 := encode "x-aeropass-fault"
/-- `KEY_HEADER`. -/
def keyHeader : List UInt8 := encode "x-aeropass-fault-key"
/-- `APPLIED_HEADER`. -/
def appliedHeader : List UInt8 := encode "x-aeropass-fault-applied"

/-- What the server passes of a connection. -/
structure Scope where
  type : String
  headers : Headers
  deriving DecidableEq

/-- `dict(headers).get(name)`. -/
def Scope.header (scope : Scope) (name : List UInt8) : Option (List UInt8) :=
  lastSet (fun h => if h.1 = name then some h.2 else none) scope.headers

/-- The plan that the middleware activates, if any. -/
def planOf (secret : String) (scope : Scope) : Option FaultPlan :=
  if scope.type ≠ "http" then none
  else
    let raw := (scope.header faultHeader).getD []
    if raw = [] then none
    else if secret ≠ "" ∧ (scope.header keyHeader).getD [] ≠ encode secret then none
    else
      let plan := (parse (decodeLatin1 raw)).1
      if plan.faults = ∅ then none else some plan

/-- A message to the client. -/
structure Message where
  type : String
  headers : Option Headers := none
  body : List UInt8 := []
  deriving DecidableEq

/-- The message that `send_with_applied` sends. -/
def reported (applied : Finset String) (message : Message) : Message :=
  if message.type = "http.response.start" ∧ applied ≠ ∅ then
    { message with
      headers := some (message.headers.getD [] ++
        [(appliedHeader, encode (",".intercalate (applied.sort (· ≤ ·))))]) }
  else message

/-! ## The tasks -/

/-- A task: `ctx` is the plan in its context and `wraps` that of its `send_with_applied`, both by
the request the plan was made for. -/
inductive Task where
  | idle
  | slowed (request : Nat)
  | app (request : Nat) (ctx wraps : Option Nat)
  | ended (request : Nat)
  deriving DecidableEq

/-- What happens in a request: what `trip` answers, an audit record, and a message that the
application sends, with what is sent to the client. -/
inductive Seen where
  | asked (name : String) (fires : Bool)
  | injected (name : String)
  | sent (given passed : Message)
  deriving DecidableEq

/-- The requests received, their plans, the tasks, and what happened in which request. -/
structure Server where
  scopes : Nat → Option Scope
  plans : Nat → Option FaultPlan
  tasks : Nat → Task
  log : List (Nat × Seen)

/-- What a task does. -/
inductive TaskAct where
  | receive (scope : Scope)
  | wake
  | trip (name : String)
  | send (message : Message)
  | spawn (task : Nat)
  | finish

/-- A step of a task in a request. -/
structure ServerAct where
  request : Nat
  task : Nat
  act : TaskAct

namespace Server

/-- `trip`, in a task of request `r` with `ctx` in its context. -/
def trip (s : Server) (r : Nat) (ctx : Option Nat) (name : String) : Server × Bool :=
  match ctx with
  | none => ({ s with log := s.log ++ [(r, .asked name false)] }, false)
  | some p =>
    match s.plans p with
    | none => ({ s with log := s.log ++ [(r, .asked name false)] }, false)
    | some plan =>
      if name ∉ plan.faults then ({ s with log := s.log ++ [(r, .asked name false)] }, false)
      else if name ∈ plan.applied then ({ s with log := s.log ++ [(r, .asked name true)] }, true)
      else
        ({ s with
          plans :=
            Function.update s.plans p (some { plan with applied := insert name plan.applied })
          log := s.log ++ [(r, .injected name), (r, .asked name true)] }, true)

/-- What `send` of a task passes on. -/
def passed (s : Server) (wraps : Option Nat) (message : Message) : Message :=
  match wraps.bind s.plans with
  | none => message
  | some plan => reported plan.applied message

/-- Task `i` becomes `task`. -/
def withTask (s : Server) (i : Nat) (task : Task) : Server :=
  { s with tasks := Function.update s.tasks i task }

end Server

/-- One step of the server. -/
def serverStep (secret : String) (s : Server) (a : ServerAct) : Option Server :=
  match a.act, s.tasks a.task with
  | .receive scope, .idle =>
    if (s.scopes a.request).isSome then none
    else
      let s := { s with scopes := Function.update s.scopes a.request (some scope) }
      match planOf secret scope with
      | none => some (s.withTask a.task (.app a.request none none))
      | some plan =>
        -- `activate`, then `trip(SLOW)` before the first await
        let s := { s with plans := Function.update s.plans a.request (some plan) }
        let (s, slows) := s.trip a.request (some a.request) slow
        some (s.withTask a.task (if slows then .slowed a.request
          else .app a.request (some a.request) (some a.request)))
  | .wake, .slowed r =>
    if r = a.request then some (s.withTask a.task (.app r (some r) (some r))) else none
  | .trip name, .app r ctx _ => if r = a.request then some (s.trip r ctx name).1 else none
  | .send message, .app r _ wraps =>
    if r = a.request then
      some { s with log := s.log ++ [(r, .sent message (s.passed wraps message))] }
    else none
  | .spawn j, .app r ctx wraps =>
    -- the new task has a copy of the context
    if r = a.request ∧ s.tasks j = .idle then some (s.withTask j (.app r ctx wraps)) else none
  | .finish, .app r _ _ | .finish, .slowed r =>
    if r = a.request then some (s.withTask a.task (.ended r)) else none
  | _, _ => none

/-- No request was received. -/
def Server.Initial (s : Server) : Prop :=
  (s.scopes = fun _ => none) ∧ (s.plans = fun _ => none) ∧ (s.tasks = fun _ => .idle) ∧ s.log = []

variable {secret : String} {s t : Server} {a : ServerAct} {r : Nat}

/-- What a step of the server is. -/
inductive ServerStep (secret : String) (s : Server) (r i : Nat) : TaskAct → Server → Prop
  | plain {scope} : s.tasks i = .idle → s.scopes r = none → planOf secret scope = none →
    ServerStep secret s r i (.receive scope)
      (({ s with scopes := Function.update s.scopes r (some scope) } : Server).withTask i
        (.app r none none))
  | planned {scope plan u slows} : s.tasks i = .idle → s.scopes r = none →
    planOf secret scope = some plan →
    ({ s with
      scopes := Function.update s.scopes r (some scope)
      plans := Function.update s.plans r (some plan) } : Server).trip r (some r) slow =
        (u, slows) →
    ServerStep secret s r i (.receive scope)
      (u.withTask i (if slows then .slowed r else .app r (some r) (some r)))
  | wake : s.tasks i = .slowed r →
    ServerStep secret s r i .wake (s.withTask i (.app r (some r) (some r)))
  | trip {name ctx wraps} : s.tasks i = .app r ctx wraps →
    ServerStep secret s r i (.trip name) (s.trip r ctx name).1
  | send {message ctx wraps} : s.tasks i = .app r ctx wraps →
    ServerStep secret s r i (.send message)
      { s with log := s.log ++ [(r, .sent message (s.passed wraps message))] }
  | spawn {j ctx wraps} : s.tasks i = .app r ctx wraps → s.tasks j = .idle →
    ServerStep secret s r i (.spawn j) (s.withTask j (.app r ctx wraps))
  | finish {task} : (s.tasks i = task) → (∃ ctx wraps, task = .app r ctx wraps) ∨ task = .slowed r →
    ServerStep secret s r i .finish (s.withTask i (.ended r))

/-- The steps of the server are those of `ServerStep`. -/
theorem serverStep_iff :
    serverStep secret s a = some t ↔ ServerStep secret s a.request a.task a.act t := by
  obtain ⟨r, i, act⟩ := a
  constructor
  · intro h
    unfold serverStep at h
    dsimp only at h ⊢
    split at h
    · next scope hi =>
      split at h
      · cases h
      next hfree =>
      have hfree := Option.not_isSome_iff_eq_none.1 hfree
      split at h
      · next hplan => cases h; exact .plain hi hfree hplan
      · next plan hplan => cases h; exact .planned hi hfree hplan rfl
    · next q hi =>
      split at h
      · next hq => subst hq; cases h; exact .wake hi
      · cases h
    · next name q ctx wraps hi =>
      split at h
      · next hq => subst hq; cases h; exact .trip hi
      · cases h
    · next message q ctx wraps hi =>
      split at h
      · next hq => subst hq; cases h; exact .send hi
      · cases h
    · next j q ctx wraps hi =>
      split at h
      · next hq =>
        obtain ⟨rfl, hj⟩ := hq
        cases h
        exact .spawn hi hj
      · cases h
    · next q ctx wraps hi =>
      split at h
      · next hq => subst hq; cases h; exact .finish hi (.inl ⟨_, _, rfl⟩)
      · cases h
    · next q hi =>
      split at h
      · next hq => subst hq; cases h; exact .finish hi (.inr rfl)
      · cases h
    · cases h
  · intro h
    cases h with
    | plain hi hfree hplan => simp [serverStep, hi, hfree, hplan]
    | planned hi hfree hplan htrip => simp [serverStep, hi, hfree, hplan, htrip]
    | wake hi => simp [serverStep, hi]
    | trip hi => simp [serverStep, hi]
    | send hi => simp [serverStep, hi]
    | spawn hi hj => simp [serverStep, hi, hj]
    | finish hi htask =>
      subst hi
      rcases htask with ⟨ctx, wraps, hi⟩ | hi <;> simp [serverStep, hi]

/-! ## Whose plan a task has -/

/-- The request of a task. -/
def Task.request? : Task → Option Nat
  | .idle => none
  | .slowed r | .app r _ _ | .ended r => some r

/-- A plan that a task of request `r` may have: that of `r`, or none where `r` has none. -/
def Server.Own (s : Server) (r : Nat) (ctx : Option Nat) : Prop :=
  (ctx = none ∧ s.plans r = none) ∨ (ctx = some r ∧ (s.plans r).isSome)

/-- A task of a request that was received, with its own plan. -/
def Task.OK (s : Server) : Task → Prop
  | .idle | .ended _ => True
  | .slowed r => (s.scopes r).isSome ∧ (s.plans r).isSome
  | .app r ctx wraps => (s.scopes r).isSome ∧ s.Own r ctx ∧ wraps = ctx

/-- What a step in request `r` may change. -/
structure Within (r : Nat) (s t : Server) : Prop where
  scopes : ∀ q, (q ≠ r ∨ (s.scopes q).isSome) → t.scopes q = s.scopes q
  plans : ∀ q, q ≠ r → t.plans q = s.plans q
  kept : ∀ q, (s.scopes q).isSome → (t.plans q).isSome = (s.plans q).isSome
  log : ∃ es : List Seen, t.log = s.log ++ es.map (Prod.mk r)

/-- A task keeps its plan. -/
theorem Within.own {q : Nat} {ctx : Option Nat} (h : Within r s t) (hq : (s.scopes q).isSome)
    (ho : s.Own q ctx) : t.Own q ctx := by
  have hk := h.kept q hq
  rcases ho with ⟨hc, hp⟩ | ⟨hc, hp⟩
  · left
    refine ⟨hc, ?_⟩
    rw [hp] at hk
    exact Option.not_isSome_iff_eq_none.1 (by rw [hk]; simp)
  · exact .inr ⟨hc, hk.trans hp⟩

/-- So a task stays well formed under the steps of other requests. -/
theorem Within.taskOK {task : Task} (h : Within r s t) (hs : task.OK s) : task.OK t := by
  cases task with
  | idle | ended => trivial
  | slowed q =>
    obtain ⟨hq, hp⟩ := hs
    exact ⟨by rw [h.scopes q (.inr hq)]; exact hq, (h.kept q hq).trans hp⟩
  | app q ctx wraps =>
    obtain ⟨hq, ho, hw⟩ := hs
    exact ⟨by rw [h.scopes q (.inr hq)]; exact hq, h.own hq ho, hw⟩

/-- What `trip` says and does in a task with its own plan. -/
inductive Tripped (s : Server) (r : Nat) (name : String) : Server → Bool → Prop
  | refused : (∀ plan, s.plans r = some plan → name ∉ plan.faults) →
    Tripped s r name { s with log := s.log ++ [(r, .asked name false)] } false
  | again {plan} : s.plans r = some plan → name ∈ plan.faults → name ∈ plan.applied →
    Tripped s r name { s with log := s.log ++ [(r, .asked name true)] } true
  | first {plan} : s.plans r = some plan → name ∈ plan.faults → name ∉ plan.applied →
    Tripped s r name { s with
      plans := Function.update s.plans r (some { plan with applied := insert name plan.applied })
      log := s.log ++ [(r, .injected name), (r, .asked name true)] } true

/-- The handler of a request has its own plan. -/
theorem Server.own_activated (s : Server) (r : Nat) (plan : FaultPlan) :
    Server.Own { s with plans := Function.update s.plans r (some plan) } r (some r) :=
  .inr ⟨rfl, by simp⟩

/-- What `trip` does in a task that has its own plan. -/
theorem trip_spec {ctx : Option Nat} (ho : s.Own r ctx) (name : String) :
    Tripped s r name (s.trip r ctx name).1 (s.trip r ctx name).2 := by
  unfold Server.trip
  rcases ho with ⟨rfl, hp⟩ | ⟨rfl, hp⟩
  · exact .refused fun plan h => by rw [hp] at h; cases h
  · obtain ⟨plan, hplan⟩ := Option.isSome_iff_exists.1 hp
    simp only [hplan]
    split
    · next hn =>
      refine .refused fun plan' h => ?_
      rw [hplan] at h
      cases h
      exact hn
    · next hn =>
      have hn := not_not.1 hn
      split
      · next ha => exact .again hplan hn ha
      · next ha => exact .first hplan hn ha

/-- `trip` changes its own request only. -/
theorem Tripped.within {name : String} {b : Bool} (h : Tripped s r name t b) : Within r s t := by
  cases h with
  | refused | again =>
    exact ⟨fun _ _ => rfl, fun _ _ => rfl, fun _ _ => rfl, [_], rfl⟩
  | @first plan hplan =>
    refine ⟨fun _ _ => rfl, fun q hq => Function.update_of_ne hq .., fun q _ => ?_, [_, _], rfl⟩
    by_cases hq : q = r
    · subst hq
      simp [hplan]
    · simp [hq]

theorem Tripped.tasks {name : String} {b : Bool} (h : Tripped s r name t b) :
    t.tasks = s.tasks ∧ t.scopes = s.scopes := by
  cases h <;> exact ⟨rfl, rfl⟩

end Aeropass.Faults
