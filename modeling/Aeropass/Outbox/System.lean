import Aeropass.Outbox.Store
import Aeropass.Lib.Threads

/-!
# The outbox dispatcher

`OutboxDispatcher` as calls that interleave: `_dispatch` reads its clock, claims a batch in one
transaction and then publishes and saves one entry after the other, each save a transaction of its
own. The publisher may accept a message and still fail its caller (a timeout), and a call may die
at any step. `publish_now` and `dispatch_due` are `_dispatch` with their arguments.
-/

namespace Aeropass

/-- `LEASE_SECONDS`. -/
def leaseSeconds : Int := 30

/-- A message that the publisher accepted: the arguments of `publish`. -/
structure Publication where
  eventId : String
  tipo : String
  payload : Json.Dict
  deriving DecidableEq

/-- What `_publish` hands to the publisher. -/
def DomainEvent.publication (e : DomainEvent) : Publication := ⟨e.id.str, e.tipo, e.toPayload⟩

/-- What the dispatchers share: the table, the clock and the messages accepted so far. -/
structure OutboxWorld where
  outbox : OutboxTable
  clock : Instant
  accepted : List Publication

/-- What the source leaves open in a step: whether the call dies there (an exception other than
`PublishFailed`, a failed commit, the end of the process), the rows other transactions hold, whether
the publisher accepts the message, and the `PublishFailed` it raises. -/
structure DispatchChoice where
  dies : Bool := false
  skip : List UUID := []
  accepts : Bool := true
  raises : Option String := none

/-- Where `_dispatch` is; `now` is the instant it read, and `entregados` its counter. -/
inductive DispatchPhase where
  | start
  | claiming (now : Instant)
  | publishing (now : Instant) (claimed : List OutboxEntry) (entregados : Nat)
  | answered (now : Instant) (entry : OutboxEntry) (rest : List OutboxEntry) (entregados : Nat)
      (accepted : Bool)
  | saving (now : Instant) (outcome : OutboxEntry) (rest : List OutboxEntry) (entregados : Nat)
  | finished (entregados : Nat)
  | failed
  deriving DecidableEq

/-- One step of `_dispatch(limit, ids)`. -/
def dispatchStep (w : OutboxWorld) (limit : Nat) (ids : Option (List UUID)) (ch : DispatchChoice) :
    DispatchPhase → Option (OutboxWorld × DispatchPhase)
  | .start => some (w, .claiming w.clock)
  | .claiming now =>
    if ch.dies then some (w, .failed)
    else
      let claimed := w.outbox.due now limit ids ch.skip
      let outbox := w.outbox.lease claimed (now + seconds leaseSeconds)
      some ({ w with outbox }, .publishing now claimed 0)
  | .publishing _ [] entregados => some (w, .finished entregados)
  | .publishing now (entry :: rest) entregados =>
    if ch.dies then some (w, .failed)
    else
      let accepted := if ch.accepts then w.accepted ++ [entry.event.publication] else w.accepted
      some ({ w with accepted }, .answered now entry rest entregados ch.accepts)
  | .answered now entry rest entregados accepted =>
    if ch.dies then some (w, .failed)
    else if accepted && ch.raises.isNone then
      some (w, .saving now (entry.entregado w.clock) rest entregados)
    else some (w, .saving now (entry.fallido (ch.raises.getD "") w.clock) rest entregados)
  | .saving now outcome rest entregados =>
    -- `save` asserts that there is a row
    if ch.dies || (w.outbox.find? outcome.id).isNone then some (w, .failed)
    else
      let entregados := if outcome.entregadoAt.isSome then entregados + 1 else entregados
      some ({ w with outbox := w.outbox.save outcome }, .publishing now rest entregados)
  | .finished _ | .failed => none

/-- `DispatchReport`. -/
structure DispatchReport where
  entregados : Nat
  pendientes : Nat
  deriving DecidableEq, Repr

/-- A call of the dispatcher. -/
inductive Dispatcher where
  | idle
  | publishNow (eventIds : List UUID) (ph : DispatchPhase)
  | dispatchDue (limit : Nat) (ph : DispatchPhase)
  | reported (r : DispatchReport)
  deriving DecidableEq

/-- What moves a call of the dispatcher. -/
inductive DispatchAct where
  | publishNow (eventIds : List UUID)
  | dispatchDue (limit : Nat)
  | next (ch : DispatchChoice)

/-- Where the `_dispatch` of a call is. -/
def Dispatcher.phase : Dispatcher → DispatchPhase
  | .idle => .start
  | .publishNow _ ph | .dispatchDue _ ph => ph
  | .reported r => .finished r.entregados

/-- One step of a call of the dispatcher. -/
def dispatcherStep (w : OutboxWorld) : Dispatcher → DispatchAct → Option (OutboxWorld × Dispatcher)
  | .idle, .publishNow eventIds =>
    some (w, .publishNow eventIds (if eventIds.isEmpty then .finished 0 else .start))
  | .idle, .dispatchDue limit => some (w, .dispatchDue limit .start)
  | .publishNow eventIds ph, .next ch =>
    (dispatchStep w eventIds.length (some eventIds) ch ph).map fun r =>
      (r.1, .publishNow eventIds r.2)
  | .dispatchDue limit ph, .next ch =>
    match ph with
    | .finished entregados => some (w, .reported ⟨entregados, w.outbox.countPending⟩)
    | ph => (dispatchStep w limit none ch ph).map fun r => (r.1, .dispatchDue limit r.2)
  | _, _ => none

/-- What happens besides: time passes, and a producer commits the entry of a new event that it
dated by its clock. -/
inductive OutboxEnv where
  | tick (d : Nat)
  | add (event : DomainEvent)

/-- One step of the environment. -/
def outboxEnvStep (w : OutboxWorld) : OutboxEnv → Option OutboxWorld
  | .tick d => some { w with clock := w.clock + d }
  | .add event =>
    if event.ocurridoAt ≤ w.clock then
      (w.outbox.insert? (.pendiente event)).map fun outbox => { w with outbox }
    else none

/-- The dispatchers of one outbox. -/
def outboxProgram : Threads.Program OutboxWorld Dispatcher DispatchAct OutboxEnv :=
  ⟨fun _ => dispatcherStep, outboxEnvStep⟩

/-- A shared state and all dispatchers. -/
abbrev OutboxSystem := Threads.Sys OutboxWorld Dispatcher

/-- The step function of the dispatchers. -/
def outboxStep : OutboxSystem → Threads.Act DispatchAct OutboxEnv → Option OutboxSystem :=
  outboxProgram.step

/-- The table is empty, nothing was published and no dispatcher has started. -/
def OutboxSystem.Initial (s : OutboxSystem) : Prop :=
  s.shared.outbox = Rows.empty ∧ s.shared.accepted = [] ∧ s.locals = fun _ => .idle

end Aeropass
