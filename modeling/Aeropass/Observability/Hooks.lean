import Aeropass.Lib.ExitStack
import Aeropass.Observability.Catalog

/-!
# The instrumentation hooks

`observability/hooks.py`: `span` on the hooks that could be entered, `emit_audit`, `_described` and
the decorators `traced` and `audited`, on what the decorated function returned or raised; the sync
and the async wrappers do the same with it. A hook is what it does in this one call. Exceptions are
objects with an identity, since `contextlib` compares them by identity.
-/

namespace Aeropass

open ExitStack

/-! ## Exceptions -/

/-- What `contextlib` and `except Exception` tell apart. -/
inductive ExceptionKind where
  | stopIteration | runtimeError | exception | baseException
  deriving DecidableEq, Repr

/-- An exception object: its identity, `type(exc).__name__` and `__cause__`. -/
structure PyException where
  id : Nat
  name : String
  kind : ExceptionKind := .exception
  cause : Option Nat := none
  deriving DecidableEq, Repr

/-- What a call raises: an exception of the code that it runs, the `RuntimeError` that a generator
raises from a `StopIteration` (PEP 479), or the `TypeError` of a keyword expansion. The last two are
new objects. -/
inductive Raised where
  | object (e : PyException)
  | generatorRaised (stop : PyException)
  | keywords
  deriving DecidableEq, Repr

namespace Raised

/-- `isinstance(exc, Exception)`. -/
def isException : Raised → Bool
  | .object e => e.kind ≠ .baseException
  | .generatorRaised _ | .keywords => true

/-- `isinstance(exc, StopIteration)`. -/
def isStopIteration : Raised → Bool
  | .object e => e.kind = .stopIteration
  | .generatorRaised _ | .keywords => false

/-- `isinstance(exc, RuntimeError)`. -/
def isRuntimeError : Raised → Bool
  | .object e => e.kind = .runtimeError
  | .generatorRaised _ => true
  | .keywords => false

/-- `exc.__cause__ is value`. -/
def causeIs : Raised → Raised → Bool
  | .object e, .object value => e.cause = some value.id
  | .generatorRaised stop, value => value = .object stop
  | _, _ => false

/-- `type(exc).__name__`. -/
def typeName : Raised → String
  | .object e => e.name
  | .generatorRaised _ => "RuntimeError"
  | .keywords => "TypeError"

/-- The exception as it leaves a generator. -/
def leavesGenerator : Raised → Raised
  | .object e => if e.kind = .stopIteration then .generatorRaised e else .object e
  | e => e

end Raised

/-- What a hook or a describe function may raise. -/
abbrev AnyException := { e : Raised // e.isException = true }

/-! ## Spans -/

/-- What a span hook may return: an object with `__enter__` and `__exit__`. -/
structure ContextManager extends Manager Raised where
  enter : Except AnyException Unit

/-- A span hook; `none` where what it returns is no context manager. -/
abbrev SpanHook := String → Except AnyException (Option ContextManager)

/-- `stack.enter_context(hook(name))` with its `except Exception`: the manager that was entered. -/
def SpanHook.entered? (hook : SpanHook) (name : String) : Option (Manager Raised) :=
  match hook name with
  | .error _ | .ok none => none
  | .ok (some manager) =>
    match manager.enter with
    | .error _ => none
    | .ok () => some manager.toManager

/-- The managers that `span` enters, first to last. -/
def enteredHooks (hooks : List SpanHook) (name : String) : List (Manager Raised) :=
  hooks.filterMap (SpanHook.entered? · name)

/-- What leaves the generator of `span` when it goes on after its `yield`, where `x` is thrown. -/
def spanGenerator (hooks : List SpanHook) (name : String) (x : Option Raised) : Option Raised :=
  ((Manager.mk (exitStack (enteredHooks hooks name))).leave x).map Raised.leavesGenerator

/-- `_GeneratorContextManager.__exit__` of a generator that yields once. -/
def generatorExit (generator : Option Raised → Option Raised) (x : Option Raised) :
    Except Raised Bool :=
  match x, generator x with
  | none, none => .ok false
  | none, some e => .error e
  | some _, none => .ok true
  | some value, some e =>
    if e = value then .ok false
    else if e.isRuntimeError && value.isStopIteration && e.causeIs value then .ok false
    else .error e

/-- `span`. -/
def span (hooks : List SpanHook) (name : String) : Manager Raised :=
  ⟨generatorExit (spanGenerator hooks name)⟩

/-- `traced`: a wrapper whose exception is suppressed returns `None`. -/
def traced {R : Type} (pyNone : R) (hooks : List SpanHook) (name : String)
    (fn : Except Raised R) : Except Raised R :=
  match fn with
  | .ok result =>
    match (span hooks name).leave none with
    | none => .ok result
    | some e => .error e
  | .error value =>
    match (span hooks name).leave (some value) with
    | none => .ok pyNone
    | some e => .error e

/-! ## Audit records -/

/-- An audit hook: what it sends for a record, and what it then raises. -/
abbrev AuditHook (V ω : Type) := String → List (String × V) → List ω × Option AnyException

/-- `emit_audit`; `logger.debug` sends nothing. -/
def emitAudit {V ω : Type} (hooks : List (AuditHook V ω)) (event : String)
    (data : List (String × V)) : List ω :=
  hooks.flatMap fun hook => (hook event data).1

/-- A key of what describe returns: a string, or an object with what its `!= "outcome"` and its
insertion into a dictionary do. -/
inductive Key where
  | str (s : String)
  | object (differs : Except AnyException Bool) (stored : Except AnyException Unit)

/-- What describe returns, by what `.items()` does: it raises, also for an object that has none, or
iterates over elements that unpack into a key and a value or fail to; `none` is `None`. -/
structure Attributes (V : Type) where
  items : Except AnyException (List (Except AnyException (Key × Option V)))

/-- `d[k] = v`. -/
def setItem {V : Type} (d : List (Option String × V)) (k : Option String) (v : V) :
    List (Option String × V) :=
  if k.isSome && d.any (fun kv => kv.1 = k) then
    d.map fun kv => if kv.1 = k then (k, v) else kv
  else d ++ [(k, v)]

/-- One turn of the comprehension `{k: v for k, v in … if v is not None and k != "outcome"}`; a key
that is no string is `none`. -/
def describeItem {V : Type} (d : List (Option String × V))
    (item : Except AnyException (Key × Option V)) :
    Except AnyException (List (Option String × V)) := do
  match ← item with
  | (_, none) => return d
  | (.str k, some v) => return if k ≠ "outcome" then setItem d (some k) v else d
  | (.object differs stored, some v) =>
    if ← differs then
      stored
      return setItem d none v
    else return d

/-- `_described`. -/
def described {R V : Type} (describe : Option (R → Except AnyException (Attributes V)))
    (result : R) : Except AnyException (List (Option String × V)) :=
  match describe with
  | none => .ok []
  | some describe =>
    match describe result with
    | .error _ => .ok []
    | .ok attributes => do (← attributes.items).foldlM describeItem []

/-- `**d` in a call of `emit_audit(event, …)`: keys have to be strings, and `event` is taken. -/
def expandKeywords {V : Type} (d : List (Option String × V)) :
    Except Raised (List (String × V)) :=
  d.foldr (fun kv rest =>
    match kv.1 with
    | none => .error .keywords
    | some k => if k = "event" then .error .keywords else (rest.map ((k, kv.2) :: ·))) (.ok [])

/-- `audited`: what the wrapper returns or raises, and what the hooks send. -/
def audited {R V ω : Type} (hooks : List (AuditHook V ω)) (str : String → V) (event : String)
    (describe : Option (R → Except AnyException (Attributes V))) (fn : Except Raised R) :
    Except Raised R × List ω :=
  match fn with
  | .error exc =>
    if exc.isException then
      (.error exc, emitAudit hooks event
        [("outcome", str outcomeError), ("error", str exc.typeName)])
    else (.error exc, [])
  | .ok result =>
    match described describe result with
    | .error e => (.error e.1, [])
    | .ok attributes =>
      match expandKeywords attributes with
      | .error e => (.error e, [])
      | .ok data => (.ok result, emitAudit hooks event (("outcome", str outcomeOk) :: data))

end Aeropass
