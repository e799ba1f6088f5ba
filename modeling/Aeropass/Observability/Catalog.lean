import Mathlib.Tactic.Common

/-!
# Audit records and what the sink makes of them

`telemetry_catalog.py` and `SentryAuditSink`: the audit events, how each is logged, the rules that
turn a record into counters, and the emissions of the sink for one record. The payload of a record
is a dictionary of strings; a key whose value is `None` is absent.
-/

namespace Aeropass

/-- An audit record: the arguments of `emit_audit(event, **data)`. -/
structure AuditRecord where
  event : String
  data : List (String × String)
  deriving DecidableEq, Repr

/-- `data.get(key)`. -/
def AuditRecord.get (r : AuditRecord) (key : String) : Option String := r.data.lookup key

/-! ## The catalog -/

/-- `IDENTITY_VERIFICATION`. -/
def identityVerification : String := "identity.verification"
/-- `CREDENTIAL_ISSUE`. -/
def credentialIssue : String := "credential.issue"
/-- `CREDENTIAL_CONSUME`. -/
def credentialConsume : String := "credential.consume"
/-- `AUTH_AUTHENTICATE`. -/
def authAuthenticate : String := "auth.authenticate"
/-- `CIRCUIT_OPENED`. -/
def circuitOpened : String := "resilience.circuit_opened"
/-- `FAULT_INJECTED`. -/
def faultInjected : String := "fault.injected"

/-- `OUTCOME_OK`. -/
def outcomeOk : String := "ok"
/-- `OUTCOME_ERROR`. -/
def outcomeError : String := "error"

/-- `LOG_BODY`. -/
def logBody : String := "aeropass.audit"
/-- `EVENT_ATTRIBUTE`. -/
def eventAttribute : String := "aeropass.event"

/-- `ATTRIBUTE_NAMES`. -/
def attributeNames : List (String × String) :=
  [("outcome", "aeropass.outcome"), ("error", "aeropass.error_type"),
    ("resultado", "aeropass.resultado"), ("motivo", "aeropass.motivo"),
    ("estado", "aeropass.estado"), ("dependencia", "aeropass.dependencia"),
    ("fault", "aeropass.fault")]

/-- `COMMON_KEYS`. -/
def commonKeys : List String := ["outcome", "error"]

/-- The levels of a log entry. -/
inductive LogLevel where
  | info | warning
  deriving DecidableEq, Repr

/-- `AuditEvent`. -/
structure AuditEvent where
  name : String
  level : LogLevel := .info
  errorsOnly : Bool := false
  keys : List String := []

/-- `AuditEvent.allowed_keys`. -/
def AuditEvent.allowedKeys (e : AuditEvent) : List String := commonKeys ++ e.keys

/-- `AUDIT_EVENTS`. -/
def auditEvents : List AuditEvent :=
  [{ name := identityVerification, keys := ["resultado", "motivo", "estado"] },
    { name := credentialIssue },
    { name := credentialConsume },
    { name := authAuthenticate, errorsOnly := true },
    { name := circuitOpened, level := .warning, keys := ["dependencia"] },
    { name := faultInjected, level := .warning, keys := ["fault"] }]

/-- `MetricRule`: a counter that every matching record increments by one. -/
structure MetricRule where
  name : String
  event : String
  keys : List String
  matchesData : AuditRecord → Bool := fun _ => true

/-- `aeropass.circuit_breaker.apertura`. -/
def aperturaRule : MetricRule :=
  { name := "aeropass.circuit_breaker.apertura", event := circuitOpened, keys := ["dependencia"] }

/-- `aeropass.pasajero.estado_final`. -/
def estadoFinalRule : MetricRule :=
  { name := "aeropass.pasajero.estado_final", event := identityVerification, keys := ["estado"]
    matchesData := fun r => r.get "outcome" = some outcomeOk ∧ (r.get "estado").isSome }

/-- `aeropass.verificacion.intento`. -/
def intentoRule : MetricRule :=
  { name := "aeropass.verificacion.intento", event := identityVerification
    keys := ["resultado", "motivo"]
    matchesData := fun r => r.get "outcome" = some outcomeOk ∧ (r.get "resultado").isSome }

/-- `METRIC_RULES`. -/
def metricRules : List MetricRule := [aperturaRule, estadoFinalRule, intentoRule]

/-- `LOG_ATTRIBUTES`. -/
def logAttributes : List String := eventAttribute :: attributeNames.map (·.2)

/-- `MetricRule.attributes`; `none` where a key has no name (`KeyError`). -/
def MetricRule.attributes (rule : MetricRule) : Option (List String) :=
  rule.keys.mapM fun key => attributeNames.lookup key

/-- `metric_attributes`. -/
def metricAttributes : Option (List (String × List String)) :=
  metricRules.mapM fun rule => rule.attributes.map (rule.name, ·)

/-! ## The sink -/

/-- What the sink sends: a tag, a log entry, or an increment of a counter. -/
inductive Emission where
  | tag (key value : String)
  | log (level : LogLevel) (body : String) (attributes : List (String × String))
  | count (name : String) (attributes : List (String × String))
  deriving DecidableEq, Repr

/-- `_attributes`; every allowed key has a name. -/
def auditAttributes (r : AuditRecord) (keys : List String) : List (String × String) :=
  r.data.filterMap fun kv =>
    if kv.1 ∈ keys then (attributeNames.lookup kv.1).map fun name => (name, kv.2) else none

/-- The counters that a record increments. -/
def metricCounts (r : AuditRecord) : List Emission :=
  (metricRules.filter fun rule => rule.event = r.event ∧ rule.matchesData r).map fun rule =>
    .count rule.name (auditAttributes r rule.keys)

/-- `SentryAuditSink`. -/
def sentryAuditSink (r : AuditRecord) : List Emission :=
  match auditEvents.find? (·.name = r.event) with
  | none => []
  | some spec =>
    (if r.event = faultInjected then [.tag "fault_injected" ((r.get "fault").getD "")] else []) ++
    (if !spec.errorsOnly || r.get "outcome" = some outcomeError then
      [.log spec.level logBody ((eventAttribute, r.event) :: auditAttributes r spec.allowedKeys)]
    else []) ++ metricCounts r

/-- Every key that an event or a rule allows has an attribute name, so `_attributes` does not
fail. -/
theorem allowedKeys_named :
    (∀ e ∈ auditEvents, ∀ k ∈ e.allowedKeys, (attributeNames.lookup k).isSome) ∧
      ∀ rule ∈ metricRules, ∀ k ∈ rule.keys, (attributeNames.lookup k).isSome := by
  decide

/-- The filter knows the metric of every rule and allows the names of the rule's keys there. -/
theorem metricRules_kept : ∀ rule ∈ metricRules,
    ((metricAttributes.bind fun rules => rules.lookup rule.name).any fun names =>
      rule.keys.all fun key => (attributeNames.lookup key).all names.contains) = true := by
  decide

/-- Every rule is about an event of the catalog, and is copied from keys that the event allows. -/
theorem metricRules_allowed : ∀ rule ∈ metricRules, ∀ spec ∈ auditEvents,
    spec.name = rule.event → ∀ key ∈ rule.keys, key ∈ spec.allowedKeys := by
  decide

/-- The names of keys are distinct, and none of them is that of the event. -/
theorem attributeNames_distinct :
    (attributeNames.map (·.2)).Nodup ∧ eventAttribute ∉ attributeNames.map (·.2) := by
  decide

end Aeropass
