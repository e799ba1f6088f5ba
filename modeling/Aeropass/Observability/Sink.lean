import Aeropass.Lib.TwoRuns
import Aeropass.Observability.Privacy

/-!
# The sink and the filter

`SentryAuditSink` on payloads with values of any kind, and `before_send_log` and
`before_send_metric` on what it emits. The sink goes by the keys of a payload, the filter by the
names and prefixes of attributes, both through the tables of the catalog: what is emitted passes
as it is (`sink_passes_filter`). On payloads of strings the sink is `sentryAuditSink`.
-/

open Json

namespace Aeropass

/-- What the sink does with a value: `v is None`, and `v == s` and `str(v)`, `none` where they
raise. -/
structure PyValues (V : Type) where
  isNone : V → Bool
  eqStr : V → String → Option Bool
  str : V → Option String

/-- What `capture_internal_exceptions` swallows: a key without a name, or what a value raises. -/
inductive SinkError where
  | keyError (key : String)
  | raised
  deriving DecidableEq, Repr

section
variable {V : Type} (py : PyValues V) (data : List (String × V))

/-- `ATTRIBUTE_NAMES[key]: str(value)`. -/
def payloadAttribute (kv : String × V) : Except SinkError (String × String) :=
  match attributeNames.lookup kv.1, py.str kv.2 with
  | none, _ => .error (.keyError kv.1)
  | some _, none => .error .raised
  | some name, some value => .ok (name, value)

/-- `_attributes`. -/
def payloadAttributes (keys : List String) : Except SinkError (List (String × String)) :=
  (data.filter fun kv => kv.1 ∈ keys && !py.isNone kv.2).mapM (payloadAttribute py)

/-- `data.get("outcome") == outcome`. -/
def hasOutcome (outcome : String) : Except SinkError Bool :=
  match (data.lookup "outcome").elim (some false) fun v => py.eqStr v outcome with
  | none => .error .raised
  | some equal => .ok equal

/-- `data.get(key) is not None`. -/
def isPresent (key : String) : Bool := (data.lookup key).any fun v => !py.isNone v

/-- `METRIC_RULES`, each with what its `when` says of the payload. -/
def payloadRules : List (MetricRule × Except SinkError Bool) :=
  [(aperturaRule, .ok true),
    (estadoFinalRule, (hasOutcome py data outcomeOk).map (· && isPresent py data "estado")),
    (intentoRule, (hasOutcome py data outcomeOk).map (· && isPresent py data "resultado"))]

/-- A statement under a condition. -/
def whenever (condition : Except SinkError Bool) (step : Except SinkError (List Emission)) :
    Except SinkError (List Emission) := do
  if ← condition then step else return []

/-- The emissions of consecutive statements, up to the first that raises. -/
def untilError {ε α : Type} : List (Except ε (List α)) → List α
  | [] => []
  | .ok emitted :: rest => emitted ++ untilError rest
  | .error _ :: _ => []

/-- `sentry_sdk.set_tag("fault_injected", str(data.get("fault", "")))`. -/
def tagFault : Except SinkError (List Emission) :=
  match (data.lookup "fault").elim (some "") py.str with
  | none => .error .raised
  | some value => .ok [.tag "fault_injected" value]

/-- The log entry of a record. -/
def logRecord (spec : AuditEvent) (event : String) : Except SinkError (List Emission) :=
  (payloadAttributes py data spec.allowedKeys).map fun attributes =>
    [.log spec.level logBody ((eventAttribute, event) :: attributes)]

/-- The increment of a rule. -/
def countRule (rule : MetricRule) : Except SinkError (List Emission) :=
  (payloadAttributes py data rule.keys).map fun attributes => [.count rule.name attributes]

/-- `SentryAuditSink`. -/
def payloadSink (event : String) : List Emission :=
  match auditEvents.find? (·.name = event) with
  | none => []
  | some spec =>
    untilError
      ([whenever (.ok (event = faultInjected)) (tagFault py data),
        whenever (if spec.errorsOnly then hasOutcome py data outcomeError else .ok true)
          (logRecord py data spec event)] ++
      (payloadRules py data).map fun rule =>
        whenever (if rule.1.event = event then rule.2 else .ok false) (countRule py data rule.1))

end

variable {V : Type} {py : PyValues V} {data : List (String × V)} {event : String}
  {keys : List String} {attributes : List (String × String)}

/-! ## Attributes -/

/-- The attribute is the name of one of the keys, with the value that the payload has there. -/
def FromKeys (py : PyValues V) (data : List (String × V)) (keys : List String)
    (p : String × String) : Prop :=
  ∃ kv ∈ data, kv.1 ∈ keys ∧ py.isNone kv.2 = false ∧
    attributeNames.lookup kv.1 = some p.1 ∧ py.str kv.2 = some p.2

/-- An attribute is the text of a value under the name of its key. -/
theorem payloadAttribute_ok {kv : String × V} {p : String × String}
    (h : payloadAttribute py kv = .ok p) :
    attributeNames.lookup kv.1 = some p.1 ∧ py.str kv.2 = some p.2 := by
  unfold payloadAttribute at h
  split at h
  · cases h
  · cases h
  · next name value hname hstr =>
    cases h
    exact ⟨hname, hstr⟩

/-- Every attribute comes from a key of the payload. -/
theorem fromKeys_of_mem (h : payloadAttributes py data keys = .ok attributes) :
    ∀ p ∈ attributes, FromKeys py data keys p := by
  intro p hp
  obtain ⟨kv, hkv, hf⟩ := Returns.mem_mapM h hp
  rw [List.mem_filter, Bool.and_eq_true, decide_eq_true_eq, Bool.not_eq_true'] at hkv
  exact ⟨kv, hkv.1, hkv.2.1, hkv.2.2, payloadAttribute_ok hf⟩

/-- Where every key has a name, no lookup fails. -/
theorem payloadAttributes_named (h : ∀ key ∈ keys, (attributeNames.lookup key).isSome)
    (key : String) : payloadAttributes py data keys ≠ .error (.keyError key) := by
  intro herr
  obtain ⟨kv, hkv, hf⟩ := Returns.mapM_error herr
  rw [List.mem_filter, Bool.and_eq_true, decide_eq_true_eq] at hkv
  have hsome := h kv.1 hkv.2.1
  unfold payloadAttribute at hf
  split at hf
  · next hname =>
    rw [hname] at hsome
    cases hsome
  · cases hf
  · cases hf

theorem entry_mem {key name : String} (h : attributeNames.lookup key = some name) :
    (key, name) ∈ attributeNames := by
  obtain ⟨before, rest, hsplit, -⟩ := List.lookup_eq_some_iff.1 h
  rw [hsplit]
  exact List.mem_append_right before List.mem_cons_self

/-- The name of a key is one of the names. -/
theorem name_mem {key name : String} (h : attributeNames.lookup key = some name) :
    name ∈ attributeNames.map (·.2) :=
  List.mem_map_of_mem (entry_mem h)

/-- No two keys have one name. -/
theorem key_unique {key key' name : String} (h : attributeNames.lookup key = some name)
    (h' : attributeNames.lookup key' = some name) : key = key' :=
  congrArg Prod.fst
    (List.inj_on_of_nodup_map attributeNames_distinct.1 (entry_mem h) (entry_mem h') rfl)

/-- The attributes of a dictionary are a dictionary: their names are distinct. -/
theorem payloadAttributes_nodup (h : payloadAttributes py data keys = .ok attributes)
    (hd : (data.map (·.1)).Nodup) : (attributes.map (·.1)).Nodup := by
  have hall := Returns.forall₂_of_mapM h
  have hkept : ((data.filter fun kv => kv.1 ∈ keys && !py.isNone kv.2).map (·.1)).Nodup :=
    hd.sublist (List.filter_sublist.map _)
  generalize data.filter (fun kv => kv.1 ∈ keys && !py.isNone kv.2) = kept at hall hkept
  clear h hd
  induction hall with
  | nil => exact List.nodup_nil
  | @cons kv p _ ps hp hps ih =>
    rw [List.map_cons, List.nodup_cons] at hkept ⊢
    refine ⟨fun hmem => hkept.1 ?_, ih hkept.2⟩
    obtain ⟨p', hp', hname⟩ := List.mem_map.1 hmem
    obtain ⟨kv', hkv', hof⟩ := Returns.exists_of_forall₂ hps hp'
    have hkey := (payloadAttribute_ok hof).1
    rw [hname] at hkey
    rw [key_unique (payloadAttribute_ok hp).1 hkey]
    exact List.mem_map_of_mem hkv'

/-! ## What is emitted -/

/-- What is emitted before an error was emitted by a step. -/
theorem mem_untilError {ε α : Type} {steps : List (Except ε (List α))} {a : α}
    (h : a ∈ untilError steps) : ∃ emitted, .ok emitted ∈ steps ∧ a ∈ emitted := by
  induction steps with
  | nil => cases h
  | cons step steps ih =>
    cases step with
    | error e => cases h
    | ok emitted =>
      rcases List.mem_append.1 h with h | h
      · exact ⟨emitted, List.mem_cons_self, h⟩
      · obtain ⟨emitted', hstep, ha⟩ := ih h
        exact ⟨emitted', List.mem_cons_of_mem _ hstep, ha⟩

/-- What is emitted under a condition is emitted where it holds. -/
theorem whenever_emits {condition : Except SinkError Bool}
    {step : Except SinkError (List Emission)} {emitted : List Emission} {emission : Emission}
    (h : whenever condition step = .ok emitted) (hem : emission ∈ emitted) :
    condition = .ok true ∧ step = .ok emitted := by
  cases condition with
  | error err => cases h
  | ok c =>
    cases c with
    | true => exact ⟨rfl, h⟩
    | false =>
      cases h
      cases hem

/-- Tagging emits one tag. -/
theorem emissions_of_tag {emitted : List Emission} (h : tagFault py data = .ok emitted) :
    ∃ value, emitted = [.tag "fault_injected" value] := by
  unfold tagFault at h
  split at h
  · cases h
  · next value _ =>
    cases h
    exact ⟨value, rfl⟩

/-- The emissions that are made of attributes. -/
theorem emissions_of_map {f : List (String × String) → List Emission} {emitted : List Emission}
    (h : (payloadAttributes py data keys).map f = .ok emitted) :
    ∃ own, payloadAttributes py data keys = .ok own ∧ emitted = f own := by
  cases hown : payloadAttributes py data keys with
  | error err =>
    rw [hown] at h
    cases h
  | ok own =>
    rw [hown] at h
    cases h
    exact ⟨own, rfl, rfl⟩

/-- The rules are those of the catalog. -/
theorem payloadRules_rules (py : PyValues V) (data : List (String × V)) :
    (payloadRules py data).map (·.1) = metricRules := rfl

/-- What is emitted: for an event of the catalog, the tag, the log entry with the attributes of the
allowed keys, or the increment of a rule of the event, with those of its keys. -/
theorem mem_payloadSink {emission : Emission} (h : emission ∈ payloadSink py data event) :
    ∃ spec ∈ auditEvents, spec.name = event ∧
      ((∃ value, emission = .tag "fault_injected" value) ∨
        (∃ own, payloadAttributes py data spec.allowedKeys = .ok own ∧
          emission = .log spec.level logBody ((eventAttribute, event) :: own)) ∨
        ∃ rule ∈ metricRules, rule.event = event ∧ ∃ own,
          payloadAttributes py data rule.keys = .ok own ∧ emission = .count rule.name own) := by
  unfold payloadSink at h
  split at h
  · cases h
  next spec hspec =>
  have hname : spec.name = event := by simpa using List.find?_some hspec
  obtain ⟨emitted, hstep, hem⟩ := mem_untilError h
  refine ⟨spec, List.mem_of_find?_eq_some hspec, hname, ?_⟩
  rcases List.mem_append.1 hstep with hstep | hstep
  · rw [List.mem_cons, List.mem_singleton] at hstep
    rcases hstep with htag | hlog
    · left
      obtain ⟨value, rfl⟩ := emissions_of_tag (whenever_emits htag.symm hem).2
      exact ⟨value, List.mem_singleton.1 hem⟩
    · right; left
      obtain ⟨own, hown, rfl⟩ := emissions_of_map (whenever_emits hlog.symm hem).2
      exact ⟨own, hown, List.mem_singleton.1 hem⟩
  · right; right
    obtain ⟨rule, hrule, hcount⟩ := List.mem_map.1 hstep
    obtain ⟨hmatch, hcount⟩ := whenever_emits hcount hem
    have hmem : rule.1 ∈ metricRules := by
      rw [← payloadRules_rules py data]
      exact List.mem_map_of_mem hrule
    obtain ⟨own, hown, rfl⟩ := emissions_of_map hcount
    refine ⟨rule.1, hmem, ?_, own, hown, List.mem_singleton.1 hem⟩
    by_contra hevent
    rw [if_neg hevent] at hmatch
    cases hmatch

/-! ## The filter -/

/-- The attributes of a log or a metric have these among them. -/
def Carries (item : Dict) (attributes : List (String × String)) : Prop :=
  ∃ a : Dict, item.lookup "attributes" = some (.object a) ∧
    ∀ p ∈ attributes, a.lookup p.1 = some (.str p.2)

/-- The filter returns it with all these attributes, and with its other fields. -/
def Passes (item : Dict) (attributes : List (String × String))
    (filtered : Except PyError (Option Dict)) : Prop :=
  ∃ sent, filtered = .ok (some sent) ∧ Carries sent attributes ∧
    ∀ k, k ≠ "attributes" → sent.lookup k = item.lookup k

/-- A dictionary of attributes with distinct names carries them, whatever follows. -/
theorem carries_append (added : Dict) {item : Dict} (hd : (attributes.map (·.1)).Nodup)
    (h : item.lookup "attributes" =
      some (.object ((attributes.map fun p => (p.1, .str p.2)) ++ added))) :
    Carries item attributes := by
  refine ⟨_, h, ?_⟩
  clear h
  induction attributes with
  | nil => exact List.forall_mem_nil _
  | cons p ps ih =>
    rw [List.map_cons, List.nodup_cons] at hd
    rw [List.forall_mem_cons, List.map_cons, List.cons_append]
    refine ⟨by rw [Dict.lookup_cons_ite, if_pos rfl], fun p' hp' => ?_⟩
    have hne : p'.1 ≠ p.1 := fun heq => hd.1 (heq ▸ List.mem_map_of_mem hp')
    rw [Dict.lookup_cons_ite, if_neg hne]
    exact ih hd.2 p' hp'

/-- A filter that keeps allowed attributes lets pass what has no others. -/
theorem passes_of_allowed {item a : Dict} {allowed prefixes : List String}
    (ha : ∀ p ∈ attributes, a.lookup p.1 = some (.str p.2))
    (hallowed : ∀ p ∈ attributes, p.1 ∈ allowed) :
    Passes item attributes
      (.ok (some (item.set "attributes" (.object (keepAllowed a allowed prefixes))))) := by
  refine ⟨_, rfl, ⟨keepAllowed a allowed prefixes, ?_, ?_⟩, ?_⟩
  · rw [Dict.lookup_set, if_pos rfl]
  · intro p hp
    rw [keepAllowed, Dict.lookup_keep, if_pos (by simp [hallowed p hp])]
    exact ha p hp
  · intro k hk
    rw [Dict.lookup_set, if_neg hk]

theorem orEmpty_object (a : Dict) : orEmpty (.object a) = .object a := by
  cases a with
  | nil => rfl
  | cons entry a => rfl

theorem get_of_lookup {item : Dict} {k : String} {v : Json} (h : item.lookup k = some v) :
    item.get k = v := by
  rw [Dict.get, h]
  rfl

/-- A log with the event among its attributes is an audit record for the filter. -/
theorem beforeSendLog_passes {log : Dict} (h : Carries log attributes)
    (hevent : (eventAttribute, event) ∈ attributes)
    (hallowed : ∀ p ∈ attributes, p.1 ∈ logAttributes) :
    Passes log attributes (SentryPrivacyFilter.beforeSendLog log) := by
  obtain ⟨a, ha, hcarried⟩ := h
  have haudit : (a.lookup eventAttribute).isNone = false := by
    rw [hcarried _ hevent]
    rfl
  rw [SentryPrivacyFilter.beforeSendLog, get_of_lookup ha, orEmpty_object]
  simp only [haudit, Bool.false_and, Bool.false_eq_true, if_false]
  exact passes_of_allowed hcarried hallowed

/-- The filter knows the metrics of the rules. -/
theorem beforeSendMetric_passes {rule : MetricRule} {metric : Dict} (hrule : rule ∈ metricRules)
    (hname : metric.lookup "name" = some (.str rule.name)) (h : Carries metric attributes)
    (hnamed : ∀ p ∈ attributes, ∃ key ∈ rule.keys, attributeNames.lookup key = some p.1) :
    Passes metric attributes (SentryPrivacyFilter.beforeSendMetric metric) := by
  obtain ⟨a, ha, hcarried⟩ := h
  obtain ⟨allowed, hallowed, hkept⟩ := (Option.any_eq_true _ _).1 (metricRules_kept rule hrule)
  obtain ⟨rules, hrules, hlookup⟩ := Option.bind_eq_some_iff.1 hallowed
  have hmem : ∀ p ∈ attributes, p.1 ∈ allowed := by
    intro p hp
    obtain ⟨key, hkey, hattribute⟩ := hnamed p hp
    have := List.all_eq_true.1 hkept key hkey
    rw [hattribute, Option.all_some, List.contains_iff_mem] at this
    exact this
  unfold SentryPrivacyFilter.beforeSendMetric
  rw [hrules, hname, get_of_lookup ha, orEmpty_object]
  simp only [Option.getD_some, hlookup]
  exact passes_of_allowed hcarried hmem

/-! ## What the sink reads -/

section
variable {allowed : List String}

/-- Other keys of the payload do not matter. -/
theorem payloadAttributes_keep (h : ∀ key ∈ keys, key ∈ allowed) :
    payloadAttributes py (data.filter fun kv => kv.1 ∈ allowed) keys =
      payloadAttributes py data keys := by
  unfold payloadAttributes
  rw [List.filter_filter]
  congr 1
  refine List.filter_congr fun kv _ => ?_
  by_cases hk : kv.1 ∈ keys
  · rw [decide_eq_true (h kv.1 hk), Bool.and_true]
  · rw [decide_eq_false hk, Bool.false_and, Bool.false_and]

theorem lookup_kept {key : String} (h : key ∈ allowed) :
    (data.filter fun kv => kv.1 ∈ allowed).lookup key = data.lookup key := by
  rw [Dict.lookup_filter_keys fun key => decide (key ∈ allowed), if_pos (decide_eq_true h)]

theorem hasOutcome_keep (h : "outcome" ∈ allowed) (outcome : String) :
    hasOutcome py (data.filter fun kv => kv.1 ∈ allowed) outcome =
      hasOutcome py data outcome := by
  unfold hasOutcome
  rw [lookup_kept h]

theorem isPresent_keep {key : String} (h : key ∈ allowed) :
    isPresent py (data.filter fun kv => kv.1 ∈ allowed) key = isPresent py data key := by
  unfold isPresent
  rw [lookup_kept h]

theorem tagFault_keep (h : "fault" ∈ allowed) :
    tagFault py (data.filter fun kv => kv.1 ∈ allowed) = tagFault py data := by
  unfold tagFault
  rw [lookup_kept h]

end

/-- A statement matters where its condition holds. -/
theorem whenever_congr {condition : Except SinkError Bool}
    {step step' : Except SinkError (List Emission)} (h : condition = .ok true → step = step') :
    whenever condition step = whenever condition step' := by
  cases condition with
  | error err => rfl
  | ok c =>
    cases c with
    | true => exact h rfl
    | false => rfl

/-- The event of the catalog with a name is found by it. -/
theorem find_auditEvent :
    ∀ spec ∈ auditEvents, auditEvents.find? (·.name = spec.name) = some spec := by
  unfold auditEvents
  simp only [List.forall_mem_cons, List.not_mem_nil, false_imp_iff, implies_true, and_true]
  exact ⟨rfl, rfl, rfl, rfl, rfl, rfl⟩

/-- The event allows the keys that the sink reads apart from those of `_attributes`. -/
theorem readKeys_allowed :
    (∀ spec ∈ auditEvents, "outcome" ∈ spec.allowedKeys) ∧
      (∀ spec ∈ auditEvents, faultInjected = spec.name → "fault" ∈ spec.allowedKeys) ∧
      ∀ spec ∈ auditEvents, identityVerification = spec.name →
        "estado" ∈ spec.allowedKeys ∧ "resultado" ∈ spec.allowedKeys := by
  decide

/-- Outside the keys that the event allows, the sink does not read the payload. -/
theorem payloadSink_keep (py : PyValues V) (data : List (String × V)) {spec : AuditEvent}
    (hspec : spec ∈ auditEvents) :
    payloadSink py (data.filter fun kv => kv.1 ∈ spec.allowedKeys) spec.name =
      payloadSink py data spec.name := by
  obtain ⟨houtcome, hfault, hstate⟩ := readKeys_allowed
  have hcount : ∀ rule ∈ metricRules, ∀ w w' : Except SinkError Bool,
      (rule.event = spec.name → w = w') →
      whenever (if rule.event = spec.name then w else .ok false)
          (countRule py (data.filter fun kv => kv.1 ∈ spec.allowedKeys) rule) =
        whenever (if rule.event = spec.name then w' else .ok false) (countRule py data rule) := by
    intro rule hrule w w' hw
    by_cases hevent : rule.event = spec.name
    · rw [hw hevent, countRule, countRule,
        payloadAttributes_keep (metricRules_allowed rule hrule spec hspec hevent.symm)]
    · rw [if_neg hevent, if_neg hevent]
      rfl
  unfold payloadSink
  rw [find_auditEvent spec hspec]
  simp only
  congr 2
  · congr 1
    · refine whenever_congr fun hc => ?_
      have hevent : spec.name = faultInjected := by simpa using hc
      exact tagFault_keep (hfault spec hspec hevent.symm)
    · rw [hasOutcome_keep (houtcome spec hspec), logRecord, logRecord,
        payloadAttributes_keep fun _ hkey => hkey]
  · simp only [payloadRules, List.map_cons, List.map_nil, hasOutcome_keep (houtcome spec hspec)]
    rw [hcount aperturaRule (by simp [metricRules]) _ _ fun _ => rfl,
      hcount estadoFinalRule (by simp [metricRules]) _ _ fun hevent => by
        rw [isPresent_keep (hstate spec hspec hevent).1],
      hcount intentoRule (by simp [metricRules]) _ _ fun hevent => by
        rw [isPresent_keep (hstate spec hspec hevent).2]]

/-! ## Payloads of strings -/

/-- Strings: none of them is `None`, and `str` leaves them. -/
def stringValues : PyValues String where
  isNone _ := false
  eqStr v s := some (v = s)
  str v := some v

/-- On strings the attributes are those of the record. -/
theorem payloadAttributes_strings (r : AuditRecord)
    (h : ∀ key ∈ keys, (attributeNames.lookup key).isSome) :
    payloadAttributes stringValues r.data keys = .ok (auditAttributes r keys) := by
  obtain ⟨event, data⟩ := r
  unfold payloadAttributes auditAttributes
  induction data with
  | nil => rfl
  | cons kv data ih =>
    rw [List.filterMap_cons, List.filter_cons]
    by_cases hk : kv.1 ∈ keys
    · obtain ⟨name, hname⟩ := Option.isSome_iff_exists.1 (h kv.1 hk)
      have hone : payloadAttribute stringValues kv = .ok (name, kv.2) := by
        rw [payloadAttribute, hname]
        rfl
      have hkeep : (decide (kv.1 ∈ keys) && !stringValues.isNone kv.2) = true := by
        rw [decide_eq_true hk]
        rfl
      rw [if_pos hkeep, List.mapM_cons, hone, ih, if_pos hk, hname]
      rfl
    · rw [if_neg (by simp [hk]), if_neg hk]
      exact ih

theorem hasOutcome_strings (r : AuditRecord) (outcome : String) :
    hasOutcome stringValues r.data outcome = .ok (r.get "outcome" = some outcome) := by
  unfold hasOutcome AuditRecord.get
  cases r.data.lookup "outcome" with
  | none => rfl
  | some v => simp [stringValues]

theorem isPresent_strings (r : AuditRecord) (key : String) :
    isPresent stringValues r.data key = (r.get key).isSome := by
  unfold isPresent AuditRecord.get
  cases r.data.lookup key with
  | none => rfl
  | some v => rfl

theorem tagFault_strings (r : AuditRecord) :
    tagFault stringValues r.data = .ok [.tag "fault_injected" ((r.get "fault").getD "")] := by
  unfold tagFault AuditRecord.get
  cases r.data.lookup "fault" with
  | none => rfl
  | some v => rfl

theorem whenever_ok (c : Bool) (emitted : List Emission) :
    whenever (.ok c) (.ok emitted) = .ok (if c then emitted else []) := by
  cases c <;> rfl

/-- The increment of a rule, and none for other records. -/
theorem countRule_strings (r : AuditRecord) {rule : MetricRule} (hrule : rule ∈ metricRules) :
    whenever (if rule.event = r.event then .ok (rule.matchesData r) else .ok false)
        (countRule stringValues r.data rule) =
      .ok (if rule.event = r.event ∧ rule.matchesData r then
        [.count rule.name (auditAttributes r rule.keys)] else []) := by
  have hcount : countRule stringValues r.data rule =
      .ok [.count rule.name (auditAttributes r rule.keys)] := by
    rw [countRule, payloadAttributes_strings r (allowedKeys_named.2 rule hrule)]
    rfl
  rw [hcount]
  by_cases hevent : rule.event = r.event
  · rw [if_pos hevent, whenever_ok]
    simp [hevent]
  · rw [if_neg hevent, whenever_ok]
    simp [hevent]

/-- On strings no rule fails, and each that matches increments. -/
theorem untilError_countRule (r : AuditRecord) {rules : List MetricRule}
    (h : ∀ rule ∈ rules, rule ∈ metricRules) :
    untilError (rules.map fun rule =>
        whenever (if rule.event = r.event then .ok (rule.matchesData r) else .ok false)
          (countRule stringValues r.data rule)) =
      (rules.filter fun rule => rule.event = r.event ∧ rule.matchesData r).map fun rule =>
        .count rule.name (auditAttributes r rule.keys) := by
  induction rules with
  | nil => rfl
  | cons rule rules ih =>
    rw [List.forall_mem_cons] at h
    rw [List.map_cons, countRule_strings r h.1, untilError, ih h.2, List.filter_cons]
    by_cases hmatch : rule.event = r.event ∧ rule.matchesData r = true
    · rw [if_pos hmatch, if_pos (decide_eq_true hmatch)]
      rfl
    · rw [if_neg hmatch, if_neg (by simpa using hmatch)]
      rfl

/-- On payloads of strings the sink is the one of the other modules. -/
theorem payloadSink_strings (r : AuditRecord) :
    payloadSink stringValues r.data r.event = sentryAuditSink r := by
  unfold payloadSink sentryAuditSink
  cases hspec : auditEvents.find? (·.name = r.event) with
  | none => rfl
  | some spec =>
    have hlog : logRecord stringValues r.data spec r.event = .ok [.log spec.level logBody
        ((eventAttribute, r.event) :: auditAttributes r spec.allowedKeys)] := by
      rw [logRecord, payloadAttributes_strings r
        (allowedKeys_named.1 spec (List.mem_of_find?_eq_some hspec))]
      rfl
    have hrules : payloadRules stringValues r.data =
        metricRules.map fun rule => (rule, .ok (rule.matchesData r)) := by
      unfold payloadRules
      rw [hasOutcome_strings, isPresent_strings, isPresent_strings]
      simp [metricRules, aperturaRule, estadoFinalRule, intentoRule, Except.map]
    have herrors : (if spec.errorsOnly then hasOutcome stringValues r.data outcomeError
        else .ok true) = .ok (!spec.errorsOnly || r.get "outcome" = some outcomeError) := by
      rw [hasOutcome_strings]
      cases spec.errorsOnly <;> rfl
    simp only [hlog, hrules, herrors, tagFault_strings, whenever_ok, List.map_map,
      List.cons_append, List.nil_append, untilError]
    rw [metricCounts, ← untilError_countRule r fun _ hrule => hrule]
    simp [Function.comp_def]

/-! ## The sink through the filter -/

/-- The attributes of a log entry: the event, and those of the keys that it allows. -/
theorem log_emitted {level : LogLevel} {body : String}
    (h : .log level body attributes ∈ payloadSink py data event) :
    ∃ spec ∈ auditEvents, spec.name = event ∧ ∃ own,
      payloadAttributes py data spec.allowedKeys = .ok own ∧
      attributes = (eventAttribute, event) :: own := by
  obtain ⟨spec, hspec, hname, htag | ⟨own, hown, hlog⟩ | hcount⟩ := mem_payloadSink h
  · obtain ⟨value, htag⟩ := htag
    cases htag
  · cases hlog
    exact ⟨spec, hspec, hname, own, hown, rfl⟩
  · obtain ⟨rule, -, -, own, -, hcount⟩ := hcount
    cases hcount

/-- The attributes of an increment: those of the keys of its rule. -/
theorem count_emitted {name : String} (h : .count name attributes ∈ payloadSink py data event) :
    ∃ rule ∈ metricRules, rule.event = event ∧ rule.name = name ∧
      payloadAttributes py data rule.keys = .ok attributes := by
  obtain ⟨spec, -, -, ⟨value, htag⟩ | ⟨own, -, hlog⟩ | hcount⟩ := mem_payloadSink h
  · cases htag
  · cases hlog
  · obtain ⟨rule, hrule, hevent, own, hown, hcount⟩ := hcount
    cases hcount
    exact ⟨rule, hrule, hevent, rfl, hown⟩

/-- An increment passes the filter, whatever the SDK adds to it. -/
theorem count_passes {name : String} (h : .count name attributes ∈ payloadSink py data event)
    {metric : Dict} (hname : metric.lookup "name" = some (.str name))
    (hmetric : Carries metric attributes) :
    Passes metric attributes (SentryPrivacyFilter.beforeSendMetric metric) := by
  obtain ⟨rule, hrule, -, rfl, hown⟩ := count_emitted h
  refine beforeSendMetric_passes hrule hname hmetric fun p hp => ?_
  obtain ⟨kv, -, hkey, -, hattribute, -⟩ := fromKeys_of_mem hown p hp
  exact ⟨kv.1, hkey, hattribute⟩

/-- **What the services count reaches Sentry.** The increments for the records of the services,
whose payloads are strings, pass the filter too. -/
theorem sentryAuditSink_count_passes {r : AuditRecord} {name : String}
    (h : .count name attributes ∈ sentryAuditSink r) {metric : Dict}
    (hname : metric.lookup "name" = some (.str name)) (hmetric : Carries metric attributes) :
    Passes metric attributes (SentryPrivacyFilter.beforeSendMetric metric) := by
  rw [← payloadSink_strings] at h
  exact count_passes h hname hmetric

/-- Nothing that the sink emits is stripped or dropped. A log or a metric with its attributes passes
the filter with all of them. They are the event and what the payload has under the keys that the
event allows, or the rule of the metric; their names are distinct when the keys of the payload are,
every key has a name, and the payload does not matter elsewhere. -/
theorem sink_passes_filter (py : PyValues V) (data : List (String × V)) (event : String) :
    ((∀ spec ∈ auditEvents, spec.name ≠ event) → payloadSink py data event = []) ∧
    (metricAttributes.isSome = true ∧ ∀ key,
      (∀ spec ∈ auditEvents, payloadAttributes py data spec.allowedKeys ≠ .error (.keyError key)) ∧
      ∀ rule ∈ metricRules, payloadAttributes py data rule.keys ≠ .error (.keyError key)) ∧
    (∀ level body attributes, .log level body attributes ∈ payloadSink py data event →
      (∃ spec ∈ auditEvents, spec.name = event ∧
        ∀ p ∈ attributes, p = (eventAttribute, event) ∨ FromKeys py data spec.allowedKeys p) ∧
      ((data.map (·.1)).Nodup → (attributes.map (·.1)).Nodup) ∧
      ∀ log, Carries log attributes →
        Passes log attributes (SentryPrivacyFilter.beforeSendLog log)) ∧
    (∀ name attributes, .count name attributes ∈ payloadSink py data event →
      (∃ rule ∈ metricRules, rule.event = event ∧ rule.name = name ∧
        ∀ p ∈ attributes, FromKeys py data rule.keys p) ∧
      ((data.map (·.1)).Nodup → (attributes.map (·.1)).Nodup) ∧
      ∀ metric, metric.lookup "name" = some (.str name) → Carries metric attributes →
        Passes metric attributes (SentryPrivacyFilter.beforeSendMetric metric)) ∧
    ∀ spec ∈ auditEvents, spec.name = event →
      payloadSink py (data.filter fun kv => kv.1 ∈ spec.allowedKeys) event =
        payloadSink py data event := by
  refine ⟨fun h => ?_, ⟨rfl, fun key => ⟨fun spec hspec => ?_, fun rule hrule => ?_⟩⟩,
    fun level body attributes h => ?_, fun name attributes h => ?_, ?_⟩
  · have hfind : auditEvents.find? (·.name = event) = none :=
      List.find?_eq_none.2 fun spec hspec => by simpa using h spec hspec
    rw [payloadSink, hfind]
  · exact payloadAttributes_named (allowedKeys_named.1 spec hspec) key
  · exact payloadAttributes_named (allowedKeys_named.2 rule hrule) key
  · obtain ⟨spec, hspec, hname, own, hown, rfl⟩ := log_emitted h
    have hfrom := fromKeys_of_mem hown
    have hnames : ∀ p ∈ own, p.1 ∈ attributeNames.map (·.2) := by
      intro p hp
      obtain ⟨kv, -, -, -, hattribute, -⟩ := hfrom p hp
      exact name_mem hattribute
    refine ⟨⟨spec, hspec, hname, ?_⟩, fun hd => ?_, fun log hlog => ?_⟩
    · exact List.forall_mem_cons.2 ⟨.inl rfl, fun p hp => .inr (hfrom p hp)⟩
    · refine List.nodup_cons.2 ⟨fun hmem => ?_, payloadAttributes_nodup hown hd⟩
      obtain ⟨p, hp, heq⟩ := List.mem_map.1 hmem
      have hname' := hnames p hp
      rw [heq] at hname'
      exact attributeNames_distinct.2 hname'
    · exact beforeSendLog_passes hlog List.mem_cons_self
        (List.forall_mem_cons.2 ⟨List.mem_cons_self, fun p hp =>
          List.mem_cons_of_mem _ (hnames p hp)⟩)
  · obtain ⟨rule, hrule, hevent, hname, hown⟩ := count_emitted h
    exact ⟨⟨rule, hrule, hevent, hname, fromKeys_of_mem hown⟩, payloadAttributes_nodup hown,
      fun metric hname hmetric => count_passes h hname hmetric⟩
  · rintro spec hspec rfl
    exact payloadSink_keep py data hspec

/-- Values that are strings or `None`. -/
def optionValues : PyValues (Option String) where
  isNone v := v.isNone
  eqStr v s := some (v = some s)
  str v := some (v.getD "None")

/-- The payload of an attempt that succeeds, with a document number. -/
def attemptData : List (String × Option String) :=
  [("outcome", some outcomeOk), ("resultado", some "EXITOSO"), ("motivo", none),
    ("numero_documento", some "1234567890")]

/-- The metric of that attempt, with attributes of the SDK: one that the filter keeps, and one that
it strips. -/
def attemptMetric : Dict :=
  [("name", .str "aeropass.verificacion.intento"),
    ("attributes", .object [("aeropass.resultado", .str "EXITOSO"), ("sentry.release", .str "1"),
      ("user.id", .str "7")])]

/-- What the sink emits for the attempt, and that the metric passes. -/
theorem sink_passes_filter_attempt :
    payloadSink optionValues attemptData identityVerification =
      [.log .info logBody [("aeropass.event", "identity.verification"), ("aeropass.outcome", "ok"),
          ("aeropass.resultado", "EXITOSO")],
        .count "aeropass.verificacion.intento" [("aeropass.resultado", "EXITOSO")]] ∧
    Passes attemptMetric [("aeropass.resultado", "EXITOSO")]
      (SentryPrivacyFilter.beforeSendMetric attemptMetric) := by
  have hmem : Emission.count "aeropass.verificacion.intento" [("aeropass.resultado", "EXITOSO")] ∈
      payloadSink optionValues attemptData identityVerification := by decide
  have hpass := (sink_passes_filter optionValues attemptData identityVerification).2.2.2.1 _ _ hmem
  exact ⟨by decide, hpass.2.2 _ rfl (carries_append _ (List.nodup_singleton _) rfl)⟩

end Aeropass
