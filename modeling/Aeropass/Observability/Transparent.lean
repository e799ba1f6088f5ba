import Aeropass.Observability.Hooks

/-!
# When telemetry is transparent

A stack of decorators (`wrapped`) leaves the outcome of a function alone when each of them does
(`Layer.Transparent`). Creating or entering a span hook, an audit hook and a describe function may
fail as they like. Not so the exit of a span hook, which may replace or suppress what is in flight,
and what describe returns, which is unpacked and expanded into keywords outside of the `try`.
-/

namespace Aeropass

open ExitStack

variable {R V ω : Type} {pyNone : R} {str : String → V} {hooks : List SpanHook} {name : String}
  {fn : Except PyException R} {describe : Option (R → Except AnyException (Attributes V))}

/-- A decorator of a function. -/
inductive Layer (R V ω : Type) where
  | traced (hooks : List SpanHook) (name : String)
  | audited (hooks : List (AuditHook V ω)) (event : String)
    (describe : Option (R → Except AnyException (Attributes V)))

/-- The decorated function. -/
def Layer.wrap (pyNone : R) (str : String → V) (L : Layer R V ω) (fn : Except Raised R) :
    Except Raised R :=
  match L with
  | .traced hooks name => Aeropass.traced pyNone hooks name fn
  | .audited hooks event describe => (Aeropass.audited hooks str event describe fn).1

/-- A function under decorators, the outermost first. -/
def wrapped (pyNone : R) (str : String → V) (layers : List (Layer R V ω)) (fn : Except Raised R) :
    Except Raised R :=
  layers.foldr (Layer.wrap pyNone str) fn

/-- What the function itself returns or raises. -/
def called (fn : Except PyException R) : Except Raised R := fn.mapError .object

/-- The exception in flight when it ends. -/
def raisedBy : Except PyException R → Option Raised
  | .ok _ => none
  | .error e => some (.object e)

/-! ## The conditions -/

/-- The exit of a span hook, given `y`, leaves of the call what the function did: it suppresses what
is in flight if the function returned, and raises the exception of the function if it raised. For a
`StopIteration` a `RuntimeError` that it caused does as well. -/
def Restores (m : Manager Raised) (y : Option Raised) : Except PyException R → Prop
  | .ok _ => m.exit y = .ok true
  | .error e => ∃ r, m.exit y = .error r ∧ (r = .object e ∨
    (e.kind = .stopIteration ∧ r.isRuntimeError = true ∧ r.causeIs (.object e) = true))

/-- An item that the comprehension skips, or with a key that `emit_audit` can take. -/
def Admissible : Key × Option V → Prop
  | (_, none) => True
  | (.str k, some _) => k ≠ "event"
  | (.object differs _, some _) => differs = .ok false

/-- What describe returns can be expanded into keywords of `emit_audit`. -/
def Attributes.Expandable (attributes : Attributes V) : Prop :=
  ∃ items, attributes.items = .ok items ∧ ∀ item ∈ items, ∃ kv, item = .ok kv ∧ Admissible kv

/-- The condition of a decorator: the outermost hook entered whose exit does not answer a false
value, if there is one, restores the outcome; what describe returns can be expanded. -/
def Layer.Transparent (fn : Except PyException R) : Layer R V ω → Prop
  | .traced hooks name => ∀ m y, Outermost (raisedBy fn) (enteredHooks hooks name) m y →
    Restores m y fn
  | .audited _ _ describe => ∀ d ∈ describe, ∀ result, fn = .ok result →
    ∀ attributes, d result = .ok attributes → attributes.Expandable

/-! ## Spans -/

/-- What is in flight outside of the hooks is what the function did. -/
def OutcomeKept (fn : Except PyException R) (z : Option Raised) : Prop :=
  match fn with
  | .ok _ => z = none
  | .error e => ∃ r, z = some r ∧ (r = .object e ∨
    (e.kind = .stopIteration ∧ r.isRuntimeError = true ∧ r.causeIs (.object e) = true))

theorem outcomeKept_raisedBy (fn : Except PyException R) : OutcomeKept fn (raisedBy fn) := by
  cases fn with
  | ok result => rfl
  | error e => exact ⟨_, rfl, .inl rfl⟩

/-- A hook that does not answer a false value keeps the outcome by restoring it. -/
theorem outcomeKept_leave {m : Manager Raised} {y : Option Raised} (hne : m.exit y ≠ .ok false) :
    OutcomeKept fn (m.leave y) ↔ Restores m y fn := by
  unfold OutcomeKept Restores Manager.leave
  cases hexit : m.exit y with
  | error r => cases fn <;> simp
  | ok b =>
    cases b with
    | false => exact absurd hexit hne
    | true => cases fn <;> simp

/-- What a generator makes of an exception matters to `contextlib` only if it is another one. -/
theorem leavesGenerator_kept (e : PyException) (r : Raised) :
    (r.leavesGenerator = .object e ∨ (r.leavesGenerator.isRuntimeError &&
      (Raised.object e).isStopIteration && r.leavesGenerator.causeIs (.object e)) = true) ↔
    (r = .object e ∨
      (e.kind = .stopIteration ∧ r.isRuntimeError = true ∧ r.causeIs (.object e) = true)) := by
  by_cases hstop : ∃ stop, r = .object stop ∧ stop.kind = .stopIteration
  · -- the `RuntimeError` that replaces it has it as its cause
    obtain ⟨stop, rfl, hkind⟩ := hstop
    have hleaves : (Raised.object stop).leavesGenerator = .generatorRaised stop := if_pos hkind
    rw [hleaves]
    constructor
    · rintro (h | h)
      · cases h
      · simp only [Raised.causeIs, Bool.and_eq_true, decide_eq_true_eq] at h
        exact .inl h.2.symm
    · rintro (h | ⟨-, h, -⟩)
      · cases h
        right
        simp [Raised.isRuntimeError, Raised.isStopIteration, Raised.causeIs, hkind]
      · simp [Raised.isRuntimeError, hkind] at h
  · have hleaves : r.leavesGenerator = r := by
      unfold Raised.leavesGenerator
      split
      · next stop =>
        rw [if_neg]
        intro hkind
        exact hstop ⟨stop, rfl, hkind⟩
      · rfl
    rw [hleaves]
    simp only [Raised.isStopIteration, Bool.and_eq_true, decide_eq_true_eq]
    tauto

/-- `traced` is transparent exactly when the hooks keep what is in flight. -/
theorem traced_eq_iff_outcomeKept : traced pyNone hooks name (called fn) = called fn ↔
    OutcomeKept fn (inFlight (raisedBy fn) (enteredHooks hooks name)) := by
  have hgen : ∀ x, spanGenerator hooks name x =
      (inFlight x (enteredHooks hooks name)).map Raised.leavesGenerator := by
    intro x
    rw [spanGenerator, leave_exitStack]
  cases fn with
  | ok result =>
    simp only [called, Except.mapError, traced, span, Manager.leave, generatorExit, hgen, raisedBy,
      OutcomeKept]
    cases inFlight none (enteredHooks hooks name) <;> simp
  | error e =>
    simp only [called, Except.mapError, traced, span, Manager.leave, generatorExit, hgen, raisedBy,
      OutcomeKept]
    cases inFlight (some (Raised.object e)) (enteredHooks hooks name) with
    | none => simp
    | some r =>
      simp only [Option.map_some, Option.some.injEq, exists_eq_left']
      rw [← leavesGenerator_kept]
      generalize r.leavesGenerator = r'
      by_cases hr : r' = .object e
      · simp [hr]
      · by_cases hc : (r'.isRuntimeError && (Raised.object e).isStopIteration &&
            r'.causeIs (.object e)) = true
        · rw [if_neg hr, if_pos hc]
          simp only [hc, or_true]
        · rw [if_neg hr, if_neg hc]
          simp [hc, hr]

/-- **Spans.** `traced` is transparent exactly when the outermost hook that does not answer a false
value restores what the function did. -/
theorem traced_eq_iff : traced pyNone hooks name (called fn) = called fn ↔
    ∀ m y, Outermost (raisedBy fn) (enteredHooks hooks name) m y → Restores m y fn := by
  rw [traced_eq_iff_outcomeKept, inFlight_iff (outcomeKept_raisedBy fn)]
  constructor
  · intro h m y hm
    obtain ⟨_, _, _, _, hne, _⟩ := id hm
    exact (outcomeKept_leave hne).1 (h m y hm)
  · intro h m y hm
    obtain ⟨_, _, _, _, hne, _⟩ := id hm
    exact (outcomeKept_leave hne).2 (h m y hm)

/-! ## Audit records -/

/-- A dictionary that can be expanded: its keys are strings other than `event`. -/
def ExpandableDict (d : List (Option String × V)) : Prop :=
  ∀ kv ∈ d, ∃ k, kv.1 = some k ∧ k ≠ "event"

/-- The expansion succeeds exactly then. -/
theorem expandKeywords_ok {d : List (Option String × V)} :
    (∃ data, expandKeywords d = .ok data) ↔ ExpandableDict d := by
  induction d with
  | nil => simp [expandKeywords, ExpandableDict]
  | cons kv d ih =>
    obtain ⟨k, v⟩ := kv
    have hcons : ExpandableDict ((k, v) :: d) ↔
        (∃ k', k = some k' ∧ k' ≠ "event") ∧ ExpandableDict d := by
      simp [ExpandableDict]
    rw [hcons, ← ih]
    cases k with
    | none => simp [expandKeywords]
    | some k =>
      by_cases hk : k = "event"
      · simp [expandKeywords, hk]
      · simp only [expandKeywords, List.foldr_cons, Option.some.injEq, exists_eq_left', ne_eq, hk,
          not_false_eq_true, true_and]
        generalize List.foldr _ _ d = rest
        cases rest <;> simp [Except.map]

/-- An assignment keeps the keys that there are and adds its own. -/
theorem expandableDict_setItem {d : List (Option String × V)} {k : Option String} {v : V} :
    ExpandableDict (setItem d k v) ↔
      ExpandableDict d ∧ ∃ k', k = some k' ∧ k' ≠ "event" := by
  have hkeys : ∀ kv : Option String × V, (if kv.1 = k then (k, v) else kv).1 = kv.1 := by
    intro kv
    split
    · next h => exact h.symm
    · rfl
  unfold setItem ExpandableDict
  split
  · next hk =>
    simp only [Bool.and_eq_true, List.any_eq_true, decide_eq_true_eq] at hk
    obtain ⟨-, kv, hkv, rfl⟩ := hk
    simp only [List.forall_mem_map, hkeys]
    exact ⟨fun h => ⟨h, h kv hkv⟩, fun h => h.1⟩
  · simp only [List.forall_mem_append, List.mem_singleton, forall_eq]

/-- One turn of the comprehension ends with a dictionary that can be expanded exactly when it began
with one and its item is admissible. -/
theorem describeItem_ok {d : List (Option String × V)}
    {item : Except AnyException (Key × Option V)} :
    (∃ d', describeItem d item = .ok d' ∧ ExpandableDict d') ↔
      ExpandableDict d ∧ ∃ kv, item = .ok kv ∧ Admissible kv := by
  cases item with
  | error e => simp [describeItem, bind, Except.bind]
  | ok kv =>
    match kv with
    | (_, none) => simp [describeItem, bind, Except.bind, pure, Except.pure, Admissible]
    | (.str k, some v) =>
      by_cases hk : k = "outcome"
      · have hevent : k ≠ "event" := by
          rintro rfl
          exact absurd hk (by decide)
        simp [describeItem, bind, Except.bind, pure, Except.pure, Admissible, hk]
      · simp [describeItem, bind, Except.bind, pure, Except.pure, Admissible, hk,
          expandableDict_setItem]
    | (.object differs stored, some v) =>
      cases differs with
      | error e => simp [describeItem, bind, Except.bind, Admissible]
      | ok b =>
        cases b with
        | false => simp [describeItem, bind, Except.bind, pure, Except.pure, Admissible]
        | true =>
          cases stored <;>
            simp [describeItem, bind, Except.bind, pure, Except.pure, Admissible,
              expandableDict_setItem]

/-- So does the whole comprehension. -/
theorem foldlM_describeItem_ok {items : List (Except AnyException (Key × Option V))}
    {d : List (Option String × V)} :
    (∃ d', items.foldlM describeItem d = .ok d' ∧ ExpandableDict d') ↔
      ExpandableDict d ∧ ∀ item ∈ items, ∃ kv, item = .ok kv ∧ Admissible kv := by
  induction items generalizing d with
  | nil => simp [pure, Except.pure]
  | cons item items ih =>
    rw [List.foldlM_cons, List.forall_mem_cons, ← and_assoc, ← describeItem_ok]
    cases hitem : describeItem d item with
    | error e => simp [bind, Except.bind]
    | ok d' =>
      have h := @ih d'
      simpa [bind, Except.bind] using h

/-- What is described can be expanded exactly when describe is absent, raises, or returns something
that can. -/
theorem described_ok (describe : Option (R → Except AnyException (Attributes V))) (result : R) :
    (∃ d, described describe result = .ok d ∧ ExpandableDict d) ↔
      ∀ f ∈ describe, ∀ attributes, f result = .ok attributes → attributes.Expandable := by
  have hempty : ExpandableDict ([] : List (Option String × V)) := nofun
  cases describe with
  | none => simp [described, hempty]
  | some f =>
    simp only [described, Option.mem_def, Option.some.injEq, forall_eq']
    cases f result with
    | error e => simp [hempty]
    | ok attributes =>
      simp only [Except.ok.injEq, forall_eq', Attributes.Expandable]
      cases attributes.items with
      | error e => simp [bind, Except.bind]
      | ok items =>
        have h := @foldlM_describeItem_ok _ items []
        simpa [bind, Except.bind, hempty] using h

/-- **Audit records.** `audited` is transparent exactly when the function raised or what is
described can be expanded. -/
theorem audited_eq_iff {hooks : List (AuditHook V ω)} {event : String} :
    (audited hooks str event describe (called fn)).1 = called fn ↔
      ∀ f ∈ describe, ∀ result, fn = .ok result →
        ∀ attributes, f result = .ok attributes → attributes.Expandable := by
  cases fn with
  | error e =>
    simp only [called, Except.mapError, audited]
    split <;> simp
  | ok result =>
    have hmem : (∀ f ∈ describe, ∀ r, (Except.ok result : Except PyException R) = .ok r →
        ∀ attributes, f r = .ok attributes → attributes.Expandable) ↔
          ∀ f ∈ describe, ∀ attributes, f result = .ok attributes → attributes.Expandable := by
      simp
    rw [hmem, ← described_ok]
    simp only [called, Except.mapError, audited]
    cases described describe result with
    | error e => simp
    | ok d =>
      simp only [Except.ok.injEq, exists_eq_left', ← expandKeywords_ok]
      cases expandKeywords d <;> simp

/-! ## Stacks of decorators -/

/-- A decorator leaves what the function did alone exactly under its condition. -/
theorem Layer.wrap_eq_iff {L : Layer R V ω} :
    L.wrap pyNone str (called fn) = called fn ↔ L.Transparent fn := by
  cases L with
  | traced hooks name => exact traced_eq_iff
  | audited hooks event describe => exact audited_eq_iff

/-- Decorators that all leave it alone do so together. -/
theorem wrapped_eq {layers : List (Layer R V ω)} (h : ∀ L ∈ layers, L.Transparent fn) :
    wrapped pyNone str layers (called fn) = called fn := by
  induction layers with
  | nil => rfl
  | cons L layers ih =>
    have hinner := ih fun L' hL' => h L' (List.mem_cons_of_mem _ hL')
    rw [wrapped, List.foldr_cons]
    rw [wrapped] at hinner
    rw [hinner]
    exact Layer.wrap_eq_iff.2 (h L List.mem_cons_self)

/-- **When telemetry does not change a business result.** However a function is wrapped in some of
the decorators, the wrapped call returns and raises what the function does, exactly when each
decorator meets its condition on what the function does. -/
theorem telemetry_transparent_iff (layers : List (Layer R V ω)) :
    (∀ sub, sub.Sublist layers → wrapped pyNone str sub (called fn) = called fn) ↔
      ∀ L ∈ layers, L.Transparent fn := by
  constructor
  · intro h L hL
    exact Layer.wrap_eq_iff.1 (h [L] (List.singleton_sublist.2 hL))
  · intro h sub hsub
    exact wrapped_eq fun L hL => h L (hsub.subset hL)

/-- A span hook that is created and entered and fails when it is left. -/
def brokenExit : SpanHook := fun _ =>
  let broken : Raised := .object ⟨0, "RuntimeError", .runtimeError, none⟩
  .ok (some { enter := .ok (), exit := fun _ => .error broken })

/-- Under it a function that returns 7 raises. -/
theorem telemetry_not_transparent :
    ¬ ∀ (layers : List (Layer (Option Nat) String Unit)) (fn : Except PyException (Option Nat)),
      wrapped none id layers (called fn) = called fn := by
  intro h
  have hbroken := h [.traced [brokenExit] "step"] (.ok (some 7))
  revert hbroken
  decide

end Aeropass
