import Mathlib.Tactic.Common

/-!
# Context managers and their stack

What leaving a context manager does with the exception in flight (`Manager.leave`), leaving nested
`with` statements (`inFlight`), and the loop of `contextlib.ExitStack.__exit__` with its two flags
(`exitStack`). The stack is again a manager, and leaving it is leaving the nested statements
(`leave_exitStack`). What is in flight outside of all of them is decided by the outermost manager
that does not answer a false value (`inFlight_iff`).
-/

namespace ExitStack

variable {ε : Type*}

/-- A context manager that was entered: its `__exit__` on the exception in flight answers whether to
suppress it, or raises. -/
structure Manager (ε : Type*) where
  exit : Option ε → Except ε Bool

/-- The exception in flight after the manager is left. -/
def Manager.leave (m : Manager ε) (x : Option ε) : Option ε :=
  match m.exit x with
  | .error e => some e
  | .ok true => none
  | .ok false => x

/-- The exception in flight after nested `with` statements are left; the outermost comes first. -/
def inFlight (x : Option ε) : List (Manager ε) → Option ε
  | [] => x
  | m :: inner => m.leave (inFlight x inner)

/-- `exc`, `suppressed_exc` and `pending_raise` in the loop of `ExitStack.__exit__`. -/
structure State (ε : Type*) where
  exc : Option ε
  suppressedExc : Bool := false
  pendingRaise : Bool := false

/-- The body of the loop: one callback. -/
def State.step (m : Manager ε) (st : State ε) : State ε :=
  match m.exit st.exc with
  | .error e => { st with exc := some e, pendingRaise := true }
  | .ok true => { exc := none, suppressedExc := true, pendingRaise := false }
  | .ok false => st

/-- `ExitStack.__exit__` with the managers that were entered, first to last; they are left last to
first. -/
def exitStack (entered : List (Manager ε)) (x : Option ε) : Except ε Bool :=
  let st := entered.foldr State.step { exc := x }
  match st.pendingRaise, st.exc with
  | true, some e => .error e
  | _, _ => .ok (x.isSome && st.suppressedExc)

variable {x y : Option ε} {m : Manager ε} {ms : List (Manager ε)}

/-- The flags say where the exception in flight comes from. -/
structure State.OK (x : Option ε) (st : State ε) : Prop where
  raised : st.pendingRaise = true → st.exc.isSome
  suppressed : st.pendingRaise = false → st.suppressedExc = true → st.exc = none
  received : st.pendingRaise = false → st.suppressedExc = false → st.exc = x

/-- One callback keeps the flags right and leaves its manager. -/
theorem State.OK.step {st : State ε} (h : st.OK x) (m : Manager ε) :
    (st.step m).OK x ∧ (st.step m).exc = m.leave st.exc := by
  unfold State.step Manager.leave
  split
  · exact ⟨⟨fun _ => rfl, nofun, nofun⟩, rfl⟩
  · exact ⟨⟨nofun, fun _ _ => rfl, nofun⟩, rfl⟩
  · exact ⟨h, rfl⟩

/-- The loop leaves the nested statements. -/
theorem foldr_step (x : Option ε) (ms : List (Manager ε)) :
    (ms.foldr State.step { exc := x }).OK x ∧
      (ms.foldr State.step { exc := x }).exc = inFlight x ms := by
  induction ms with
  | nil => exact ⟨⟨nofun, nofun, fun _ _ => rfl⟩, rfl⟩
  | cons m inner ih =>
    obtain ⟨hok, hexc⟩ := ih
    obtain ⟨hok', hexc'⟩ := hok.step m
    exact ⟨hok', hexc'.trans (congrArg m.leave hexc)⟩

/-- **The stack is nested `with` statements.** -/
theorem leave_exitStack (x : Option ε) (ms : List (Manager ε)) :
    (Manager.mk (exitStack ms)).leave x = inFlight x ms := by
  obtain ⟨hok, hexc⟩ := foldr_step x ms
  rw [← hexc]
  simp only [Manager.leave, exitStack]
  generalize ms.foldr State.step { exc := x } = st at hok
  cases hp : st.pendingRaise with
  | true =>
    obtain ⟨e, he⟩ := Option.isSome_iff_exists.1 (hok.raised hp)
    simp only [he]
  | false =>
    cases hs : st.suppressedExc with
    | true =>
      rw [hok.suppressed hp hs]
      cases x <;> rfl
    | false =>
      rw [hok.received hp hs]
      simp only [Bool.and_false]

/-! ## The outermost answer -/

/-- `m`, given the exception `y`, is the outermost manager that does not answer a false value. -/
def Outermost (x : Option ε) (ms : List (Manager ε)) (m : Manager ε) (y : Option ε) : Prop :=
  ∃ outer inner, ms = outer ++ m :: inner ∧ y = inFlight x inner ∧ m.exit y ≠ .ok false ∧
    ∀ k ∈ outer, k.exit (m.leave y) = .ok false

theorem Manager.leave_of_silent (h : m.exit x = .ok false) : m.leave x = x := by
  simp only [leave, h]

/-- Managers that answer false values leave the exception in flight. -/
theorem inFlight_append_of_silent {outer : List (Manager ε)}
    (h : ∀ k ∈ outer, k.exit (inFlight x ms) = .ok false) :
    inFlight x (outer ++ ms) = inFlight x ms := by
  induction outer with
  | nil => rfl
  | cons k outer ih =>
    have htail := ih fun k' hk' => h k' (List.mem_cons_of_mem _ hk')
    rw [List.cons_append, inFlight, htail]
    exact Manager.leave_of_silent (h k List.mem_cons_self)

/-- It decides what is in flight outside. -/
theorem Outermost.inFlight_eq (h : Outermost x ms m y) : inFlight x ms = m.leave y := by
  obtain ⟨outer, inner, rfl, rfl, -, hsilent⟩ := h
  exact inFlight_append_of_silent hsilent

/-- All managers answer false values, or there is an outermost one that does not. -/
theorem silent_or_outermost (x : Option ε) (ms : List (Manager ε)) :
    inFlight x ms = x ∨ ∃ m y, Outermost x ms m y := by
  induction ms with
  | nil => exact .inl rfl
  | cons k inner ih =>
    by_cases hk : k.exit (inFlight x inner) = .ok false
    · rcases ih with hx | ⟨m, y, hm⟩
      · left
        rw [inFlight, Manager.leave_of_silent hk, hx]
      · right
        rw [hm.inFlight_eq] at hk
        obtain ⟨outer, rest, rfl, hy, hne, hsilent⟩ := hm
        refine ⟨m, y, k :: outer, rest, rfl, hy, hne, ?_⟩
        intro k' hk'
        rcases List.mem_cons.1 hk' with rfl | hk'
        · exact hk
        · exact hsilent k' hk'
    · exact .inr ⟨k, _, [], inner, rfl, rfl, hk, nofun⟩

/-- What holds of the exception in flight at the start holds of the one outside exactly when the
outermost manager that does not answer a false value restores it. -/
theorem inFlight_iff {P : Option ε → Prop} (hx : P x) :
    P (inFlight x ms) ↔ ∀ m y, Outermost x ms m y → P (m.leave y) := by
  constructor
  · intro h m y hm
    rwa [← hm.inFlight_eq]
  · intro h
    rcases silent_or_outermost x ms with heq | ⟨m, y, hm⟩
    · rwa [heq]
    · rw [hm.inFlight_eq]
      exact h m y hm

end ExitStack
