import Aeropass.Lib.Runs

/-!
# Logs of attempted transitions

A machine with states `S` records every attempted transition in a log: the state before, the state
requested and whether it was accepted. `replay` recomputes the state from the accepted entries, and
a log is `Faithful` when each entry names the state replayed from the entries before it and was
accepted exactly when the table `allowed` permits it. A faithful log stays so under one more
faithful entry (`faithful_snoc`), and nothing is accepted after a state that permits nothing
(`Faithful.rejected_after`).
-/

/-- A machine with a transition table, and how its log entries are read. -/
structure AuditLog (τ S : Type*) where
  previous : τ → Option S
  requested : τ → S
  accepted : τ → Bool
  /-- May the machine go to the second state; from no state at all, when the first is `none`. -/
  allowed : Option S → S → Bool

namespace AuditLog

variable {τ S : Type*} (M : AuditLog τ S)

/-- The state after one more entry. -/
def advance (st : Option S) (e : τ) : Option S :=
  if M.accepted e then some (M.requested e) else st

/-- The state the accepted entries of a log lead to. -/
def replay (l : List τ) : Option S := l.foldl M.advance none

/-- Every entry names the state replayed from the entries before it, and was accepted exactly when
the table allows it. -/
def Faithful (l : List τ) : Prop :=
  ∀ pre e post, l = pre ++ e :: post →
    M.previous e = M.replay pre ∧ M.accepted e = M.allowed (M.replay pre) (M.requested e)

variable {M}

@[simp] theorem replay_nil : M.replay [] = none := rfl

/-- The last entry decides, unless it was rejected. -/
@[simp] theorem replay_snoc (l : List τ) (e : τ) :
    M.replay (l ++ [e]) = if M.accepted e then some (M.requested e) else M.replay l := by
  simp [replay, advance]

theorem faithful_nil : M.Faithful [] := by
  intro pre e post h
  simp at h

/-- A faithful log with one more faithful entry. -/
theorem faithful_snoc {l : List τ} {e : τ} :
    M.Faithful (l ++ [e]) ↔ M.Faithful l ∧ M.previous e = M.replay l ∧
      M.accepted e = M.allowed (M.replay l) (M.requested e) := by
  constructor
  · intro h
    refine ⟨fun pre e' post he => ?_, h l e [] rfl⟩
    exact h pre e' (post ++ [e]) (by rw [he]; simp)
  · rintro ⟨h, he⟩ pre e' post heq
    rcases Runs.snoc_eq_append_cons heq with ⟨rfl, rfl, -⟩ | ⟨post', -, rfl⟩
    · exact he
    · exact h pre e' post' rfl

/-- Nothing is accepted after a state from which the table allows nothing, and the log stays at
that state. -/
theorem Faithful.rejected_after {l l' : List τ} {s : S} (h : M.Faithful (l ++ l'))
    (hs : M.replay l = some s) (hfinal : ∀ t, M.allowed (some s) t = false) :
    (∀ e ∈ l', M.accepted e = false) ∧ M.replay (l ++ l') = some s := by
  induction l' using List.reverseRecOn with
  | nil => simp [hs]
  | append_singleton l' e ih =>
    rw [← List.append_assoc, faithful_snoc] at h
    obtain ⟨hall, hrep⟩ := ih h.1
    have hrej : M.accepted e = false := by rw [h.2.2, hrep, hfinal]
    refine ⟨fun e' he' => ?_, ?_⟩
    · rcases List.mem_append.1 he' with he' | he'
      · exact hall e' he'
      · rw [List.mem_singleton.1 he']; exact hrej
    · rw [← List.append_assoc, replay_snoc, hrej]
      simpa using hrep

/-- A state is replayed only if some accepted entry requested it. -/
theorem exists_of_replay {l : List τ} {s : S} (h : M.replay l = some s) :
    ∃ e ∈ l, M.accepted e = true ∧ M.requested e = s := by
  induction l using List.reverseRecOn with
  | nil => simp at h
  | append_singleton l e ih =>
    rw [replay_snoc] at h
    split at h
    · next ha => exact ⟨e, by simp, ha, by simpa using h⟩
    · obtain ⟨e', he', h'⟩ := ih h
      exact ⟨e', by simp [he'], h'⟩

/-- A log starts as it goes on. -/
theorem Faithful.of_prefix {l l' : List τ} (h : M.Faithful l') (hl : l <+: l') : M.Faithful l := by
  obtain ⟨rest, rfl⟩ := hl
  intro pre e post heq
  exact h pre e (post ++ rest) (by rw [heq]; simp)

/-! ## Logs that show less of their entries -/

variable {τ' : Type*} {M' : AuditLog τ' S} {f : τ → τ'}

/-- Entries that show what they requested and whether it was accepted replay alike. -/
theorem replay_map (hreq : ∀ e, M'.requested (f e) = M.requested e)
    (hacc : ∀ e, M'.accepted (f e) = M.accepted e) (l : List τ) :
    M'.replay (l.map f) = M.replay l := by
  induction l using List.reverseRecOn with
  | nil => rfl
  | append_singleton l e ih =>
    rw [List.map_append, List.map_singleton, replay_snoc, replay_snoc, hreq, hacc, ih]

/-- With the state they found, and the same table, they are as faithful. -/
theorem Faithful.map {l : List τ} (h : M.Faithful l)
    (hprev : ∀ e, M'.previous (f e) = M.previous e)
    (hreq : ∀ e, M'.requested (f e) = M.requested e)
    (hacc : ∀ e, M'.accepted (f e) = M.accepted e) (hall : M'.allowed = M.allowed) :
    M'.Faithful (l.map f) := by
  intro pre e post heq
  obtain ⟨l₁, l₂, rfl, rfl, hl₂⟩ := List.map_eq_append_iff.1 heq
  obtain ⟨e₀, post₀, rfl, rfl, rfl⟩ := List.map_eq_cons_iff.1 hl₂
  obtain ⟨hp, ha⟩ := h l₁ e₀ post₀ rfl
  rw [replay_map hreq hacc, hprev, hreq, hacc, hall]
  exact ⟨hp, ha⟩

end AuditLog
