import Mathlib.Tactic.Common

/-!
# A shared cell

A cell that many read and write, with the number of its writes. A reader remembers the cell as it
saw it: as long as the numbers agree nobody has written since, and the value is still the one seen
(`Earlier`). The number is for statements only, no program reads it.
-/

/-- A value and how often it was written. -/
structure Cell (α : Type*) where
  value : α
  writes : Nat
  deriving DecidableEq

namespace Cell

variable {α : Type*} {c c' c'' : Cell α}

/-- The cell after a write. -/
def write (c : Cell α) (a : α) : Cell α := ⟨a, c.writes + 1⟩

@[simp] theorem write_value (c : Cell α) (a : α) : (c.write a).value = a := rfl

@[simp] theorem write_writes (c : Cell α) (a : α) : (c.write a).writes = c.writes + 1 := rfl

/-- What was seen of the cell at some time: the same, unless it was written since. -/
structure Earlier (c c' : Cell α) : Prop where
  writes : c.writes ≤ c'.writes
  value : c.writes = c'.writes → c.value = c'.value

theorem Earlier.refl (c : Cell α) : Earlier c c := ⟨Nat.le_refl _, fun _ => rfl⟩

theorem Earlier.trans (h : Earlier c c') (h' : Earlier c' c'') : Earlier c c'' := by
  refine ⟨Nat.le_trans h.writes h'.writes, fun heq => ?_⟩
  have h1 := h.writes
  have h2 := h'.writes
  exact (h.value (by omega)).trans (h'.value (by omega))

theorem earlier_write (c : Cell α) (a : α) : Earlier c (c.write a) := by
  refine ⟨Nat.le_succ _, fun heq => ?_⟩
  simp only [write_writes] at heq
  omega

/-- What was seen before a write is not the cell after it. -/
theorem Earlier.ne_write (h : Earlier c c') (a : α) : c.writes ≠ (c'.write a).writes := by
  have := h.writes
  simp only [write_writes]
  omega

end Cell
