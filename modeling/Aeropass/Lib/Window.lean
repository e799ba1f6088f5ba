import Mathlib.Data.List.Induction

/-!
# Restarting windows

Events are counted in windows. A window starts with its first event; an event that comes too late
after that start opens a new window and is its first one (`push`). So no event of a window comes too
late after its first (`Within.push`); an event that restarts it drops all earlier ones, however
close they are.
-/

namespace Window

variable {τ : Type*} {late : τ → τ → Prop} [DecidableRel late] {t : τ} {win : List τ}

/-- The window after one more event. -/
def push (late : τ → τ → Prop) [DecidableRel late] (win : List τ) (t : τ) : List τ :=
  match win with
  | [] => [t]
  | first :: rest => if late first t then [t] else first :: (rest ++ [t])

/-- No event of the window comes too late after its first. -/
def Within (late : τ → τ → Prop) : List τ → Prop
  | [] => True
  | first :: rest => ∀ t ∈ rest, ¬ late first t

@[simp] theorem push_nil : push late [] t = [t] := rfl

theorem push_cons (first : τ) (rest : List τ) :
    push late (first :: rest) t = if late first t then [t] else first :: (rest ++ [t]) := rfl

theorem push_ne_nil : push late win t ≠ [] := by
  cases win with
  | nil => simp
  | cons first rest => rw [push_cons]; split <;> simp

theorem length_push_pos : 1 ≤ (push late win t).length := List.length_pos_iff.2 push_ne_nil

/-- An event adds at most itself. -/
theorem length_push_le : (push late win t).length ≤ win.length + 1 := by
  cases win with
  | nil => simp
  | cons first rest => rw [push_cons]; split <;> simp

/-- One more event leaves a window a window. -/
theorem Within.push (h : Within late win) : Within late (push late win t) := by
  cases win with
  | nil => simp [Within]
  | cons first rest =>
    rw [push_cons]
    split
    · simp [Within]
    · next hlate =>
      intro u hu
      rcases List.mem_append.1 hu with hu | hu
      · exact h u hu
      · rw [List.mem_singleton.1 hu]
        exact hlate

end Window
