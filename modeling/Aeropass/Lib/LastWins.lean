import Mathlib.Data.List.Basic

/-!
# The last setting wins

Items of which some set a value, read in order: a later setting replaces an earlier one, and a
default stands where there is none.
-/

section
variable {α β : Type*} (f : α → Option β)

/-- The last value that is set. -/
def lastSet (xs : List α) : Option β := (xs.filterMap f).getLast?

namespace lastSet

@[simp] theorem nil : lastSet f [] = none := rfl

theorem append (xs ys : List α) : lastSet f (xs ++ ys) = (lastSet f ys).or (lastSet f xs) := by
  rw [lastSet, List.filterMap_append, List.getLast?_append]
  rfl

/-- The last value of a list, or that of its head. -/
theorem cons (x : α) (xs : List α) : lastSet f (x :: xs) = (lastSet f xs).or (f x) := by
  have hone : lastSet f [x] = f x := by
    unfold lastSet
    cases hx : f x with
    | none => rw [List.filterMap_cons_none hx]; rfl
    | some b => rw [List.filterMap_cons_some hx]; rfl
  rw [← hone, ← append]
  rfl

/-- One item more, in a loop that starts from a default. -/
theorem getD_cons (x : α) (xs : List α) (d : β) :
    (lastSet f (x :: xs)).getD d = (lastSet f xs).getD ((f x).getD d) := by
  rw [cons, Option.getD_or]

/-- What is set comes from an item. -/
theorem mem {xs : List α} {b : β} (h : lastSet f xs = some b) : ∃ x ∈ xs, f x = some b :=
  List.mem_filterMap.1 (List.mem_of_getLast? h)

/-- A value is set when an item sets one. -/
theorem isSome_iff {xs : List α} : (lastSet f xs).isSome ↔ ∃ x ∈ xs, (f x).isSome := by
  induction xs with
  | nil => simp
  | cons x xs ih =>
    rw [cons, Option.isSome_or, Bool.or_eq_true, ih, List.exists_mem_cons_iff, or_comm]

/-- Items that set nothing do not matter. -/
theorem filter {p : α → Bool} {xs : List α} (h : ∀ x ∈ xs, (f x).isSome → p x = true) :
    lastSet f (xs.filter p) = lastSet f xs := by
  induction xs with
  | nil => rfl
  | cons x xs ih =>
    rw [List.forall_mem_cons] at h
    rw [List.filter_cons]
    split
    · rw [cons, cons, ih h.2]
    · next hp =>
      have hx : f x = none := Option.not_isSome_iff_eq_none.1 fun hx => hp (h.1 hx)
      rw [cons, hx, ih h.2, Option.or_none]

end lastSet

end
