import Mathlib.Data.List.Induction
import Mathlib.Data.List.Nodup

/-!
# Receivers that keep the first message of each key

What is sent at least once arrives any number of times. A receiver that keeps the first message of
each key (`received`) has each key once, and misses no key. If messages of one key are equal, it has
exactly the messages that were sent, each once (`received_perm`).
-/

namespace Inbox

variable {μ κ : Type*} [DecidableEq κ] {key : μ → κ}

/-- Keep a message unless one of its key was kept. -/
def receive (key : μ → κ) (inbox : List μ) (m : μ) : List μ :=
  if key m ∈ inbox.map key then inbox else inbox ++ [m]

/-- What is kept of the messages, in the order they arrive. -/
def received (key : μ → κ) (ms : List μ) : List μ := ms.foldl (receive key) []

@[simp] theorem received_nil : received key [] = [] := rfl

theorem received_snoc (ms : List μ) (m : μ) :
    received key (ms ++ [m]) = receive key (received key ms) m := by
  simp [received, List.foldl_append]

/-- The keys kept are distinct. -/
theorem received_nodup (ms : List μ) : ((received key ms).map key).Nodup := by
  induction ms using List.reverseRecOn with
  | nil => exact List.nodup_nil
  | append_singleton ms m ih =>
    rw [received_snoc, receive]
    split
    · exact ih
    · next hnew =>
      rw [List.map_append, List.nodup_append']
      refine ⟨ih, List.nodup_singleton _, fun k hk hk' => hnew ?_⟩
      rw [List.map_singleton, List.mem_singleton] at hk'
      exact hk' ▸ hk

/-- Only messages that arrived are kept. -/
theorem received_subset (ms : List μ) : received key ms ⊆ ms := by
  induction ms using List.reverseRecOn with
  | nil => exact List.Subset.refl _
  | append_singleton ms m ih =>
    rw [received_snoc, receive]
    split
    · exact List.Subset.trans ih (List.subset_append_left ..)
    · exact List.append_subset.2 ⟨List.Subset.trans ih (List.subset_append_left ..),
        List.subset_append_right ..⟩

/-- No key is missed. -/
theorem mem_received_key (key : μ → κ) {ms : List μ} {m : μ} (hm : m ∈ ms) :
    key m ∈ (received key ms).map key := by
  induction ms using List.reverseRecOn with
  | nil => cases hm
  | append_singleton ms x ih =>
    rw [received_snoc, receive]
    rcases List.mem_append.1 hm with hm | hm
    · split
      · exact ih hm
      · rw [List.map_append]
        exact List.mem_append_left _ (ih hm)
    · obtain rfl := List.mem_singleton.1 hm
      split
      · assumption
      · rw [List.map_append]
        exact List.mem_append_right _ (List.mem_singleton.2 rfl)

/-- What was kept stays, whatever arrives later. -/
theorem received_append (ms ms' : List μ) : received key ms <+: received key (ms ++ ms') := by
  induction ms' using List.reverseRecOn with
  | nil => exact ⟨[], by simp only [List.append_nil]⟩
  | append_singleton ms' m ih =>
    rw [← List.append_assoc, received_snoc, receive]
    split
    · exact ih
    · exact ih.trans (List.prefix_append ..)

/-- When messages of one key are equal, exactly the messages that arrived are kept, each once. -/
theorem received_perm {ms l : List μ} (hkey : ∀ m ∈ ms, ∀ m' ∈ ms, key m = key m' → m = m')
    (hl : l.Nodup) (hms : ∀ m, m ∈ l ↔ m ∈ ms) : (received key ms).Perm l := by
  refine (List.perm_ext_iff_of_nodup (received_nodup ms).of_map hl).2 fun m => ?_
  rw [hms]
  refine ⟨fun hm => received_subset ms hm, fun hm => ?_⟩
  obtain ⟨m', hm', hk⟩ := List.mem_map.1 (mem_received_key key hm)
  have heq : m' = m := hkey m' (received_subset ms hm') m hm hk
  exact heq ▸ hm'

end Inbox
