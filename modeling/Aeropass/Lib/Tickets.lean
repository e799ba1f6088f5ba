import Aeropass.Lib.Runs
import Mathlib.Data.Finset.Dedup
import Mathlib.Logic.Function.Basic
import Mathlib.Order.Defs.LinearOrder

/-!
# A ticket office

A ticket is issued for a key and ends once: it is used before the instant at which it is due, lapses
from then on, or is withdrawn. To issue one for a key ends the live one of the key. Each operation
is atomic and answers what it found; `Office.step` replays an entry of the office's log, and a log
is a run of `Office.step`. Once an entry has said how a ticket ended, every later one says the
same (`found_of_ended`).
-/

namespace Tickets

open Runs

variable {ι κ τ : Type*}

/-- What became of a ticket. -/
inductive Fate where
  | live | used | lapsed | withdrawn
  deriving DecidableEq, Repr

/-- A ticket of a key, due at an instant. -/
structure Ticket (κ τ : Type*) where
  key : κ
  due : τ
  fate : Fate

/-- The tickets of an office. -/
abbrev Office (ι κ τ : Type*) := ι → Option (Ticket κ τ)

/-- What an office is asked for. `void` issues a ticket that is withdrawn at once, and `look` is
for the tickets of some keys only. -/
inductive Op (ι κ τ : Type*) where
  | issue (id : ι) (key : κ) (due : τ)
  | void (id : ι) (key : κ) (due : τ)
  | use (id : ι)
  | withdraw (id : ι)
  | look (id : ι) (mine : κ → Bool)
  | lapse (ids : List ι)

/-- What it answers: what it found of the ticket, or how many have lapsed. -/
inductive Answer where
  | done
  | absent
  | found (fate : Fate)
  | lapsed (n : Nat)
  deriving DecidableEq, Repr

/-- An entry of the log: who asked, at which instant, for what, and the answer. -/
structure Entry (ι κ τ : Type*) where
  caller : Nat
  now : τ
  op : Op ι κ τ
  answer : Answer

section
variable [LinearOrder τ]

/-- A live ticket that is due has lapsed. -/
def Ticket.settle (now : τ) (t : Ticket κ τ) : Ticket κ τ :=
  if t.fate = .live ∧ t.due ≤ now then { t with fate := .lapsed } else t

/-- Ends a ticket that is still live. -/
def Ticket.close (now : τ) (fate : Fate) (t : Ticket κ τ) : Ticket κ τ :=
  if (t.settle now).fate = .live then { t.settle now with fate } else t.settle now

variable {t : Ticket κ τ} {now : τ} {fate : Fate}

theorem Ticket.settle_of_due (hl : t.fate = .live) (hd : t.due ≤ now) :
    t.settle now = { t with fate := .lapsed } := if_pos ⟨hl, hd⟩

theorem Ticket.settle_of_lt (hd : now < t.due) : t.settle now = t :=
  if_neg fun h => not_le.2 hd h.2

theorem Ticket.settle_of_ended (hl : t.fate ≠ .live) : t.settle now = t :=
  if_neg fun h => hl h.1

theorem Ticket.close_of_due (hl : t.fate = .live) (hd : t.due ≤ now) :
    t.close now fate = { t with fate := .lapsed } := by
  rw [close, settle_of_due hl hd, if_neg (by simp)]

theorem Ticket.close_of_lt (hl : t.fate = .live) (hd : now < t.due) :
    t.close now fate = { t with fate } := by
  rw [close, settle_of_lt hd, if_pos hl]

theorem Ticket.close_of_ended (hl : t.fate ≠ .live) : t.close now fate = t := by
  rw [close, settle_of_ended hl, if_neg hl]

namespace Office
variable [DecidableEq ι] [DecidableEq κ]

/-- Ends the live tickets of a key. -/
def renew (s : Office ι κ τ) (now : τ) (key : κ) : Office ι κ τ :=
  fun id => (s id).map fun t => if t.key = key then t.close now .withdrawn else t

/-- Takes in a new ticket. -/
def take (s : Office ι κ τ) (now : τ) (id : ι) (t : Ticket κ τ) :
    Option (Answer × Office ι κ τ) :=
  if (s id).isSome then none
  else some (.done, Function.update (s.renew now t.key) id (some t))

/-- Answers what it finds of a ticket and changes it. -/
def visit (s : Office ι κ τ) (now : τ) (id : ι) (mine : κ → Bool)
    (change : Ticket κ τ → Ticket κ τ) : Answer × Office ι κ τ :=
  match s id with
  | none => (.absent, s)
  | some t =>
    if mine t.key then (.found (t.settle now).fate, Function.update s id (some (change t)))
    else (.absent, s)

/-- A live ticket that is due. -/
def Due (s : Office ι κ τ) (now : τ) (id : ι) : Prop :=
  ((s id).any fun t => t.fate = .live ∧ t.due ≤ now) = true

instance (s : Office ι κ τ) (now : τ) (id : ι) : Decidable (s.Due now id) :=
  inferInstanceAs (Decidable (_ = _))

/-- One operation. -/
def apply (s : Office ι κ τ) (now : τ) : Op ι κ τ → Option (Answer × Office ι κ τ)
  | .issue id key due => s.take now id ⟨key, due, .live⟩
  | .void id key due => s.take now id ⟨key, due, .withdrawn⟩
  | .use id => some (s.visit now id (fun _ => true) (.close now .used))
  | .withdraw id => some (s.visit now id (fun _ => true) (.close now .withdrawn))
  | .look id mine => some (s.visit now id mine (.settle now))
  | .lapse ids =>
    if ids.Nodup ∧ ∀ id ∈ ids, s.Due now id then
      some (.lapsed ids.length, fun id => if id ∈ ids then (s id).map (.settle now) else s id)
    else none

/-- One entry of the log: the operation gives the answer. -/
def step (s : Office ι κ τ) (e : Entry ι κ τ) : Option (Office ι κ τ) :=
  (s.apply e.now e.op).bind fun r => if r.1 = e.answer then some r.2 else none

variable {s s' : Office ι κ τ} {e : Entry ι κ τ} {id : ι}

/-- A log entry is a step if the office gives its answer. -/
theorem step_eq_some : s.step e = some s' ↔ s.apply e.now e.op = some (e.answer, s') := by
  unfold step
  rw [Option.bind_eq_some_iff]
  constructor
  · rintro ⟨r, hr, h⟩
    split at h <;> cases h
    next ha => rw [hr, ← ha]
  · intro h
    exact ⟨_, h, if_pos rfl⟩

/-! ## What the log says of a ticket -/

/-- The ticket has ended so. -/
def Ended (s : Office ι κ τ) (id : ι) (fate : Fate) : Prop :=
  fate ≠ .live ∧ ∃ t, s id = some t ∧ t.fate = fate

end Office

/-- The operation is about a ticket that is there. -/
def Op.About (id : ι) : Op ι κ τ → Prop
  | .use id' | .withdraw id' | .look id' _ => id' = id
  | _ => False

/-- How the ticket `id` has ended when the entry is over, where its answer says so. -/
def Entry.Says (id : ι) (fate : Fate) (e : Entry ι κ τ) : Prop :=
  match e.op, e.answer with
  | .use id', .found .live => id' = id ∧ fate = .used
  | .withdraw id', .found .live => id' = id ∧ fate = .withdrawn
  | .use id', .found f | .withdraw id', .found f | .look id' _, .found f =>
    id' = id ∧ fate = f ∧ f ≠ .live
  | _, _ => False

namespace Office
variable [DecidableEq ι] [DecidableEq κ] {s s' : Office ι κ τ} {e : Entry ι κ τ} {id : ι}
  {fate : Fate}

omit [DecidableEq κ] in
theorem visit_of_some {mine : κ → Bool} {change : Ticket κ τ → Ticket κ τ} {t : Ticket κ τ}
    (h : s id = some t) (hm : mine t.key = true) : s.visit now id mine change =
      (.found (t.settle now).fate, Function.update s id (some (change t))) := by
  rw [visit, h]
  exact if_pos hm

omit [DecidableEq κ] in
/-- An ended ticket stays as it is, and what is found of it is how it ended. -/
theorem visit_ended (h : s.Ended id fate) {id' : ι} {mine : κ → Bool}
    {change : Ticket κ τ → Ticket κ τ} (hc : ∀ t, t.fate ≠ .live → change t = t) :
    (s.visit now id' mine change).2.Ended id fate ∧
      (id' = id → (s.visit now id' mine change).1 = .absent ∨
        (s.visit now id' mine change).1 = .found fate) := by
  obtain ⟨hne, t, ht, rfl⟩ := h
  by_cases hid : id' = id
  · subst hid
    by_cases hm : mine t.key = true
    · rw [visit_of_some ht hm, Ticket.settle_of_ended hne]
      refine ⟨⟨hne, t, ?_, rfl⟩, fun _ => .inr rfl⟩
      rw [hc t hne]
      exact Function.update_self ..
    · have hv : s.visit now id' mine change = (.absent, s) := by
        rw [visit, ht]
        exact if_neg hm
      rw [hv]
      exact ⟨⟨hne, t, ht, rfl⟩, fun _ => .inl rfl⟩
  · refine ⟨⟨hne, t, ?_, rfl⟩, fun h => absurd h hid⟩
    unfold visit
    split
    · exact ht
    · split
      · exact (Function.update_of_ne (Ne.symm hid) ..).trans ht
      · exact ht

/-- A ticket that has ended stays as it is when others are admitted. -/
theorem admit_ended (h : s.Ended id fate) {id' : ι} {t : Ticket κ τ} {r : Answer × Office ι κ τ}
    (hr : s.take now id' t = some r) : r.2.Ended id fate := by
  obtain ⟨hne, t₀, ht₀, rfl⟩ := h
  unfold take at hr
  split at hr
  · cases hr
  next hfree =>
  cases hr
  have hid : id ≠ id' := by
    rintro rfl
    rw [ht₀] at hfree
    exact hfree rfl
  refine ⟨hne, t₀, ?_, rfl⟩
  change Function.update _ id' _ id = _
  rw [Function.update_of_ne hid, renew, ht₀, Option.map_some]
  split
  · rw [Ticket.close_of_ended hne]
  · rfl

/-- **An ended ticket stays ended**, and an entry about it says how, unless it finds none. -/
theorem step_ended (h : s.Ended id fate) (hst : s.step e = some s') :
    s'.Ended id fate ∧ (e.op.About id → e.answer = .absent ∨ e.answer = .found fate) := by
  obtain ⟨caller, now, op, answer⟩ := e
  have hap := step_eq_some.1 hst
  have hclose : ∀ (f : Fate) (t : Ticket κ τ), t.fate ≠ .live → t.close now f = t :=
    fun _ _ => Ticket.close_of_ended
  cases op with
  | issue id' key due => exact ⟨admit_ended h hap, fun hab => hab.elim⟩
  | void id' key due => exact ⟨admit_ended h hap, fun hab => hab.elim⟩
  | use id' =>
    have hv : (s.visit now id' (fun _ => true) (Ticket.close now .used)).2.Ended id fate ∧ _ :=
      visit_ended h (hclose .used)
    rw [Option.some.inj hap] at hv
    exact hv
  | withdraw id' =>
    have hv : (s.visit now id' (fun _ => true) (Ticket.close now .withdrawn)).2.Ended id fate ∧ _ :=
      visit_ended h (hclose .withdrawn)
    rw [Option.some.inj hap] at hv
    exact hv
  | look id' mine =>
    have hv : (s.visit now id' mine (Ticket.settle now)).2.Ended id fate ∧ _ :=
      visit_ended h fun _ ht => Ticket.settle_of_ended ht
    rw [Option.some.inj hap] at hv
    exact hv
  | lapse ids =>
    simp only [apply] at hap
    split at hap
    · cases hap
      obtain ⟨hne, t, ht, rfl⟩ := h
      refine ⟨⟨hne, t, ?_, rfl⟩, fun hab => hab.elim⟩
      dsimp only
      split
      · rw [ht, Option.map_some, Ticket.settle_of_ended hne]
      · exact ht
    · cases hap

/-- So it does along a log. -/
theorem run_ended (h : s.Ended id fate) {es : List (Entry ι κ τ)}
    (hr : run step s es = some s') : s'.Ended id fate :=
  run_invariant (fun _ _ _ hu hst => (step_ended hu hst).1) hr h

omit [DecidableEq κ] in
/-- What was found of a ticket, and what the operation left of it. -/
theorem visit_found {now : τ} {mine : κ → Bool} {change : Ticket κ τ → Ticket κ τ} {f : Fate}
    (h : s.visit now id mine change = (.found f, s')) :
    ∃ t, s id = some t ∧ f = (t.settle now).fate ∧ s' id = some (change t) := by
  unfold visit at h
  split at h
  · cases h
  · split at h <;> cases h
    next t ht _ => exact ⟨t, ht, rfl, Function.update_self ..⟩

/-- What an entry says is so. -/
theorem ended_of_tells (he : e.Says id fate) (hst : s.step e = some s') : s'.Ended id fate := by
  have hap := step_eq_some.1 hst
  unfold Entry.Says at he
  split at he
  · next hop hans =>
    obtain ⟨rfl, rfl⟩ := he
    rw [hop, hans] at hap
    obtain ⟨t, -, hf, ht⟩ := visit_found (Option.some.inj hap)
    exact ⟨by simp, _, ht, by rw [Ticket.close, if_pos hf.symm]⟩
  · next hop hans =>
    obtain ⟨rfl, rfl⟩ := he
    rw [hop, hans] at hap
    obtain ⟨t, -, hf, ht⟩ := visit_found (Option.some.inj hap)
    exact ⟨by simp, _, ht, by rw [Ticket.close, if_pos hf.symm]⟩
  · next hop hans =>
    obtain ⟨rfl, rfl, hne⟩ := he
    rw [hop, hans] at hap
    obtain ⟨t, -, hf, ht⟩ := visit_found (Option.some.inj hap)
    exact ⟨hne, _, ht, by rw [Ticket.close, if_neg (hf ▸ hne), hf]⟩
  · next hop hans =>
    obtain ⟨rfl, rfl, hne⟩ := he
    rw [hop, hans] at hap
    obtain ⟨t, -, hf, ht⟩ := visit_found (Option.some.inj hap)
    exact ⟨hne, _, ht, by rw [Ticket.close, if_neg (hf ▸ hne), hf]⟩
  · next hop hans =>
    obtain ⟨rfl, rfl, hne⟩ := he
    rw [hop, hans] at hap
    obtain ⟨t, -, hf, ht⟩ := visit_found (Option.some.inj hap)
    exact ⟨hne, _, ht, hf.symm⟩
  · exact he.elim

/-- **Answers agree.** After an entry that says how a ticket ended, every entry about the ticket
that finds it finds just that. -/
theorem found_of_ended {es es' es'' : List (Entry ι κ τ)} {e' : Entry ι κ τ} (he : e.Says id fate)
    (hab : e'.op.About id) (hr : run step s (es ++ e :: (es' ++ e' :: es'')) = some s') :
    e'.answer = .absent ∨ e'.answer = .found fate := by
  obtain ⟨s₁, s₂, -, hst, hr⟩ := run_split hr
  obtain ⟨s₃, s₄, hmid, hst', -⟩ := run_split hr
  exact (step_ended (run_ended (ended_of_tells he hst) hmid) hst').2 hab

end Office

end

end Tickets
