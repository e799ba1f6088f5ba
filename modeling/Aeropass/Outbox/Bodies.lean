import Aeropass.Outbox.Columns
import Aeropass.Outbox.System
import Aeropass.Lib.Runs

/-!
# The body of an event at every delivery

Producers add entries, dispatchers claim them, publish and save what came of it, in any order and
any number of times. Along every run the entries claimed carry events equal to the ones added, and
what is published is equal to the payload stored.
-/

namespace Aeropass

open Runs

/-- The table, the entries handed out by claims so far, and the arguments of all calls of
`publish`. -/
structure BodiesWorld where
  rows : OutboxEventoTable
  claimed : List OutboxEntry
  published : List Publication

def BodiesWorld.empty : BodiesWorld := ⟨Rows.empty, [], []⟩

/-- The transactions of producers and dispatchers, and the calls of the publisher, in any order. -/
inductive BodiesAct where
  | add (entry : OutboxEntry)
  | claim (now leaseUntil : Instant) (limit : Nat) (ids : Option (List UUID)) (skip : List UUID)
  | publish (entry : OutboxEntry)
  | save (entry : OutboxEntry) (error : Option String) (ahora : Instant)

/-- What `_publish` makes of an entry: delivered, or failed with an error. -/
def OutboxEntry.outcome (entry : OutboxEntry) (error : Option String) (ahora : Instant) :
    OutboxEntry :=
  match error with
  | none => entry.entregado ahora
  | some error => entry.fallido error ahora

/-- One step. A `datetime` is in range by its type; what is published or saved was claimed. -/
def bodiesStep (jsonb : Json → Json) (w : BodiesWorld) : BodiesAct → Option BodiesWorld
  | .add entry =>
    if IsoFormat.InRange entry.event.ocurridoAt then
      (w.rows.insert? entry.toRow).map fun rows => { w with rows }
    else none
  | .claim now leaseUntil limit ids skip =>
    match w.rows.claimDue jsonb now leaseUntil limit ids skip with
    | .ok (entries, rows) => some { w with rows, claimed := w.claimed ++ entries }
    -- the transaction is rolled back
    | .error _ => some w
  | .publish entry =>
    if entry ∈ w.claimed then
      some { w with published := w.published ++ [entry.event.publication] }
    else none
  | .save entry error ahora =>
    -- `save` asserts that there is a row
    if entry ∈ w.claimed ∧ (w.rows.find? entry.event.id).isSome then
      some { w with rows := w.rows.save (entry.outcome error ahora) }
    else none

/-- The entries that were added. -/
def Added (as : List BodiesAct) (entry : OutboxEntry) : Prop := .add entry ∈ as

namespace OutboxTable

/-- The event of a row. -/
def event? (t : OutboxTable) (id : UUID) : Option DomainEvent := (t.find? id).map OutboxEntry.event

variable {t t' : OutboxTable} {e : OutboxEntry}

theorem event?_insert (h : t.insert? e = some t') (id : UUID) :
    t'.event? id = if e.id = id then some e.event else t.event? id := by
  rw [event?, Rows.find?_insert? h]
  split <;> rfl

theorem event?_lease (t : OutboxTable) (claimed : List OutboxEntry) (leaseUntil : Instant)
    (id : UUID) : (t.lease claimed leaseUntil).event? id = t.event? id := by
  rw [event?, find?_lease, Option.map_map, event?]
  congr 1
  funext r
  dsimp only [Function.comp]
  split <;> rfl

theorem event?_save (t : OutboxTable) (e : OutboxEntry) (id : UUID) :
    (t.save e).event? id = t.event? id := by
  rw [event?, find?_save]
  split
  · rw [Option.map_map]
    rfl
  · rfl

end OutboxTable

/-- The invariant, with the entries `t` that the table stores: their events are the ones added, and
everything claimed or published has one of them. -/
structure BodiesOK (as : List BodiesAct) (w : BodiesWorld) (t : OutboxTable) : Prop where
  rows : w.rows = t.stored
  added : ∀ id event, t.event? id = some event →
    IsoFormat.InRange event.ocurridoAt ∧ ∃ entry, Added as entry ∧ event = entry.event
  kept : ∀ entry, Added as entry → t.event? entry.id = some entry.event
  claimed : ∀ e ∈ w.claimed, ∃ entry, Added as entry ∧ e.event.Equal entry.event
  published : ∀ p ∈ w.published, ∃ e ∈ w.claimed, p = e.event.publication

namespace BodiesOK

variable {as : List BodiesAct} {a : BodiesAct} {w w' : BodiesWorld} {t t' : OutboxTable}
  {entry : OutboxEntry}

theorem empty : BodiesOK [] .empty Rows.empty where
  rows := rfl
  added _ _ h := by cases h
  kept _ h := by cases h
  claimed _ h := by cases h
  published _ h := by cases h

theorem inRange (h : BodiesOK as w t) : ∀ r ∈ t.rows, IsoFormat.InRange r.event.ocurridoAt := by
  intro r hr
  have hevent : t.event? r.id = some r.event := by
    rw [OutboxTable.event?, Rows.find?_of_mem hr, Option.map_some]
  exact (h.added r.id r.event hevent).1

/-- Entries of one id that were added have one event. -/
theorem added_unique {entry entry' : OutboxEntry} (h : BodiesOK as w t) (he : Added as entry)
    (he' : Added as entry') (hid : entry.id = entry'.id) : entry.event = entry'.event := by
  have hkept := h.kept entry he
  rw [hid, h.kept entry' he'] at hkept
  exact (Option.some.inj hkept).symm

/-- A claimed entry carries the event that was added under its id. -/
theorem source {e : OutboxEntry} (h : BodiesOK as w t) (hentry : Added as entry)
    (he : e ∈ w.claimed) (hid : e.id = entry.id) : e.event.Equal entry.event := by
  obtain ⟨entry', hentry', hequal⟩ := h.claimed e he
  have hid' : entry'.id = entry.id := hequal.id.symm.trans hid
  exact h.added_unique hentry' hentry hid' ▸ hequal

/-- A step that adds no entry and leaves the events of the table. -/
theorem quiet (h : BodiesOK as w t) (ha : ∀ entry, a ≠ .add entry)
    (hevents : ∀ id, t'.event? id = t.event? id) (hrows : w'.rows = t'.stored)
    (hclaimed : ∀ e ∈ w'.claimed, ∃ entry, Added as entry ∧ e.event.Equal entry.event)
    (hpublished : ∀ p ∈ w'.published, ∃ e ∈ w'.claimed, p = e.event.publication) :
    BodiesOK (as ++ [a]) w' t' := by
  have hadded : ∀ entry, Added (as ++ [a]) entry ↔ Added as entry := by
    intro entry
    rw [Added, Added, List.mem_append, List.mem_singleton]
    exact or_iff_left (ha entry).symm
  constructor
  · exact hrows
  · intro id event hevent
    rw [hevents] at hevent
    obtain ⟨hrange, entry, hentry, rfl⟩ := h.added id event hevent
    exact ⟨hrange, entry, (hadded entry).2 hentry, rfl⟩
  · intro entry hentry
    rw [hevents]
    exact h.kept entry ((hadded entry).1 hentry)
  · intro e he
    obtain ⟨entry, hentry, hequal⟩ := hclaimed e he
    exact ⟨entry, (hadded entry).2 hentry, hequal⟩
  · exact hpublished

/-- An event that is added keeps its body in the table. -/
theorem add (h : BodiesOK as w t) (hrange : IsoFormat.InRange entry.event.ocurridoAt)
    (hins : t.insert? entry = some t') :
    BodiesOK (as ++ [.add entry]) { w with rows := t'.stored } t' := by
  have hold : ∀ {e}, Added as e → Added (as ++ [.add entry]) e := fun he =>
    List.mem_append_left _ he
  have hnew : Added (as ++ [.add entry]) entry := List.mem_append_right _ List.mem_cons_self
  have hfree : t.event? entry.id = none := by
    rw [OutboxTable.event?, (Rows.insert?_eq_some.1 hins).1, Option.map_none]
  constructor
  · rfl
  · intro id event hevent
    rw [OutboxTable.event?_insert hins] at hevent
    split at hevent
    · cases hevent
      exact ⟨hrange, entry, hnew, rfl⟩
    · obtain ⟨hr, e, he, rfl⟩ := h.added id event hevent
      exact ⟨hr, e, hold he, rfl⟩
  · intro e he
    rw [OutboxTable.event?_insert hins]
    rcases List.mem_append.1 he with he | he
    · have hkept := h.kept e he
      rw [if_neg, hkept]
      intro hid
      rw [← hid, hfree] at hkept
      cases hkept
    · cases List.mem_singleton.1 he
      rw [if_pos rfl]
  · intro e he
    obtain ⟨r, hr, hequal⟩ := h.claimed e he
    exact ⟨r, hold hr, hequal⟩
  · exact h.published

section
variable {jsonb : Json → Json} (hjsonb : ∀ v : Json, v.Equal (jsonb v))
include hjsonb

/-- What every step keeps. -/
theorem step (h : BodiesOK as w t) (hstep : bodiesStep jsonb w a = some w') :
    ∃ t', BodiesOK (as ++ [a]) w' t' := by
  cases a with
  | add entry =>
    rw [bodiesStep] at hstep
    split at hstep
    · next hrange =>
      rw [h.rows, OutboxTable.stored_insert] at hstep
      cases hins : t.insert? entry with
      | none =>
        rw [hins] at hstep
        cases hstep
      | some t' =>
        rw [hins] at hstep
        cases hstep
        exact ⟨t', h.add hrange hins⟩
    · cases hstep
  | claim now leaseUntil limit ids skip =>
    obtain ⟨es, hclaim, hrebuilt⟩ := claimDue_stored hjsonb now leaseUntil limit ids skip h.inRange
    rw [bodiesStep, h.rows, hclaim] at hstep
    cases hstep
    refine ⟨_, h.quiet (fun _ => by intro heq; cases heq) (OutboxTable.event?_lease t _ _) rfl
      ?_ ?_⟩
    · intro e he
      rcases List.mem_append.1 he with he | he
      · exact h.claimed e he
      · obtain ⟨r, hr, hfrom⟩ := Rows.exists_right_of_forall₂ hrebuilt he
        have hevent : t.event? r.id = some r.event := by
          rw [OutboxTable.event?, ((OutboxTable.due_spec t now limit ids skip).1 r hr).1,
            Option.map_some]
        obtain ⟨-, entry, hentry, heq⟩ := h.added r.id r.event hevent
        exact ⟨entry, hentry, heq ▸ hfrom.event⟩
    · intro p hp
      obtain ⟨e, he, hpub⟩ := h.published p hp
      exact ⟨e, List.mem_append_left _ he, hpub⟩
  | publish entry =>
    rw [bodiesStep] at hstep
    split at hstep
    · next hentry =>
      cases hstep
      refine ⟨t, h.quiet (fun _ => by intro heq; cases heq) (fun _ => rfl) h.rows h.claimed ?_⟩
      intro p hp
      rcases List.mem_append.1 hp with hp | hp
      · exact h.published p hp
      · exact ⟨entry, hentry, List.mem_singleton.1 hp⟩
    · cases hstep
  | save entry error ahora =>
    rw [bodiesStep] at hstep
    split at hstep
    · cases hstep
      refine ⟨t.save (entry.outcome error ahora), h.quiet (fun _ => by intro heq; cases heq)
        (OutboxTable.event?_save t _) ?_ h.claimed h.published⟩
      rw [h.rows, OutboxTable.save_stored]
    · cases hstep

/-- What a run from the empty table keeps. -/
theorem run {as : List BodiesAct} {w : BodiesWorld}
    (h : Runs.run (bodiesStep jsonb) .empty as = some w) : ∃ t, BodiesOK as w t := by
  refine run_induction (P := fun as w => ∃ t, BodiesOK as w t) ⟨_, empty⟩ ?_ h
  rintro as w a w' - ⟨t, ht⟩ hstep
  exact ht.step hjsonb hstep

end

end BodiesOK

/-- **One body at every delivery.** A row keeps the payload it was added with. The entry rebuilt
from it, at any time and by any claim, carries an equal event, whose payload is equal to the one
stored; and so is every message published for it. -/
theorem outbox_bodies {jsonb : Json → Json} (hjsonb : ∀ v : Json, v.Equal (jsonb v))
    {as : List BodiesAct} {w : BodiesWorld} (h : run (bodiesStep jsonb) .empty as = some w) :
    (∀ entry, .add entry ∈ as → ∃ row, w.rows.find? entry.id = some row ∧
      row.payload = .object entry.event.toPayload ∧
      (∃ e, toEntry jsonb row = .ok e ∧ e.event.Equal entry.event ∧
        (Json.object e.event.toPayload).Equal row.payload) ∧
      ∀ e ∈ w.claimed, e.id = entry.id → e.event.Equal entry.event ∧
        (Json.object e.event.toPayload).Equal row.payload) ∧
    (∀ p ∈ w.published, ∃ entry, .add entry ∈ as ∧ p.eventId = entry.id.str ∧
      p.tipo = entry.event.tipo ∧ (Json.object p.payload).Equal (.object entry.event.toPayload)) ∧
    ∀ p ∈ w.published, ∀ p' ∈ w.published, p.eventId = p'.eventId →
      p.tipo = p'.tipo ∧ (Json.object p.payload).Equal (.object p'.payload) := by
  obtain ⟨t, ht⟩ := BodiesOK.run hjsonb h
  have hpublished : ∀ p ∈ w.published, ∃ entry, .add entry ∈ as ∧ p.eventId = entry.id.str ∧
      p.tipo = entry.event.tipo ∧
      (Json.object p.payload).Equal (.object entry.event.toPayload) := by
    intro p hp
    obtain ⟨e, he, rfl⟩ := ht.published p hp
    obtain ⟨entry, hentry, hequal⟩ := ht.claimed e he
    exact ⟨entry, hentry, congrArg UUID.str hequal.id, hequal.tipo, hequal.toPayload⟩
  refine ⟨?_, hpublished, ?_⟩
  · intro entry hentry
    obtain ⟨r, hr, hevent⟩ := Option.map_eq_some_iff.1 (ht.kept entry hentry)
    have hrow : w.rows.find? entry.id = some r.toRow := by
      rw [ht.rows, OutboxTable.find?_stored, hr]
      rfl
    have hpayload : r.toRow.payload = .object entry.event.toPayload := by
      rw [← hevent]
      rfl
    obtain ⟨e, he, hfrom⟩ := toEntry_toRow hjsonb (ht.inRange r (Rows.find?_eq_some.1 hr).1)
    have hequal : e.event.Equal entry.event := hevent ▸ hfrom.event
    refine ⟨r.toRow, hrow, hpayload, ?_, ?_⟩
    · refine ⟨e, he, hequal, ?_⟩
      rw [hpayload]
      exact hequal.toPayload
    · intro e he hid
      rw [hpayload]
      have hequal := ht.source hentry he hid
      exact ⟨hequal, hequal.toPayload⟩
  · intro p hp p' hp' hid
    obtain ⟨entry, hentry, hp1, hp2, hp3⟩ := hpublished p hp
    obtain ⟨entry', hentry', hp1', hp2', hp3'⟩ := hpublished p' hp'
    have hevent : entry.event = entry'.event := by
      refine ht.added_unique hentry hentry' (UUID.str_inj ?_)
      rw [← hp1, hid, hp1']
    rw [hp2, hp2', hevent]
    rw [hevent] at hp3
    exact ⟨rfl, hp3.trans hp3'.symm⟩

/-- JSONB keeps the entries of a dictionary by the length of their keys, and then by the keys. -/
def keyOrder (a b : String × Json) : Prop :=
  a.1.utf8ByteSize < b.1.utf8ByteSize ∨ a.1.utf8ByteSize = b.1.utf8ByteSize ∧ ¬ b.1 < a.1

instance (a b : String × Json) : Decidable (keyOrder a b) :=
  inferInstanceAs (Decidable (_ ∨ _ ∧ _))

/-- A dictionary with its entries in that order. -/
def sortKeys : Json → Json
  | .object d => .object (d.insertionSort keyOrder)
  | v => v

/-- Sorting the keys gives an equal value. -/
theorem equal_sortKeys (v : Json) : v.Equal (sortKeys v) := by
  cases v with
  | object d =>
    refine .object fun k => ?_
    have hsame : ∀ a b : String × Json, a.1 = b.1 → keyOrder a b := by
      intro a b heq
      rw [keyOrder, heq]
      exact .inr ⟨rfl, String.lt_irrefl b.1⟩
    rw [Json.Dict.lookup_insertionSort hsame]
    exact Json.Dict.EqualAt.refl d k
  | _ => exact .refl _

/-- An event on the second and one a microsecond later; the first delivery fails. -/
theorem outbox_bodies_sample :
    let entrada (id : UUID) (t : Instant) : OutboxEntry :=
      .pendiente ⟨id, "credencial.emitida", 1, t, [("intento_id", .str "a")]⟩
    let a := entrada 1 1753000000000000
    let b := entrada 2 1753000000000001
    let fallida := a.fallido "timeout" 1753000001000000
    ∃ w, run (bodiesStep sortKeys) .empty
        [.add a, .add b, .claim 1753000001000000 1753000031000000 100 none [], .publish a,
          .save a (some "timeout") 1753000001000000, .publish b,
          .claim 1753000041000000 1753000071000000 100 none [], .publish fallida,
          .save fallida none 1753000041000000] = some w ∧
      (w.claimed.length, w.published.length) = (4, 3) ∧
      ∀ p ∈ w.published, ∀ p' ∈ w.published, p.eventId = p'.eventId →
        p.tipo = p'.tipo ∧ (Json.object p.payload).Equal (.object p'.payload) := by
  intro entrada a b fallida
  have hlengths : ((run (bodiesStep sortKeys) .empty
      [.add a, .add b, .claim 1753000001000000 1753000031000000 100 none [], .publish a,
        .save a (some "timeout") 1753000001000000, .publish b,
        .claim 1753000041000000 1753000071000000 100 none [], .publish fallida,
        .save fallida none 1753000041000000]).map
      fun w => (w.claimed.length, w.published.length)) = some (4, 3) := by
    decide +kernel
  obtain ⟨w, hw, hcount⟩ := Option.map_eq_some_iff.1 hlengths
  exact ⟨w, hw, hcount, (outbox_bodies equal_sortKeys hw).2.2⟩

end Aeropass
