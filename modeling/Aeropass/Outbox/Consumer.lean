import Aeropass.Lib.Inbox
import Aeropass.Outbox.Delivery

/-!
# What a consumer of the events sees

The outbox delivers at least once, and a consumer keeps the first message of each event id. Only
events of the table are published, and each under its own id, so a consumer has one message per
event that was published, and with nothing PENDIENTE one per event.
-/

namespace Aeropass

open Inbox Runs Threads

/-- The messages of a consumer that deduplicates by id. -/
def OutboxWorld.inbox (w : OutboxWorld) : List Publication :=
  received Publication.eventId w.accepted

/-- Every message accepted is of a row of the table. -/
def AcceptedOK (w : OutboxWorld) : Prop :=
  ∀ m ∈ w.accepted, ∃ r ∈ w.outbox.rows, m = r.event.publication

variable {w w' : OutboxWorld} {s t : OutboxSystem} {e r : OutboxEntry}

/-- A later table has the rows of the messages. -/
theorem AcceptedOK.keep (h : AcceptedOK w) (hlater : OutboxTable.Keeps w.outbox w'.outbox)
    (hacc : w'.accepted = w.accepted) : AcceptedOK w' := by
  intro m hm
  rw [hacc] at hm
  obtain ⟨r, hr, rfl⟩ := h m hm
  obtain ⟨r', hr', he⟩ := hlater _ r (Rows.find?_of_mem hr)
  exact ⟨r', (Rows.find?_eq_some.1 hr').1, by rw [he]⟩

/-- Publishing an entry that was claimed. -/
theorem AcceptedOK.publish (h : AcceptedOK w) (he : Known w e) :
    AcceptedOK { w with accepted := w.accepted ++ [e.event.publication] } := by
  intro m hm
  rcases List.mem_append.1 hm with hm | hm
  · exact h m hm
  · obtain rfl := List.mem_singleton.1 hm
    obtain ⟨r, hr, hev⟩ := he
    exact ⟨r, (Rows.find?_eq_some.1 hr).1, by rw [hev]⟩

/-- What a step of `_dispatch` may add to the messages accepted. -/
theorem dispatchStep_accepted {limit : Nat} {ids : Option (List UUID)} {ch : DispatchChoice}
    {ph : DispatchPhase} {r : OutboxWorld × DispatchPhase} (hph : ph.OK w)
    (h : dispatchStep w limit ids ch ph = some r) :
    r.1.accepted = w.accepted ∨
      ∃ e, Known w e ∧ r.1 = { w with accepted := w.accepted ++ [e.event.publication] } := by
  cases ph with
  | start => cases h; exact .inl rfl
  | publishing now claimed n =>
    cases claimed with
    | nil => cases h; exact .inl rfl
    | cons e rest =>
      simp only [dispatchStep] at h
      split at h
      · cases h; exact .inl rfl
      cases h
      cases ch.accepts with
      | true => exact .inr ⟨e, (hph.2 e List.mem_cons_self).1, rfl⟩
      | false => exact .inl rfl
  | claiming | answered | saving =>
    simp only [dispatchStep] at h
    repeat' split at h
    all_goals (cases h; exact .inl rfl)
  | finished | failed => cases h

/-- A step of a dispatcher publishes nothing, or an event that it knows. -/
theorem dispatcherStep_accepted {l : Dispatcher} {a : DispatchAct} {r : OutboxWorld × Dispatcher}
    (hl : l.phase.OK w) (h : dispatcherStep w l a = some r) :
    r.1.accepted = w.accepted ∨
      ∃ e, Known w e ∧ r.1 = { w with accepted := w.accepted ++ [e.event.publication] } := by
  unfold dispatcherStep at h
  split at h
  · cases h; exact .inl rfl
  · cases h; exact .inl rfl
  · obtain ⟨r', hr', rfl⟩ := Option.map_eq_some_iff.1 h
    exact dispatchStep_accepted hl hr'
  · split at h
    · cases h; exact .inl rfl
    · obtain ⟨r', hr', rfl⟩ := Option.map_eq_some_iff.1 h
      exact dispatchStep_accepted hl hr'
  · cases h

/-- The environment publishes nothing. -/
theorem outboxEnvStep_accepted {e : OutboxEnv} (h : outboxEnvStep w e = some w') :
    w'.accepted = w.accepted := by
  cases e with
  | tick d => cases h; rfl
  | add event =>
    simp only [outboxEnvStep] at h
    split at h
    · obtain ⟨outbox, -, rfl⟩ := Option.map_eq_some_iff.1 h
      rfl
    · cases h

/-- A step of the system keeps the messages those of rows. -/
theorem AcceptedOK.step (h : AcceptedOK s.shared) (hs : DispatchersOK s)
    {a : Act DispatchAct OutboxEnv} (hst : outboxStep s a = some t) : AcceptedOK t.shared := by
  have hlater := (outboxStep_later hs hst).rows
  rcases Program.step_cases hst with ⟨i, b, r, rfl, hc, hsh, -⟩ | ⟨e, rfl, he, -⟩
  · rcases dispatcherStep_accepted (hs.2 i) hc with hacc | ⟨e, hk, hr⟩
    · exact h.keep hlater (by rw [hsh]; exact hacc)
    · rw [hsh, hr]
      exact h.publish hk
  · exact h.keep hlater (outboxEnvStep_accepted he)

theorem outbox_accepted (hs : Reachable OutboxSystem.Initial outboxStep s) :
    AcceptedOK s.shared := by
  refine hs.invariant_of (I := fun s => AcceptedOK s.shared) (fun s h m hm => ?_)
    fun s a t hs h hst => h.step (outbox_inv hs) hst
  rw [h.2.1] at hm
  cases hm

/-- An event is known by its id. -/
theorem eq_of_eventId {t : OutboxTable} (hr : r ∈ t.rows) (he : e ∈ t.rows)
    (h : r.event.publication.eventId = e.event.publication.eventId) : r = e :=
  List.inj_on_of_nodup_map t.nodup hr he (UUID.str_inj h)

/-- A consumer has one message for each row whose event was published. -/
theorem AcceptedOK.inbox_perm (h : AcceptedOK w) :
    w.inbox.Perm ((w.outbox.rows.filter fun r => r.event.publication ∈ w.accepted).map
      fun r => r.event.publication) := by
  refine received_perm (fun m hm m' hm' hid => ?_) ?_ fun m => ?_
  · obtain ⟨r, hr, rfl⟩ := h m hm
    obtain ⟨r', hr', rfl⟩ := h m' hm'
    rw [eq_of_eventId hr hr' hid]
  · refine List.Nodup.map_on (fun r hr r' hr' heq => ?_) (w.outbox.nodup.of_map.filter _)
    exact eq_of_eventId (List.mem_of_mem_filter hr) (List.mem_of_mem_filter hr')
      (congrArg Publication.eventId heq)
  · simp only [List.mem_map, List.mem_filter, decide_eq_true_eq]
    constructor
    · rintro ⟨r, ⟨-, hacc⟩, rfl⟩
      exact hacc
    · intro hm
      obtain ⟨r, hr, rfl⟩ := h m hm
      exact ⟨r, ⟨hr, hm⟩, rfl⟩

/-- The messages accepted are only added to. -/
theorem outboxStep_accepted (hs : DispatchersOK s) {a : Act DispatchAct OutboxEnv}
    (hst : outboxStep s a = some t) : s.shared.accepted <+: t.shared.accepted := by
  rcases Program.step_cases hst with ⟨i, b, r, rfl, hc, hsh, -⟩ | ⟨e, rfl, he, -⟩
  · rcases dispatcherStep_accepted (hs.2 i) hc with hacc | ⟨e, -, hr⟩
    · rw [hsh, hacc]
    · rw [hsh, hr]
      exact List.prefix_append ..
  · rw [outboxEnvStep_accepted he]

/-- So are the messages of a consumer. -/
theorem outboxRun_inbox (hs : DispatchersOK s) {as : List (Act DispatchAct OutboxEnv)}
    (h : run outboxStep s as = some t) : s.shared.inbox <+: t.shared.inbox := by
  have hacc : s.shared.accepted <+: t.shared.accepted :=
    run_rel (I := DispatchersOK) (R := fun s t => s.shared.accepted <+: t.shared.accepted)
      (fun _ _ _ hu hst => outbox_relyGuarantee.step hu hst) (fun _ => List.prefix_rfl)
      List.IsPrefix.trans (fun _ _ _ hu hst => outboxStep_accepted hu hst) h hs
  obtain ⟨more, hmore⟩ := hacc
  unfold OutboxWorld.inbox
  rw [← hmore]
  exact received_append ..

end Aeropass
