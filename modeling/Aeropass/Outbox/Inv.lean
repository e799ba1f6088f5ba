import Aeropass.Outbox.System

/-!
# The invariant of the outbox

`OutboxOK` is what holds of the table: a delivered row was accepted by the publisher, and a pending
one is due within three minutes. What a dispatcher knows (`DispatchPhase.OK`) survives whatever the
others do, because rows keep their events and what was accepted stays accepted (`OutboxLater`).
-/

namespace Aeropass

open Runs Threads

/-- The longest a PENDIENTE row waits. -/
abbrev maxWait : Int := seconds maxBackoffSeconds

/-- The invariant of the shared state. -/
structure OutboxOK (w : OutboxWorld) : Prop where
  delivered : ∀ {id r}, w.outbox.find? id = some r → r.estado = .entregado →
    r.event.publication ∈ w.accepted ∧ r.entregadoAt.isSome
  due : ∀ {id r}, w.outbox.find? id = some r → r.estado = .pendiente →
    r.proximoIntentoAt ≤ w.clock + maxWait

/-- What every step leaves. -/
structure OutboxLater (w w' : OutboxWorld) : Prop where
  clock : w.clock ≤ w'.clock
  rows : OutboxTable.Keeps w.outbox w'.outbox
  accepted : w.accepted ⊆ w'.accepted

theorem OutboxLater.refl (w : OutboxWorld) : OutboxLater w w :=
  ⟨Int.le_refl _, .refl _, fun _ h => h⟩

theorem OutboxLater.trans {w w' w'' : OutboxWorld} (h : OutboxLater w w')
    (h' : OutboxLater w' w'') : OutboxLater w w'' :=
  ⟨Int.le_trans h.clock h'.clock, h.rows.trans h'.rows, fun _ hx => h'.accepted (h.accepted hx)⟩

/-- The entry of a row of the table. -/
def Known (w : OutboxWorld) (e : OutboxEntry) : Prop :=
  ∃ r, w.outbox.find? e.id = some r ∧ r.event = e.event

/-- An entry that was claimed: a row that was PENDIENTE. -/
def Pending (w : OutboxWorld) (e : OutboxEntry) : Prop := Known w e ∧ e.estado = .pendiente

/-- An outcome that may be saved. -/
structure Outcome (w : OutboxWorld) (e : OutboxEntry) : Prop where
  known : Known w e
  delivered : e.estado = .entregado → e.event.publication ∈ w.accepted ∧ e.entregadoAt.isSome
  due : e.estado = .pendiente → e.proximoIntentoAt ≤ w.clock + maxWait

/-- What a dispatcher knows where it is. -/
def DispatchPhase.OK (w : OutboxWorld) : DispatchPhase → Prop
  | .start | .finished _ | .failed => True
  | .claiming now => now ≤ w.clock
  | .publishing now claimed _ => now ≤ w.clock ∧ ∀ e ∈ claimed, Pending w e
  | .answered now entry rest _ accepted => now ≤ w.clock ∧ Pending w entry ∧
    (accepted = true → entry.event.publication ∈ w.accepted) ∧ ∀ e ∈ rest, Pending w e
  | .saving now outcome rest _ => now ≤ w.clock ∧ Outcome w outcome ∧ ∀ e ∈ rest, Pending w e

variable {w w' : OutboxWorld} {e o : OutboxEntry} {ph : DispatchPhase}

/-! ## Stability -/

theorem Known.stable (h : OutboxLater w w') (hk : Known w e) : Known w' e := by
  obtain ⟨r, hr, he⟩ := hk
  obtain ⟨r', hr', he'⟩ := h.rows _ r hr
  exact ⟨r', hr', he'.trans he⟩

theorem Pending.stable (h : OutboxLater w w') (hp : Pending w e) : Pending w' e :=
  ⟨hp.1.stable h, hp.2⟩

/-- What may be saved may still be saved after a step. -/
theorem Outcome.stable (h : OutboxLater w w') (ho : Outcome w o) : Outcome w' o where
  known := ho.known.stable h
  delivered he := ⟨h.accepted (ho.delivered he).1, (ho.delivered he).2⟩
  due he := by
    have h1 := ho.due he
    have h2 := h.clock
    simp only [Instant] at *
    omega

/-- What a dispatcher knows survives every step. -/
theorem DispatchPhase.OK.stable (h : OutboxLater w w') (hp : ph.OK w) : ph.OK w' := by
  cases ph with
  | start | finished | failed => trivial
  | claiming now => exact Int.le_trans hp h.clock
  | publishing now claimed n =>
    obtain ⟨h1, h2⟩ := hp
    exact ⟨Int.le_trans h1 h.clock, fun e he => (h2 e he).stable h⟩
  | answered now entry rest n accepted =>
    obtain ⟨h1, h2, h3, h4⟩ := hp
    exact ⟨Int.le_trans h1 h.clock, h2.stable h, fun ha => h.accepted (h3 ha),
      fun e he => (h4 e he).stable h⟩
  | saving now outcome rest n =>
    obtain ⟨h1, h2, h3⟩ := hp
    exact ⟨Int.le_trans h1 h.clock, h2.stable h, fun e he => (h3 e he).stable h⟩

/-! ## The effects of single steps -/

/-- Time passing keeps the invariant. -/
theorem OutboxOK.tick (hw : OutboxOK w) (d : Nat) :
    OutboxOK { w with clock := w.clock + d } ∧ OutboxLater w { w with clock := w.clock + d } := by
  refine ⟨⟨hw.delivered, fun hr he => ?_⟩, ⟨?_, .refl _, fun _ h => h⟩⟩
  · have := hw.due hr he
    simp only [Instant] at *
    omega
  · simp only [Instant]
    omega

/-- A new entry, due at once, keeps the invariant. -/
theorem OutboxOK.add (hw : OutboxOK w) {event : DomainEvent} {outbox : OutboxTable}
    (hdate : event.ocurridoAt ≤ w.clock) (h : w.outbox.insert? (.pendiente event) = some outbox) :
    OutboxOK { w with outbox } ∧ OutboxLater w { w with outbox } := by
  refine ⟨⟨fun {id r} hr he => ?_, fun {id r} hr he => ?_⟩,
    ⟨Int.le_refl _, OutboxTable.keeps_insert h, fun _ h => h⟩⟩
  · have hr : outbox.find? id = some r := hr
    rw [Rows.find?_insert? h] at hr
    split at hr
    · cases hr; cases he
    · exact hw.delivered hr he
  · have hr : outbox.find? id = some r := hr
    rw [Rows.find?_insert? h] at hr
    split at hr
    · cases hr
      simp only [OutboxEntry.pendiente, maxWait, maxBackoffSeconds, seconds, Instant] at *
      omega
    · exact hw.due hr he

/-- Leasing rows for half a minute keeps the invariant. -/
theorem OutboxOK.lease (hw : OutboxOK w) (claimed : List OutboxEntry) {now : Instant}
    (hnow : now ≤ w.clock) :
    OutboxOK { w with outbox := w.outbox.lease claimed (now + seconds leaseSeconds) } ∧
      OutboxLater w { w with outbox := w.outbox.lease claimed (now + seconds leaseSeconds) } := by
  refine ⟨⟨fun {id r} hr he => ?_, fun {id r} hr he => ?_⟩,
    ⟨Int.le_refl _, OutboxTable.keeps_lease _ _ _, fun _ h => h⟩⟩
  · have hr : (w.outbox.lease claimed _).find? id = some r := hr
    rw [OutboxTable.find?_lease, Option.map_eq_some_iff] at hr
    obtain ⟨r₀, hr₀, rfl⟩ := hr
    by_cases hid : id ∈ claimed.map OutboxEntry.id
    · simp only [hid, if_true] at he ⊢
      exact hw.delivered hr₀ he
    · simp only [hid, if_false] at he ⊢
      exact hw.delivered hr₀ he
  · have hr : (w.outbox.lease claimed _).find? id = some r := hr
    rw [OutboxTable.find?_lease, Option.map_eq_some_iff] at hr
    obtain ⟨r₀, hr₀, rfl⟩ := hr
    by_cases hid : id ∈ claimed.map OutboxEntry.id
    · simp only [hid, if_true, leaseSeconds, maxWait, maxBackoffSeconds, seconds, Instant] at *
      omega
    · simp only [hid, if_false] at he ⊢
      exact hw.due hr₀ he

/-- Saving an outcome keeps the invariant. -/
theorem OutboxOK.save (hw : OutboxOK w) (ho : Outcome w o) :
    OutboxOK { w with outbox := w.outbox.save o } ∧
      OutboxLater w { w with outbox := w.outbox.save o } := by
  obtain ⟨r₀, hr₀, hev⟩ := ho.known
  refine ⟨⟨fun {id r} hr he => ?_, fun {id r} hr he => ?_⟩,
    ⟨Int.le_refl _, OutboxTable.keeps_save _ _, fun _ h => h⟩⟩
  · have hr : (w.outbox.save o).find? id = some r := hr
    rw [OutboxTable.find?_save] at hr
    split at hr
    · next hid =>
      rw [← hid, hr₀] at hr
      cases hr
      obtain ⟨h1, h2⟩ := ho.delivered he
      refine ⟨?_, h2⟩
      rw [← hev] at h1
      exact h1
    · exact hw.delivered hr he
  · have hr : (w.outbox.save o).find? id = some r := hr
    rw [OutboxTable.find?_save] at hr
    split at hr
    · next hid =>
      rw [← hid, hr₀] at hr
      cases hr
      exact ho.due he
    · exact hw.due hr he

/-! ## Steps -/

theorem Outcome.entregado (hp : Pending w e) (ha : e.event.publication ∈ w.accepted)
    (ahora : Instant) : Outcome w (e.entregado ahora) where
  known := hp.1
  delivered _ := ⟨ha, rfl⟩
  due he := by cases he

/-- A failed publication may be saved. -/
theorem Outcome.fallido (hp : Pending w e) (error : String) :
    Outcome w (e.fallido error w.clock) where
  known := hp.1
  delivered he := by
    have he : e.estado = .entregado := he
    rw [hp.2] at he
    cases he
  due _ := e.fallido_proximoIntentoAt error w.clock

/-- One step of `_dispatch`. -/
theorem dispatchStep_ok (hw : OutboxOK w) {limit : Nat} {ids : Option (List UUID)}
    {ch : DispatchChoice} {r : OutboxWorld × DispatchPhase} (hph : ph.OK w)
    (h : dispatchStep w limit ids ch ph = some r) :
    OutboxOK r.1 ∧ r.2.OK r.1 ∧ OutboxLater w r.1 := by
  cases ph with
  | start => cases h; exact ⟨hw, Int.le_refl _, .refl w⟩
  | claiming now =>
    simp only [dispatchStep] at h
    split at h
    · cases h; exact ⟨hw, trivial, .refl w⟩
    cases h
    obtain ⟨h1, h2⟩ := hw.lease (w.outbox.due now limit ids ch.skip) hph
    refine ⟨h1, ⟨hph, fun e he => ?_⟩, h2⟩
    obtain ⟨hr, hp, -⟩ := (w.outbox.due_spec now limit ids ch.skip).1 e he
    exact Pending.stable h2 ⟨⟨e, hr, rfl⟩, hp⟩
  | publishing now claimed n =>
    cases claimed with
    | nil => cases h; exact ⟨hw, trivial, .refl w⟩
    | cons e rest =>
      obtain ⟨hnow, hp⟩ := hph
      simp only [dispatchStep] at h
      split at h
      · cases h; exact ⟨hw, trivial, .refl w⟩
      cases h
      have hsub : w.accepted ⊆ if ch.accepts then w.accepted ++ [e.event.publication] else
          w.accepted := by
        split <;> simp
      refine ⟨⟨fun hr he => ?_, hw.due⟩, ?_, ⟨Int.le_refl _, .refl _, hsub⟩⟩
      · exact ⟨hsub (hw.delivered hr he).1, (hw.delivered hr he).2⟩
      · refine ⟨hnow, hp e (by simp), fun ha => ?_, fun e' he' => hp e' (by simp [he'])⟩
        simp [ha]
  | answered now e rest n accepted =>
    obtain ⟨hnow, hp, hacc, hrest⟩ := hph
    simp only [dispatchStep] at h
    split at h
    · cases h; exact ⟨hw, trivial, .refl w⟩
    split at h
    · next ha =>
      cases h
      rw [Bool.and_eq_true] at ha
      exact ⟨hw, ⟨hnow, .entregado hp (hacc ha.1) _, hrest⟩, .refl w⟩
    · cases h; exact ⟨hw, ⟨hnow, .fallido hp _, hrest⟩, .refl w⟩
  | saving now o rest n =>
    obtain ⟨hnow, ho, hrest⟩ := hph
    simp only [dispatchStep] at h
    split at h
    · cases h; exact ⟨hw, trivial, .refl w⟩
    cases h
    obtain ⟨h1, h2⟩ := hw.save ho
    exact ⟨h1, ⟨hnow, fun e he => (hrest e he).stable h2⟩, h2⟩
  | finished | failed => cases h

/-- One step of a call of the dispatcher. -/
theorem dispatcherStep_ok (hw : OutboxOK w) {l : Dispatcher} {a : DispatchAct}
    {r : OutboxWorld × Dispatcher} (hl : l.phase.OK w) (h : dispatcherStep w l a = some r) :
    OutboxOK r.1 ∧ r.2.phase.OK r.1 ∧ OutboxLater w r.1 := by
  unfold dispatcherStep at h
  split at h
  · cases h
    refine ⟨hw, ?_, .refl w⟩
    simp only [Dispatcher.phase]
    split <;> trivial
  · cases h; exact ⟨hw, trivial, .refl w⟩
  · obtain ⟨r', hr', rfl⟩ := Option.map_eq_some_iff.1 h
    exact dispatchStep_ok hw hl hr'
  · split at h
    · cases h; exact ⟨hw, trivial, .refl w⟩
    · obtain ⟨r', hr', rfl⟩ := Option.map_eq_some_iff.1 h
      exact dispatchStep_ok hw hl hr'
  · cases h

/-- One step of the environment. -/
theorem outboxEnvStep_ok (hw : OutboxOK w) {e : OutboxEnv} (h : outboxEnvStep w e = some w') :
    OutboxOK w' ∧ OutboxLater w w' := by
  cases e with
  | tick d => cases h; exact hw.tick d
  | add event =>
    simp only [outboxEnvStep] at h
    split at h
    · next hdate =>
      obtain ⟨outbox, ho, rfl⟩ := Option.map_eq_some_iff.1 h
      exact hw.add hdate ho
    · cases h

/-- The dispatchers keep the invariant. -/
theorem outbox_relyGuarantee :
    RelyGuarantee outboxProgram OutboxOK (fun _ w l => l.phase.OK w) fun _ => OutboxLater where
  call hw hl h := dispatcherStep_ok hw hl h
  stable _ hg hl := hl.stable hg
  env hw h := ⟨(outboxEnvStep_ok hw h).1, fun _ _ hl => hl.stable (outboxEnvStep_ok hw h).2⟩

/-- The invariant of the dispatchers. -/
abbrev DispatchersOK : OutboxSystem → Prop := Holds OutboxOK fun _ w l => l.phase.OK w

theorem OutboxSystem.Initial.ok {s : OutboxSystem} (h : s.Initial) : DispatchersOK s := by
  obtain ⟨ho, -, hl⟩ := h
  refine ⟨⟨fun {id r} hr => ?_, fun {id r} hr => ?_⟩, fun i => ?_⟩
  · rw [ho] at hr; cases hr
  · rw [ho] at hr; cases hr
  · rw [hl]; trivial

theorem outbox_inv {s : OutboxSystem} (hs : Reachable OutboxSystem.Initial outboxStep s) :
    DispatchersOK s :=
  outbox_relyGuarantee.reachable (fun _ h => h.ok) hs

/-- What a step of the system leaves. -/
theorem outboxStep_later {s t : OutboxSystem} (hs : DispatchersOK s)
    {a : Act DispatchAct OutboxEnv} (h : outboxStep s a = some t) :
    OutboxLater s.shared t.shared := by
  rcases Program.step_cases h with ⟨i, b, r, rfl, hc, hsh, -⟩ | ⟨e, rfl, he, -⟩
  · rw [hsh]
    exact (dispatcherStep_ok hs.1 (hs.2 i) hc).2.2
  · exact (outboxEnvStep_ok hs.1 he).2

/-- What a run of the system leaves. -/
theorem outboxRun_later {s t : OutboxSystem} (hs : DispatchersOK s)
    {as : List (Act DispatchAct OutboxEnv)} (h : run outboxStep s as = some t) :
    OutboxLater s.shared t.shared :=
  run_rel (I := DispatchersOK) (fun _ _ _ hu hst => outbox_relyGuarantee.step hu hst)
    (fun _ => .refl _) .trans (fun _ _ _ hu hst => outboxStep_later hu hst) h hs

end Aeropass
