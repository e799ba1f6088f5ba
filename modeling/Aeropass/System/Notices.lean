import Aeropass.Outbox.Consumer
import Aeropass.System.Custody

/-!
# Every verified passenger is announced once

The outbox inside the backend runs as in its own model: a transaction that creates an identity is
there the environment that adds an event, and the call that publishes it afterwards a dispatcher
(`outboxOf_step`). So the consumer of the events, who deduplicates by id, is told of verified
identities only, of each at most once, and of all when nothing is PENDIENTE.
-/

namespace Aeropass

open Inbox Runs Threads

variable {cfg : BackendSettings} {s t : BackendSystem} {o : OutboxSystem} {w w' : BackendWorld}

/-! ## The outbox in the backend -/

/-- The dispatcher that a call of the backend is. A call that has ended may have been one. -/
def Service.Dispatches : Service → Dispatcher → Prop
  | .verification (.dispatcher d), d' => d' = d
  | .verification (.verify _ _ (.publishing eventId _ ph)), d' => d' = .publishNow [eventId] ph
  | .verification (.verify _ _ (.done _)), _ => True
  | _, d' => d' = .idle

/-- `o` is the outbox of `s`. -/
structure OutboxOf (s : BackendSystem) (o : OutboxSystem) : Prop where
  shared : o.shared = s.shared.out
  locals : ∀ i, (s.locals i).Dispatches (o.locals i)

/-- What the transaction of an attempt does to the outbox: nothing, or it adds an event of its
instant. -/
theorem verifyTx_outbox {cfg : VerificationSettings} {w w' : VerificationWorld}
    {id intentoId : UUID} {stored : StoredMedia} {result : Option BiometricResult}
    {ch : VerificationChoice} {o : VerificationOutcome} {event : Option DomainEvent}
    (h : verifyTx cfg w id intentoId stored result ch = .ok (w', o, event)) :
    (event = none ∧ w'.out = w.out) ∨ ∃ ev, event = some ev ∧
      outboxEnvStep w.out (.add ev) = some w'.out := by
  unfold verifyTx at h
  split at h
  · cases h
  dsimp only at h
  split at h
  · cases h
  split at h
  · cases h
  next w₁ locked intento hrec =>
  obtain ⟨-, -, -, -, -, -, -, hout⟩ := recordAttempt_ok hrec
  split at h
  · split at h
    · cases h
    next w₂ x ev hcre =>
    cases h
    unfold createForSuccess at hcre
    split at hcre
    · cases hcre
      exact .inl ⟨rfl, hout⟩
    simp only at hcre
    split at hcre
    · cases hcre
    split at hcre
    · cases hcre
    next outbox hins =>
    cases hcre
    refine .inr ⟨_, rfl, ?_⟩
    rw [hout] at hins
    simp only [outboxEnvStep, hout, hins]
    exact if_pos (Int.le_refl _)
  · cases h
    exact .inl ⟨rfl, hout⟩

/-- The steps of the outbox that follow a step of a verifying call. -/
theorem verifyStep_outbox {cfg : VerificationSettings} {v : VerificationWorld} {i : Nat}
    {pasajero : Pasajero} {selfie : ImageInput} {ch : VerificationChoice} {ph : VerifyPhase}
    {r : VerificationWorld × VerifyPhase} (ho : o.shared = v.out)
    (hd : (Service.verification (.verify pasajero selfie ph)).Dispatches (o.locals i))
    (h : verifyStep cfg v pasajero selfie ch ph = some r) :
    ∃ bs o', run outboxStep o bs = some o' ∧ o'.shared = r.1.out ∧
      (Service.verification (.verify pasajero selfie r.2)).Dispatches (o'.locals i) ∧
      ∀ j, j ≠ i → o'.locals j = o.locals j := by
  cases ph with
  | start | storing | evaluating =>
    simp only [verifyStep] at h
    repeat' split at h
    all_goals cases h
    all_goals exact ⟨[], o, rfl, ho, by first | exact hd | trivial, fun _ _ => rfl⟩
  | evaluated intentoId stored result =>
    simp only [verifyStep] at h
    split at h
    · cases h; exact ⟨[], o, rfl, ho, trivial, fun _ _ => rfl⟩
    next v' out event htx =>
    split at h
    · cases h; exact ⟨[], o, rfl, ho, trivial, fun _ _ => rfl⟩
    rcases verifyTx_outbox htx with ⟨rfl, hout⟩ | ⟨ev, rfl, hadd⟩
    · cases h
      exact ⟨[], o, rfl, by rw [ho, hout], trivial, fun _ _ => rfl⟩
    · cases h
      -- the event is added, and the call is from here on the dispatcher that publishes it
      obtain ⟨u, hu, hsh, hl, hother⟩ := outboxProgram.step_of_call (i := i)
        (s := ⟨v'.out, o.locals⟩) (b := .publishNow [ev.id])
        (r := (v'.out, .publishNow [ev.id] .start)) (by
          have hidle : o.locals i = .idle := hd
          change dispatcherStep v'.out (o.locals i) _ = _
          rw [hidle]
          rfl)
      refine ⟨[.env (.add ev), .call i (.publishNow [ev.id])], u, ?_, hsh, hl, hother⟩
      have hstep : outboxStep o (.env (.add ev)) = some ⟨v'.out, o.locals⟩ := by
        change (outboxEnvStep o.shared (.add ev)).map _ = _
        rw [ho, hadd]
        rfl
      rw [run_cons, hstep, Option.bind_some, run_singleton]
      exact hu
  | publishing eventId out d =>
    have hd : o.locals i = .publishNow [eventId] d := hd
    have hpub : ∀ {r}, (dispatchStep v.out 1 (some [eventId]) ch.dispatch d).map (fun r =>
        (({ v with out := r.1 } : VerificationWorld), VerifyPhase.publishing eventId out r.2)) =
          some r → ∃ bs o', run outboxStep o bs = some o' ∧ o'.shared = r.1.out ∧
        (Service.verification (.verify pasajero selfie r.2)).Dispatches (o'.locals i) ∧
        ∀ j, j ≠ i → o'.locals j = o.locals j := by
      intro r h
      obtain ⟨r', hr', rfl⟩ := Option.map_eq_some_iff.1 h
      obtain ⟨u, hu, hsh, hl, hother⟩ := outboxProgram.step_of_call (i := i) (s := o)
        (b := .next ch.dispatch) (r := (r'.1, .publishNow [eventId] r'.2)) (by
          change dispatcherStep o.shared (o.locals i) _ = _
          rw [ho, hd]
          change (dispatchStep v.out 1 (some [eventId]) ch.dispatch d).map _ = _
          rw [hr']
          rfl)
      exact ⟨[.call i (.next ch.dispatch)], u, by rw [run_singleton]; exact hu, hsh, hl, hother⟩
    cases d with
    | finished | failed =>
      cases h; exact ⟨[], o, rfl, ho, trivial, fun _ _ => rfl⟩
    | start | claiming | publishing | answered | saving => exact hpub h
  | done => cases h

/-- The steps of the outbox that follow a step of a call of the verification. -/
theorem verifierStep_outbox {cfg : VerificationSettings} {v : VerificationWorld} {i : Nat}
    {l : Verifier} {a : VerifierAct} {r : VerificationWorld × Verifier} (ho : o.shared = v.out)
    (hd : (Service.verification l).Dispatches (o.locals i)) (h : verifierStep cfg v l a = some r) :
    ∃ bs o', run outboxStep o bs = some o' ∧ o'.shared = r.1.out ∧
      (Service.verification r.2).Dispatches (o'.locals i) ∧
      ∀ j, j ≠ i → o'.locals j = o.locals j := by
  have hdispatch : ∀ {d b r'}, o.locals i = d → dispatcherStep v.out d b = some r' →
      ∃ bs o', run outboxStep o bs = some o' ∧ o'.shared = r'.1 ∧ o'.locals i = r'.2 ∧
        ∀ j, j ≠ i → o'.locals j = o.locals j := by
    intro d b r' hd hr'
    obtain ⟨u, hu, hrest⟩ := outboxProgram.step_of_call (i := i) (s := o) (b := b) (r := r') (by
      change dispatcherStep o.shared (o.locals i) b = _
      rw [ho, hd]
      exact hr')
    exact ⟨[.call i b], u, by rw [run_singleton]; exact hu, hrest⟩
  unfold verifierStep at h
  split at h
  · cases h; exact ⟨[], o, rfl, ho, hd, fun _ _ => rfl⟩
  · obtain ⟨r', hr', rfl⟩ := Option.map_eq_some_iff.1 h
    exact verifyStep_outbox ho hd hr'
  · obtain ⟨r', hr', rfl⟩ := Option.map_eq_some_iff.1 h
    exact hdispatch hd hr'
  · obtain ⟨r', hr', rfl⟩ := Option.map_eq_some_iff.1 h
    exact hdispatch hd hr'
  · cases h

/-- The outbox follows each step of the backend. -/
theorem outboxOf_step {a : Act ServiceAct Nat} (ho : OutboxOf s o)
    (h : backendStep cfg s a = some t) :
    ∃ bs o', run outboxStep o bs = some o' ∧ OutboxOf t o' := by
  cases backendStep_cases h with
  | @registration i l a r hl _ hsh ht hother =>
    refine ⟨[], o, rfl, by rw [hsh]; exact ho.shared, fun j => ?_⟩
    refine Sys.forall_locals (fun j l => l.Dispatches (o.locals j)) ?_ hother
      (fun j _ => ho.locals j) j
    have := ho.locals i
    rw [hl] at this
    rw [ht]
    exact this
  | @credentials i l a r hl _ hsh ht hother =>
    refine ⟨[], o, rfl, by rw [hsh]; exact ho.shared, fun j => ?_⟩
    refine Sys.forall_locals (fun j l => l.Dispatches (o.locals j)) ?_ hother
      (fun j _ => ho.locals j) j
    have := ho.locals i
    rw [hl] at this
    rw [ht]
    exact this
  | @verification i l a r hl _ hr hsh ht hother =>
    have hd := ho.locals i
    rw [hl] at hd
    obtain ⟨bs, o', hbs, hsh', hl', hother'⟩ := verifierStep_outbox
      (v := s.shared.verification) ho.shared hd hr
    refine ⟨bs, o', hbs, by rw [hsh', hsh]; rfl, fun j => ?_⟩
    refine Sys.forall_locals (fun j l => l.Dispatches (o'.locals j)) (by rw [ht]; exact hl') hother
      (fun j hj => ?_) j
    rw [hother' j hj]
    exact ho.locals j
  | @tick d he hl =>
    refine ⟨[.env (.tick d)], ⟨t.shared.out, o.locals⟩, ?_, rfl, fun j => ?_⟩
    · rw [run_singleton, ← Option.some.inj he]
      change some _ = some _
      rw [ho.shared]
    · rw [hl]
      exact ho.locals j

/-- The outbox of an initial state. -/
def BackendSystem.outbox (s : BackendSystem) : OutboxSystem := ⟨s.shared.out, fun _ => .idle⟩

/-- The outbox of an empty backend is an empty outbox. -/
theorem BackendSystem.Initial.outboxOf (h : s.Initial) :
    s.outbox.Initial ∧ OutboxOf s s.outbox := by
  refine ⟨⟨h.outbox, h.accepted, rfl⟩, rfl, fun i => ?_⟩
  have hi := h.locals i
  cases hl : s.locals i with
  | registration | credentials => rfl
  | verification l =>
    rw [hl] at hi
    obtain rfl : l = .idle := hi
    rfl

/-- In every reachable state of the backend its outbox is a reachable one. -/
theorem backend_outbox (hs : Reachable BackendSystem.Initial (backendStep cfg) s) :
    ∃ o, Reachable OutboxSystem.Initial outboxStep o ∧ OutboxOf s o := by
  obtain ⟨s₀, as, h0, hrun⟩ := hs
  obtain ⟨hinit, hof⟩ := h0.outboxOf
  obtain ⟨bs, o, hbs, ho⟩ := run_sim (fun _ _ _ _ ho h => outboxOf_step ho h) hrun hof
  exact ⟨o, ⟨_, bs, hinit, hbs⟩, ho⟩

/-- **The outbox model is sound for the whole.** The outbox model follows every run of the backend,
with the same table, clock and messages accepted in each state reached, and with each call that
publishes or dispatches where it is. -/
theorem backend_follows_outbox {as : List (Act ServiceAct Nat)} (h0 : s.Initial)
    (h : run (backendStep cfg) s as = some t) :
    s.outbox.Initial ∧ ∃ bs o, run outboxStep s.outbox bs = some o ∧ o.shared = t.shared.out ∧
      ∀ i, (t.locals i).Dispatches (o.locals i) := by
  obtain ⟨hinit, hof⟩ := h0.outboxOf
  obtain ⟨bs, o, hbs, ho⟩ := run_sim (fun _ _ _ _ ho h => outboxOf_step ho h) h hof
  exact ⟨hinit, bs, o, hbs, ho.shared, ho.locals⟩

/-- The journey, as the outbox model sees it. -/
theorem backend_follows_outbox_journey :
    ∃ t, run (backendStep sampleBackendSettings) sampleBackend sampleJourney = some t ∧
      t.shared.out.outbox.rows.map (fun r => (r.id, r.estado)) = [(13, .pendiente)] ∧
      ∃ bs o, run outboxStep sampleBackend.outbox bs = some o ∧ o.shared = t.shared.out := by
  have hrows : (run (backendStep sampleBackendSettings) sampleBackend sampleJourney).map
      (fun t => t.shared.out.outbox.rows.map fun r => (r.id, r.estado)) =
        some [(13, .pendiente)] := by
    decide +kernel
  obtain ⟨t, ht, hr⟩ := Option.map_eq_some_iff.1 hrows
  obtain ⟨-, bs, o, hbs, ho, -⟩ := backend_follows_outbox sampleBackend_initial ht
  exact ⟨t, ht, hr, bs, o, hbs, ho⟩

/-! ## What a consumer is told -/

/-- The message of an identity. -/
def Announces (m : Publication) (x : IdentidadDigital) : Prop :=
  ∃ event, m = event.publication ∧ EventOf event x

/-- **Every verified passenger is announced once.** In every reachable state a consumer that
deduplicates by id has the messages of some identities of verified passengers, one each; a row that
is ENTREGADO is of one of these, and with nothing PENDIENTE they are all identities there are. What
the consumer has it keeps in every run from there. -/
theorem backend_notifies (hs : Reachable BackendSystem.Initial (backendStep cfg) s) :
    (∃ told ms, told.Sublist s.shared.identidades.rows ∧ ms.Perm s.shared.out.inbox ∧
      List.Forall₂ Announces ms told ∧
      (∀ x ∈ told, ∃ p, s.shared.pasajeros.find? x.pasajeroId = some p ∧
        p.estado = .verificado) ∧
      (∀ r ∈ s.shared.out.outbox.rows, r.estado = .entregado → ∃ x ∈ told, EventOf r.event x) ∧
      (s.shared.out.outbox.countPending = 0 → told = s.shared.identidades.rows)) ∧
    ∀ as t, run (backendStep cfg) s as = some t → s.shared.out.inbox <+: t.shared.out.inbox := by
  obtain ⟨o, ho, hof⟩ := backend_outbox hs
  have hok := outbox_inv ho
  constructor
  · have hacc := outbox_accepted ho
    rw [hof.shared] at hacc
    have hout : OutboxOK s.shared.out := hof.shared ▸ hok.1
    have hv := (backend_inv hs).verification
    have hpar := List.forall₂_map_left_iff.1 hv.eventos
    obtain ⟨told, hsub, htold, hall⟩ := Rows.exists_sublist_of_forall₂ hpar
      fun r => r.event.publication ∈ s.shared.out.accepted
    have hsaid : ∀ r ∈ s.shared.out.outbox.rows, r.estado = .entregado →
        r.event.publication ∈ s.shared.out.accepted := fun r hr he =>
      (hout.delivered (Rows.find?_of_mem hr) he).1
    refine ⟨told, _, hsub, hacc.inbox_perm.symm, ?_, fun x hx => ?_, fun r hr he => ?_,
      fun h0 => ?_⟩
    · refine List.forall₂_map_left_iff.2 (htold.imp fun r x hrx => ?_)
      exact ⟨r.event, rfl, hrx⟩
    · have hx : x ∈ s.shared.verification.identidades.rows := hsub.subset hx
      obtain ⟨a, ha, -, hap, -⟩ := hv.attempt_of_identity hx
      obtain ⟨p, hp⟩ := hv.owner ha
      rw [hap] at hp
      refine ⟨p, hp, (hv.verificado_iff hp).2 (List.ne_nil_of_mem (List.mem_filter.2 ⟨hx, ?_⟩))⟩
      exact decide_eq_true rfl
    · exact Rows.exists_right_of_forall₂ htold
        (List.mem_filter.2 ⟨hr, decide_eq_true (hsaid r hr he)⟩)
    · refine hall fun r hr => decide_eq_true (hsaid r hr ?_)
      cases hest : r.estado with
      | entregado => rfl
      | pendiente =>
        have hnil := List.length_eq_zero_iff.1 h0
        have : r ∈ s.shared.out.outbox.rows.filter fun r => r.estado = .pendiente :=
          List.mem_filter.2 ⟨hr, decide_eq_true hest⟩
        rw [hnil] at this
        cases this
  · intro as t h
    obtain ⟨bs, o', hbs, ho'⟩ := run_sim (fun _ _ _ _ ho h => outboxOf_step ho h) h hof
    have := outboxRun_inbox hok hbs
    rw [hof.shared, ho'.shared] at this
    exact this

/-- After the journey call 2 publishes the event, and the consumer knows identity 12. -/
theorem backend_notifies_journey :
    ∃ t told ms, run (backendStep sampleBackendSettings) sampleBackend
        (sampleJourney ++ List.replicate 6 (.call 2 (.verification (.next {})))) = some t ∧
      told = t.shared.identidades.rows ∧ told.map IdentidadDigital.id = [12] ∧
      ms.Perm t.shared.out.inbox ∧ List.Forall₂ Announces ms told := by
  have hrows : (run (backendStep sampleBackendSettings) sampleBackend
      (sampleJourney ++ List.replicate 6 (.call 2 (.verification (.next {}))))).map
        (fun t => (t.shared.identidades.rows.map IdentidadDigital.id,
          t.shared.out.outbox.countPending)) = some ([12], 0) := by
    decide +kernel
  obtain ⟨t, ht, hr⟩ := Option.map_eq_some_iff.1 hrows
  obtain ⟨hids, hcount⟩ := Prod.mk.inj hr
  obtain ⟨⟨told, ms, -, hperm, htells, -, -, hall⟩, -⟩ :=
    backend_notifies (.run (.start sampleBackend_initial) ht)
  have htold := hall hcount
  exact ⟨t, told, ms, ht, htold, htold ▸ hids, hperm, htells⟩

end Aeropass
