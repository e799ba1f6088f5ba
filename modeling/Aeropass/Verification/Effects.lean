import Aeropass.Outbox.Delivery
import Aeropass.Verification.Progress
import Aeropass.Verification.System

/-!
# What a step of the verification services does

Of all that calls, dispatchers and the environment do, three things matter to the tables of the
verification: a registration adds a passenger, the transaction of a call adds an attempt with all
that follows from it (`AttemptCommit`), and every other step leaves the attempts, the identities,
the passengers and the events of the outbox as they are (`Unmoved`).
-/

namespace Aeropass

open Runs Threads

/-- The `datos` of the event of an identity, which do not depend on its id and instant. -/
def IdentidadDigital.datos (x : IdentidadDigital) : Json.Dict :=
  (CredencialEmitidaV1.fromIdentity x 0 0).datos

/-- The event of an identity. -/
structure EventOf (event : DomainEvent) (x : IdentidadDigital) : Prop where
  tipo : event.tipo = CredencialEmitidaV1.tipo
  datos : event.datos = x.datos

/-- The events of the outbox, in the order of their rows. -/
def OutboxTable.events (t : OutboxTable) : List DomainEvent := t.rows.map OutboxEntry.event

@[simp] theorem OutboxTable.events_lease (t : OutboxTable) (claimed : List OutboxEntry)
    (leaseUntil : Instant) : (t.lease claimed leaseUntil).events = t.events := by
  simp only [events, lease, Rows.map, List.map_map]
  congr 1
  funext r
  simp only [Function.comp_apply]
  split <;> rfl

@[simp] theorem OutboxTable.events_save (t : OutboxTable) (e : OutboxEntry) :
    (t.save e).events = t.events := by
  simp only [events, save, Rows.modify, Rows.map, List.map_map]
  congr 1
  funext r
  simp only [Function.comp_apply]
  split <;> rfl

/-- A dispatcher leaves the events of the outbox. -/
theorem DispatchEffect.events {w w' : OutboxWorld} {ph ph' : DispatchPhase}
    (h : DispatchEffect w w' ph ph') : w'.outbox.events = w.outbox.events := by
  cases h with
  | other ho => rw [ho]
  | claim _ _ hw => rw [hw]; exact OutboxTable.events_lease ..
  | save _ hw => rw [hw]; exact OutboxTable.events_save ..

/-! ## The transaction -/

/-- A step that leaves the verification as it is. -/
structure Unmoved (w w' : VerificationWorld) : Prop where
  pasajeros : w'.pasajeros = w.pasajeros
  intentos : w'.intentos = w.intentos
  identidades : w'.identidades = w.identidades
  events : w'.out.outbox.events = w.out.outbox.events

theorem Unmoved.refl (w : VerificationWorld) : Unmoved w w := ⟨rfl, rfl, rfl, rfl⟩

/-- What the transaction of an attempt `a` leaves: the attempt with its effect on the passenger,
and for a success either the identity `x` with its event, or the active identity there was. -/
structure AttemptCommit (w w' : VerificationWorld) (o : VerificationOutcome)
    (event : Option DomainEvent) (p p' : PasajeroRow) : Prop where
  found : w.pasajeros.find? o.intento.pasajeroId = some p
  step : p.progress.step o.intento.resultado = some p'.progress
  id : p'.id = p.id
  pasajeros : w'.pasajeros = savePasajero w.pasajeros p'
  intentos : w'.intentos.rows = w.intentos.rows ++ [o.intento.row]
  answer : o.pasajero = { p' with identidadId := o.identidadId }
  sigue : o.intento.resultado ≠ .exitoso → w'.identidades = w.identidades ∧
    w'.out.outbox = w.out.outbox ∧ o.identidadId = none ∧ event = none
  exito : o.intento.resultado = .exitoso →
    match getActive w.identidades.rows p.id with
    | some x => w'.identidades = w.identidades ∧ w'.out.outbox = w.out.outbox ∧
      o.identidadId = some x.id ∧ event = none
    | none => ∃ x ev, x.pasajeroId = p.id ∧ x.intentoOrigenId = o.intento.id ∧ x.activa ∧
      w'.identidades.rows = w.identidades.rows ++ [x] ∧ event = some ev ∧
      w'.out.outbox.rows = w.out.outbox.rows ++ [.pendiente ev] ∧ EventOf ev x ∧
      o.identidadId = some x.id

variable {cfg : VerificationSettings} {w w' : VerificationWorld} {pasajero pasajero' : Pasajero}
  {intento : IntentoVerificacion} {intentoId identidadId eventId : UUID} {stored : StoredMedia}
  {result : Option BiometricResult} {ch : VerificationChoice} {o : VerificationOutcome}
  {event : Option DomainEvent}

/-- What nothing refuses is appended. -/
theorem insertIntento_rows {t : Rows IntentoVerificacionRow.id} {r : IntentoVerificacionRow}
    (h : insertIntentoError t r = none) : ((t.insert? r).getD t).rows = t.rows ++ [r] := by
  have hfree : t.find? r.id = none := by
    unfold insertIntentoError at h
    repeat' split at h
    all_goals first
      | exact Option.not_isSome_iff_eq_none.1 ‹_›
      | cases h
  obtain ⟨t', ht', hrows⟩ := Rows.insert?_of_free hfree
  rw [ht']
  exact hrows

/-- An identity that is accepted is the last row. -/
theorem insertIdentidad_rows {t : Rows IdentidadDigital.id} {x : IdentidadDigital}
    (h : insertIdentidadError t x = none) : ((t.insert? x).getD t).rows = t.rows ++ [x] := by
  have hfree : t.find? x.id = none := by
    unfold insertIdentidadError at h
    split at h
    · cases h
    · exact Option.not_isSome_iff_eq_none.1 ‹_›
  obtain ⟨t', ht', hrows⟩ := Rows.insert?_of_free hfree
  rw [ht']
  exact hrows

/-- What `record_attempt` leaves. -/
theorem recordAttempt_ok {ahora : Instant}
    (h : recordAttempt cfg w ahora pasajero intentoId stored result =
      .ok (w', pasajero', intento)) :
    intento.id = intentoId ∧ intento.pasajeroId = pasajero.id ∧
      pasajero.progress.step intento.resultado = some pasajero'.progress ∧
      pasajero'.id = pasajero.id ∧ w'.intentos.rows = w.intentos.rows ++ [intento.row] ∧
      w'.pasajeros = savePasajero w.pasajeros pasajero'.toPasajeroRow ∧
      w'.identidades = w.identidades ∧ w'.out = w.out := by
  simp only [recordAttempt] at h
  split at h
  · cases h
  · next p hp =>
    obtain ⟨hstep, hid⟩ := Pasajero.applyOutcome_ok hp
    split at h
    · cases h
    · next hins =>
      split at h
      · cases h
      · cases h
        exact ⟨rfl, rfl, hstep, hid, insertIntento_rows hins, rfl, rfl, rfl⟩

/-- What `create_for_success` leaves and answers. -/
theorem createForSuccess_ok {x : IdentidadDigital}
    (h : createForSuccess w pasajero intento identidadId eventId = .ok (w', x, event)) :
    w'.pasajeros = w.pasajeros ∧ w'.intentos = w.intentos ∧
      ((getActive w.identidades.rows pasajero.id = some x ∧ w' = w ∧ event = none) ∨
      (getActive w.identidades.rows pasajero.id = none ∧ x.pasajeroId = pasajero.id ∧
        x.intentoOrigenId = intento.id ∧ x.activa ∧
        w'.identidades.rows = w.identidades.rows ++ [x] ∧ ∃ ev, event = some ev ∧
        w'.out.outbox.rows = w.out.outbox.rows ++ [.pendiente ev] ∧ EventOf ev x)) := by
  unfold createForSuccess at h
  split at h
  · next hact =>
    cases h
    exact ⟨rfl, rfl, .inl ⟨hact, rfl, rfl⟩⟩
  · next hact =>
    simp only at h
    split at h
    · cases h
    · next hins =>
      split at h
      · cases h
      · next hout =>
        cases h
        refine ⟨rfl, rfl, .inr ⟨hact, rfl, rfl, rfl, insertIdentidad_rows hins, _, rfl, ?_, ?_⟩⟩
        · exact (Rows.insert?_eq_some.1 hout).2
        · exact ⟨rfl, rfl⟩

/-- What the transaction leaves and answers. -/
theorem verifyTx_ok {id : UUID}
    (h : verifyTx cfg w id intentoId stored result ch = .ok (w', o, event)) :
    o.intento.id = intentoId ∧ o.intento.pasajeroId = id ∧
      ∃ p p', AttemptCommit w w' o event p p' := by
  unfold verifyTx at h
  split at h
  · cases h
  · next p hp =>
    have hpid := Rows.find?_key hp
    simp only at h
    split at h
    · cases h
    · split at h
      · cases h
      · next w₁ locked intento hrec =>
        obtain ⟨hi, hpas, hstep, hid, hints, hsave, hident, hout⟩ := recordAttempt_ok hrec
        simp only at hpas hstep hid
        split at h
        · next hex =>
          split at h
          · cases h
          · next w₂ x ev hcre =>
            cases h
            obtain ⟨h1, h2, hx⟩ := createForSuccess_ok hcre
            rw [hid, hident, hout] at hx
            refine ⟨hi, hpas.trans hpid, p, locked.toPasajeroRow, ?_⟩
            exact {
              found := by rw [hpas, hpid, hp]
              step := hstep
              id := hid
              pasajeros := by rw [h1, hsave]
              intentos := by rw [h2, hints]
              answer := rfl
              sigue := fun hne => absurd hex hne
              exito := fun _ => by
                rcases hx with ⟨hact, rfl, rfl⟩ | ⟨hact, hxp, hxi, hxa, hrows, e, rfl, hout', hn⟩
                · rw [hact]
                  exact ⟨hident, by rw [hout], rfl, rfl⟩
                · rw [hact]
                  exact ⟨x, e, hxp, hxi, hxa, hrows, rfl, hout', hn, rfl⟩ }
        · next hne =>
          cases h
          refine ⟨hi, hpas.trans hpid, p, locked.toPasajeroRow, ?_⟩
          exact {
            found := by rw [hpas, hpid, hp]
            step := hstep
            id := hid
            pasajeros := hsave
            intentos := hints
            answer := rfl
            sigue := fun _ => ⟨hident, by rw [hout], rfl, rfl⟩
            exito := fun hex => absurd hex hne }

/-! ## The calls -/

/-- What a call will answer, from its commit on. -/
def VerifyPhase.outcome? : VerifyPhase → Option VerificationOutcome
  | .publishing _ o _ | .done (.ok o) => some o
  | .start | .storing .. | .evaluating .. | .evaluated .. | .done (.error _) => none

/-- The same with the passenger that the call is about. -/
def Verifier.outcome? : Verifier → Option (UUID × VerificationOutcome)
  | .verify pasajero _ ph => ph.outcome?.map fun o => (pasajero.id, o)
  | .idle | .dispatcher _ => none

/-- What a step of a call can do: leave the verification and its answer as they are, or commit. -/
inductive VerifierEffect (w w' : VerificationWorld) : Verifier → Verifier → Prop
  | quiet {l l'} : Unmoved w w' → l'.outcome? = l.outcome? → VerifierEffect w w' l l'
  | commit {pasajero selfie ph ph' o event p p'} : ph.outcome? = none →
    AttemptCommit w w' o event p p' → o.intento.pasajeroId = pasajero.id → ph'.outcome? = some o →
    VerifierEffect w w' (.verify pasajero selfie ph) (.verify pasajero selfie ph')

/-- What one step of the facade does: it leaves the tables, or commits one attempt. -/
theorem verifyStep_effect {selfie : ImageInput} {ph : VerifyPhase}
    {r : VerificationWorld × VerifyPhase} (h : verifyStep cfg w pasajero selfie ch ph = some r) :
    VerifierEffect w r.1 (.verify pasajero selfie ph) (.verify pasajero selfie r.2) := by
  have hsame : ∀ {ph' : VerifyPhase}, ph'.outcome? = ph.outcome? →
      VerifierEffect w w (.verify pasajero selfie ph) (.verify pasajero selfie ph') := by
    intro ph' h
    exact .quiet (.refl w) (by simp only [Verifier.outcome?, h])
  cases ph with
  | start =>
    simp only [verifyStep] at h
    split at h
    · cases h; exact hsame rfl
    · split at h <;> cases h <;> exact hsame rfl
  | storing imagen intentoId =>
    simp only [verifyStep] at h
    split at h
    · cases h; exact hsame rfl
    · split at h <;> cases h <;> exact hsame rfl
  | evaluating imagen referencia intentoId stored =>
    simp only [verifyStep] at h
    split at h
    · cases h; exact hsame rfl
    · split at h <;> cases h
      exact hsame rfl
  | evaluated intentoId stored result =>
    simp only [verifyStep] at h
    split at h
    · cases h; exact hsame rfl
    · next w' o event htx =>
      obtain ⟨-, hid, p, p', hc⟩ := verifyTx_ok htx
      split at h
      · cases h; exact hsame rfl
      · split at h <;> cases h <;> exact .commit rfl hc hid rfl
  | publishing eventId o d =>
    have hpub : ∀ {d}, (dispatchStep w.out 1 (some [eventId]) ch.dispatch d).map (fun r =>
        (({ w with out := r.1 } : VerificationWorld), VerifyPhase.publishing eventId o r.2)) =
          some r → VerifierEffect w r.1 (.verify pasajero selfie (.publishing eventId o d))
            (.verify pasajero selfie r.2) := by
      intro d h
      obtain ⟨r', hr', rfl⟩ := Option.map_eq_some_iff.1 h
      exact .quiet ⟨rfl, rfl, rfl, (dispatchStep_effect hr').events⟩ rfl
    cases d with
    | finished | failed => cases h; exact hsame rfl
    | start | claiming | publishing | answered | saving => exact hpub h
  | done r => cases h

/-- So it is with every call. -/
theorem verifierStep_effect {l : Verifier} {a : VerifierAct} {r : VerificationWorld × Verifier}
    (h : verifierStep cfg w l a = some r) : VerifierEffect w r.1 l r.2 := by
  unfold verifierStep at h
  split at h
  · cases h
    exact .quiet (.refl w) rfl
  · obtain ⟨r', hr', rfl⟩ := Option.map_eq_some_iff.1 h
    exact verifyStep_effect hr'
  · obtain ⟨r', hr', rfl⟩ := Option.map_eq_some_iff.1 h
    exact .quiet ⟨rfl, rfl, rfl, (dispatcherStep_effect hr').events⟩ rfl
  · obtain ⟨r', hr', rfl⟩ := Option.map_eq_some_iff.1 h
    exact .quiet ⟨rfl, rfl, rfl, (dispatcherStep_effect hr').events⟩ rfl
  · cases h

/-- The environment registers a passenger or changes nothing of the verification. -/
theorem verificationEnvStep_effect {e : VerificationEnv}
    (h : verificationEnvStep w e = some w') :
    Unmoved w w' ∨ ∃ p : PasajeroRow, p.progress = {} ∧ w.pasajeros.insert? p = some w'.pasajeros ∧
      w' = { w with pasajeros := w'.pasajeros } := by
  cases e with
  | tick d =>
    cases h
    exact .inl ⟨rfl, rfl, rfl, rfl⟩
  | register id clerkUserId datos foto =>
    obtain ⟨t, ht, rfl⟩ := Option.map_eq_some_iff.1 h
    exact .inr ⟨_, rfl, ht, rfl⟩

end Aeropass
