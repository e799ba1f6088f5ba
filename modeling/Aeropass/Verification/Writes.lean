import Aeropass.Verification.Inv

/-!
# What the transaction of an attempt writes

Besides what `AttemptCommit` says of the order of things: which columns of the passenger change,
that the constraints of the tables accept the rows, and that the identity is dated by the clock of
the commit, the attempt and the passenger by the earlier one of `record_attempt`.
-/

namespace Aeropass

open Runs Threads

/-- The passenger `p` becomes `p'`; the new attempt and the new identity pass their constraints. -/
structure TxWrites (w w' : VerificationWorld) (o : VerificationOutcome) (p p' : PasajeroRow) :
    Prop where
  columnas : p' = { p with
    estado := p'.estado, intentosFallidos := p'.intentosFallidos
    updatedAt := some o.intento.createdAt }
  rango : p'.intentosFallidos ≤ 3
  intento : insertIntentoError w.intentos o.intento.row = none
  fecha : ∃ demora, o.intento.createdAt = recordedAt w.out.clock p demora
  identidad : ∀ x ∈ w'.identidades.rows, x ∈ w.identidades.rows ∨
    insertIdentidadError w.identidades x = none ∧ x.createdAt = w.out.clock
  clock : w'.out.clock = w.out.clock

variable {cfg : VerificationSettings} {w w' : VerificationWorld} {pasajero pasajero' : Pasajero}
  {intento : IntentoVerificacion} {intentoId identidadId eventId : UUID} {stored : StoredMedia}
  {result : Option BiometricResult} {ch : VerificationChoice} {o : VerificationOutcome}
  {event : Option DomainEvent} {id : UUID}

/-- `apply_outcome` moves the state, the counter and the date. -/
theorem Pasajero.applyOutcome_columns {p q : Pasajero} {resultado : ResultadoIntento}
    {ahora : Instant} (h : p.applyOutcome resultado ahora = .ok q) :
    q = { p with
      estado := q.estado, intentosFallidos := q.intentosFallidos, updatedAt := some ahora } := by
  simp only [applyOutcome, bind, Except.bind] at h
  split at h
  · cases h
  · cases resultado <;> cases h <;> rfl

/-- What `record_attempt` writes. -/
theorem recordAttempt_writes {ahora : Instant}
    (h : recordAttempt cfg w ahora pasajero intentoId stored result =
      .ok (w', pasajero', intento)) :
    pasajero' = { pasajero with
      estado := pasajero'.estado, intentosFallidos := pasajero'.intentosFallidos
      updatedAt := some intento.createdAt } ∧
    pasajero'.intentosFallidos ≤ 3 ∧ insertIntentoError w.intentos intento.row = none ∧
    intento.createdAt = ahora := by
  simp only [recordAttempt] at h
  split at h
  · cases h
  · next p hp =>
    have hcols := Pasajero.applyOutcome_columns hp
    split at h
    · cases h
    · next hins =>
      split at h
      · cases h
      · next hsave =>
        cases h
        refine ⟨hcols, ?_, hins, rfl⟩
        unfold savePasajeroError at hsave
        split at hsave
        · assumption
        · cases hsave

/-- What `create_for_success` writes. -/
theorem createForSuccess_writes {x : IdentidadDigital}
    (h : createForSuccess w pasajero intento identidadId eventId = .ok (w', x, event)) :
    w'.out.clock = w.out.clock ∧ ∀ y ∈ w'.identidades.rows, y ∈ w.identidades.rows ∨
      insertIdentidadError w.identidades y = none ∧ y.createdAt = w.out.clock := by
  unfold createForSuccess at h
  split at h
  · cases h
    exact ⟨rfl, fun y hy => .inl hy⟩
  · simp only at h
    split at h
    · cases h
    · next hins =>
      split at h
      · cases h
      · cases h
        refine ⟨rfl, fun y hy => ?_⟩
        have hy := insertIdentidad_rows hins ▸ hy
        rcases List.mem_append.1 hy with hy | hy
        · exact .inl hy
        · cases List.mem_singleton.1 hy
          exact .inr ⟨hins, rfl⟩

/-- The transaction commits as `AttemptCommit` says and writes what `TxWrites` says. -/
theorem verifyTx_writes (h : verifyTx cfg w id intentoId stored result ch = .ok (w', o, event)) :
    o.intento.pasajeroId = id ∧
      ∃ p p', AttemptCommit w w' o event p p' ∧ TxWrites w w' o p p' := by
  obtain ⟨-, hid, p, p', hc⟩ := verifyTx_ok h
  refine ⟨hid, p, p', hc, ?_⟩
  have hfound := hid ▸ hc.found
  have hfind : w'.pasajeros.find? id = some p' := by rw [hc.find?, if_pos hid]
  unfold verifyTx at h
  rw [hfound] at h
  dsimp only at h
  split at h
  · cases h
  split at h
  · cases h
  next w₁ locked intento hrec =>
  obtain ⟨hcols, hrango, hins, hfecha⟩ := recordAttempt_writes hrec
  obtain ⟨-, hpas, -, hlid, -, hsave, hident, hout⟩ := recordAttempt_ok hrec
  have hrow : w₁.pasajeros.find? id = some locked.toPasajeroRow := by
    rw [hsave, find?_savePasajero, if_pos (hlid.trans (Rows.find?_key hfound)), hfound]
    rfl
  have hp' : ∀ {w₂ : VerificationWorld}, w₂.pasajeros = w₁.pasajeros → w' = w₂ →
      p' = locked.toPasajeroRow := by
    rintro w₂ h2 rfl
    rw [h2, hrow, Option.some.injEq] at hfind
    exact hfind.symm
  have hcols' : locked.toPasajeroRow = { p with
      estado := locked.estado, intentosFallidos := locked.intentosFallidos
      updatedAt := some intento.createdAt } := by rw [hcols]
  split at h
  · split at h
    · cases h
    next w₂ x ev hcre =>
    cases h
    obtain ⟨hclock, hids⟩ := createForSuccess_writes hcre
    obtain rfl := hp' (createForSuccess_ok hcre).1 rfl
    rw [hident, hout] at hids
    exact ⟨hcols', hrango, hins, ⟨_, hfecha⟩, hids, by rw [hclock, hout]⟩
  · cases h
    obtain rfl := hp' rfl rfl
    exact ⟨hcols', hrango, hins, ⟨_, hfecha⟩, fun x hx => .inl (hident ▸ hx), by rw [hout]⟩

/-! ## Steps -/

/-- The passenger whose row the next step of a call locks. -/
def Verifier.locksNext : Verifier → Option UUID
  | .verify pasajero _ (.evaluated ..) => some pasajero.id
  | _ => none

/-- A dispatcher leaves the clock. -/
theorem DispatchEffect.clock {w w' : OutboxWorld} {ph ph' : DispatchPhase}
    (h : DispatchEffect w w' ph ph') : w'.clock = w.clock := by
  cases h with
  | other _ hc => exact hc
  | claim _ _ hw => rw [hw]
  | save _ hw => rw [hw]

/-- What a step of the verification writes: nothing of its tables, or what a transaction does. -/
def VerifierWrites (w w' : VerificationWorld) (l : Verifier) : Prop :=
  w'.out.clock = w.out.clock ∧ (Unmoved w w' ∨ ∃ o event p p',
    l.locksNext = some o.intento.pasajeroId ∧ AttemptCommit w w' o event p p' ∧
    TxWrites w w' o p p')

theorem VerifierWrites.same (w : VerificationWorld) (l : Verifier) : VerifierWrites w w l :=
  ⟨rfl, .inl (.refl w)⟩

theorem VerifierWrites.dispatch {out : OutboxWorld} {ph ph' : DispatchPhase} (l : Verifier)
    (h : DispatchEffect w.out out ph ph') : VerifierWrites w { w with out } l :=
  ⟨h.clock, .inl ⟨rfl, rfl, rfl, h.events⟩⟩

/-- What one step of the facade writes. -/
theorem verifyStep_writes {selfie : ImageInput} {ph : VerifyPhase}
    {r : VerificationWorld × VerifyPhase} (h : verifyStep cfg w pasajero selfie ch ph = some r) :
    VerifierWrites w r.1 (.verify pasajero selfie ph) := by
  cases ph with
  | start | storing | evaluating =>
    simp only [verifyStep] at h
    repeat' split at h
    all_goals cases h
    all_goals exact .same ..
  | evaluated intentoId stored result =>
    simp only [verifyStep] at h
    split at h
    · cases h; exact .same ..
    · next w' o event htx =>
      obtain ⟨hid, p, p', hc, hw⟩ := verifyTx_writes htx
      have hcommit : VerifierWrites w w'
          (.verify pasajero selfie (.evaluated intentoId stored result)) :=
        ⟨hw.clock, .inr ⟨o, event, p, p', by rw [hid]; rfl, hc, hw⟩⟩
      split at h
      · cases h; exact .same ..
      · split at h <;> cases h <;> exact hcommit
  | publishing eventId o d =>
    have hpub : ∀ {d}, (dispatchStep w.out 1 (some [eventId]) ch.dispatch d).map (fun r =>
        (({ w with out := r.1 } : VerificationWorld), VerifyPhase.publishing eventId o r.2)) =
          some r → VerifierWrites w r.1 (.verify pasajero selfie (.publishing eventId o d)) := by
      intro d h
      obtain ⟨r', hr', rfl⟩ := Option.map_eq_some_iff.1 h
      exact .dispatch _ (dispatchStep_effect hr')
    cases d with
    | finished | failed => cases h; exact .same ..
    | start | claiming | publishing | answered | saving => exact hpub h
  | done => cases h

/-- What a step of any call writes. -/
theorem verifierStep_writes {l : Verifier} {a : VerifierAct} {r : VerificationWorld × Verifier}
    (h : verifierStep cfg w l a = some r) : VerifierWrites w r.1 l := by
  unfold verifierStep at h
  split at h
  · cases h; exact .same ..
  · obtain ⟨r', hr', rfl⟩ := Option.map_eq_some_iff.1 h
    exact verifyStep_writes hr'
  · obtain ⟨r', hr', rfl⟩ := Option.map_eq_some_iff.1 h
    exact .dispatch _ (dispatcherStep_effect hr')
  · obtain ⟨r', hr', rfl⟩ := Option.map_eq_some_iff.1 h
    exact .dispatch _ (dispatcherStep_effect hr')
  · cases h

end Aeropass
