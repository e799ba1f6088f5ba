import Aeropass.Verification.Inv

/-!
# What a verification answers counts

The passenger that an outcome shows is the one that the attempts up to its own lead to (`Counted`),
whatever attempts of the same passenger committed between its reads and its transaction. So the
attempts left that the passenger is told are counted, and its state is final or not by the outcome.
The scores that an outcome tells are those that the provider gave (`Given`).
-/

namespace Aeropass

open Runs Threads

/-- The attempts of the passenger up to the outcome's own lead to the passenger it shows. -/
def Counted (w : VerificationWorld) (o : VerificationOutcome) : Prop :=
  ∃ before, before ++ [o.intento.row] <+: w.attemptsOf o.intento.pasajeroId ∧
    run Progress.step {} ((before ++ [o.intento.row]).map (·.resultado)) = some o.pasajero.progress

/-- The attempts of a passenger, up to some one, lead to this progress. -/
def Reached (w : VerificationWorld) (id : UUID) (progress : Progress) : Prop :=
  ∃ attempts, attempts <+: w.attemptsOf id ∧
    run Progress.step {} (attempts.map (·.resultado)) = some progress

/-- The scores of the attempt are those of a result that the provider gives, if there is one. -/
def VerificationOutcome.Given (cfg : VerificationSettings) (o : VerificationOutcome) : Prop :=
  ∃ result : Option BiometricResult, (∀ r ∈ result, cfg.gives r = true) ∧
    o.intento.scoreLiveness = result.map (·.scoreLiveness) ∧
    o.intento.scoreComparacion = result.map (·.scoreComparacion)

/-- What a call has of the provider is what the provider gives. -/
def VerifyPhase.Given (cfg : VerificationSettings) : VerifyPhase → Prop
  | .evaluated _ _ result => ∀ r ∈ result, cfg.gives r = true
  | .publishing _ o _ | .done (.ok o) => o.Given cfg
  | .start | .storing .. | .evaluating .. | .done (.error _) => True

/-- So it is with every call. -/
def Verifier.Given (cfg : VerificationSettings) : Verifier → Prop
  | .verify _ _ ph => ph.Given cfg
  | .idle | .dispatcher _ => True

variable {cfg : VerificationSettings} {w w' : VerificationWorld} {o : VerificationOutcome}
  {event : Option DomainEvent} {p p' : PasajeroRow} {id : UUID} {progress : Progress}

/-- Attempts are only added behind. -/
theorem VerificationLater.attemptsOf (h : VerificationLater w w') (id : UUID) :
    w.attemptsOf id <+: w'.attemptsOf id :=
  h.intentos.filter _

theorem Reached.stable (h : VerificationLater w w') (hr : Reached w id progress) :
    Reached w' id progress := by
  obtain ⟨attempts, hpre, hrun⟩ := hr
  exact ⟨attempts, hpre.trans (h.attemptsOf _), hrun⟩

/-- Before its first attempt a passenger is as it registered. -/
theorem Reached.initial : Reached w id {} := ⟨[], List.nil_prefix, rfl⟩

/-- The columns of a passenger record what its attempts so far lead to. -/
theorem VerificationOK.reached (hw : VerificationOK w) (hp : w.pasajeros.find? id = some p) :
    Reached w id p.progress :=
  ⟨_, List.prefix_rfl, hw.progress hp⟩

/-- The failures that a passenger has reached are at most three. -/
theorem Reached.fallidos_le (h : Reached w id progress) :
    progress.fallidos ≤ maxIntentosFallidos := by
  obtain ⟨attempts, -, hrun⟩ := h
  obtain ⟨hf, he⟩ := Progress.counts_of_run hrun
  simp only [maxIntentosFallidos]
  split at he <;> omega

theorem Counted.stable (h : VerificationLater w w') (hc : Counted w o) : Counted w' o := by
  obtain ⟨before, hpre, hrun⟩ := hc
  exact ⟨before, hpre.trans (h.attemptsOf _), hrun⟩

/-- A committed attempt is the last one so far. -/
theorem AttemptCommit.counted (h : AttemptCommit w w' o event p p') (hw : VerificationOK w) :
    Counted w' o := by
  have hattempts := h.attemptsOf o.intento.pasajeroId
  rw [if_pos rfl] at hattempts
  refine ⟨w.attemptsOf o.intento.pasajeroId, hattempts ▸ List.prefix_rfl, ?_⟩
  rw [List.map_append, h.answer]
  exact run_snoc.2 ⟨p.progress, hw.progress h.found, h.step⟩

/-- One step of a call keeps what its answer counts. -/
theorem verifierStep_counted (hw : VerificationOK w) {l : Verifier} {a : VerifierAct}
    {r : VerificationWorld × Verifier} (hl : ∀ id o, l.outcome? = some (id, o) → Counted w o)
    (h : verifierStep cfg w l a = some r) :
    ∀ id o, r.2.outcome? = some (id, o) → Counted r.1 o := by
  obtain ⟨w', l'⟩ := r
  intro id o ho
  cases verifierStep_effect h with
  | quiet hq hout => exact (hl id o (hout ▸ ho)).stable (hq.ok hw).2
  | commit _ hc _ hout =>
    simp only [Verifier.outcome?, hout, Option.map_some, Option.some.injEq, Prod.mk.injEq] at ho
    obtain ⟨-, rfl⟩ := ho
    exact hc.counted hw

/-! ## What the provider gave -/

/-- The attempt that the transaction records is evaluated on the result that it was given. -/
theorem verifyTx_evaluar {intentoId : UUID} {stored : StoredMedia}
    {result : Option BiometricResult} {ch : VerificationChoice}
    (h : verifyTx cfg w id intentoId stored result ch = .ok (w', o, event)) :
    ∃ ahora, o.intento = .evaluar intentoId id stored result cfg.umbrales cfg.proveedor ahora := by
  unfold verifyTx at h
  split at h
  · cases h
  next row hrow =>
  dsimp only at h
  split at h
  · cases h
  split at h
  · cases h
  next w₁ locked intento hrec =>
  have hid : row.id = id := Rows.find?_key hrow
  have hintento : intento = .evaluar intentoId id stored result cfg.umbrales cfg.proveedor
      (recordedAt w.out.clock row ch.demora) := by
    simp only [recordAttempt] at hrec
    repeat' split at hrec
    all_goals cases hrec
    rw [hid]
  split at h
  · split at h <;> cases h
    exact ⟨_, hintento⟩
  · cases h
    exact ⟨_, hintento⟩

/-- One step of the facade keeps what the provider gave. -/
theorem verifyStep_given {pasajero : Pasajero} {selfie : ImageInput} {ch : VerificationChoice}
    {ph : VerifyPhase} {r : VerificationWorld × VerifyPhase} (hl : ph.Given cfg)
    (h : verifyStep cfg w pasajero selfie ch ph = some r) : r.2.Given cfg := by
  cases ph with
  | start | storing =>
    simp only [verifyStep] at h
    repeat' split at h
    all_goals (cases h; trivial)
  | evaluating =>
    simp only [verifyStep] at h
    split at h
    · cases h; trivial
    split at h
    · next hgives =>
      cases h
      intro r hr
      rw [hr] at hgives
      exact hgives
    · cases h
  | evaluated intentoId stored result =>
    simp only [verifyStep] at h
    split at h
    · cases h; trivial
    next w' o event htx =>
    obtain ⟨ahora, hintento⟩ := verifyTx_evaluar htx
    have hgiven : o.Given cfg := ⟨result, hl, by rw [hintento]; rfl, by rw [hintento]; rfl⟩
    split at h
    · cases h; trivial
    split at h <;> (cases h; exact hgiven)
  | publishing eventId o d =>
    cases d with
    | finished | failed => cases h; exact hl
    | start | claiming | publishing | answered | saving =>
      simp only [verifyStep] at h
      obtain ⟨r', -, rfl⟩ := Option.map_eq_some_iff.1 h
      exact hl
  | done => cases h

/-- So does a step of any call. -/
theorem verifierStep_given {l : Verifier} {a : VerifierAct} {r : VerificationWorld × Verifier}
    (hl : l.Given cfg) (h : verifierStep cfg w l a = some r) : r.2.Given cfg := by
  unfold verifierStep at h
  split at h
  · cases h; trivial
  · obtain ⟨r', hr', rfl⟩ := Option.map_eq_some_iff.1 h
    exact verifyStep_given hl hr'
  · obtain ⟨r', -, rfl⟩ := Option.map_eq_some_iff.1 h
    trivial
  · obtain ⟨r', -, rfl⟩ := Option.map_eq_some_iff.1 h
    trivial
  · cases h

/-! ## What the count says -/

/-- The attempts left are three less the failures so far. -/
theorem Counted.restantes (h : Counted w o) :
    ∃ before, before ++ [o.intento.row] <+: w.attemptsOf o.intento.pasajeroId ∧
      run Progress.step {} ((before ++ [o.intento.row]).map (·.resultado)) =
        some o.pasajero.progress ∧
      o.pasajero.intentosRestantes =
        3 - ((before ++ [o.intento.row]).map (·.resultado)).count .fallido := by
  obtain ⟨before, hpre, hrun⟩ := h
  obtain ⟨hf, he⟩ := Progress.counts_of_run hrun
  refine ⟨before, hpre, hrun, ?_⟩
  simp only [PasajeroRow.progress_fallidos] at hf
  simp only [PasajeroRow.progress_estado] at he
  simp only [Pasajero.intentosRestantes, maxIntentosFallidos, hf]
  split
  · next hest =>
    simp only [hest] at he
    omega
  · rfl

/-- No attempt is left exactly when the passenger needs a manual review. -/
theorem Counted.agotados (h : Counted w o) :
    o.pasajero.intentosRestantes = 0 ↔ o.pasajero.estado = .requiereRevisionManual := by
  obtain ⟨before, -, hrun⟩ := h
  obtain ⟨hf, he⟩ := Progress.counts_of_run hrun
  simp only [PasajeroRow.progress_fallidos] at hf
  simp only [PasajeroRow.progress_estado] at he
  simp only [Pasajero.intentosRestantes, maxIntentosFallidos, hf]
  cases hest : o.pasajero.estado with
  | requiereRevisionManual => simp
  | pendienteVerificacion | verificado =>
    simp only [hest] at he
    simp only [reduceCtorEq, if_false, iff_false]
    omega

/-- The state that an outcome leads to. -/
theorem Counted.estado (h : Counted w o) :
    match o.intento.resultado with
    | .exitoso => o.pasajero.estado = .verificado
    | .fallido => o.pasajero.estado ≠ .verificado
    | .noConcluyente => o.pasajero.estado = .pendienteVerificacion := by
  obtain ⟨before, -, hrun⟩ := h
  rw [List.map_append] at hrun
  obtain ⟨u, -, hst⟩ := run_snoc.1 hrun
  have hp := Progress.pendiente_of_step hst
  have hst : u.step o.intento.resultado = some o.pasajero.progress := hst
  cases hr : o.intento.resultado with
  | exitoso =>
    simp only [hr, Progress.step, hp, Option.some.injEq] at hst
    exact (congrArg Progress.estado hst).symm
  | fallido =>
    simp only [hr, Progress.step, hp] at hst
    split at hst
    · have hest := congrArg Progress.estado (Option.some.inj hst)
      exact fun h => by cases hest.trans h
    · have hest := congrArg Progress.estado (Option.some.inj hst)
      exact fun h => by cases hest.trans h
  | noConcluyente =>
    rw [hr] at hst
    have hest := congrArg Progress.estado (Progress.step_noConcluyente hst)
    exact hest.trans hp

end Aeropass
