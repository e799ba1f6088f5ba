import Aeropass.Verification.Inv

/-!
# Attempts, counter and state of a passenger

In every committed state the columns of a passenger are those that its attempts make (`Matches`).
Over runs: a final passenger gets no further attempt, an inconclusive attempt moves nothing, and
the steps of a call that raises leave the attempts and the passengers as they were.
-/

namespace Aeropass

open Runs Threads

/-- The counter and the state of a passenger are those of its outcomes. -/
structure Matches (p : PasajeroRow) (rs : List ResultadoIntento) : Prop where
  fallidos : p.intentosFallidos = rs.count .fallido
  maximo : p.intentosFallidos ≤ 3
  revision : p.estado = .requiereRevisionManual ↔ p.intentosFallidos = 3
  verificado : p.estado = .verificado ↔ .exitoso ∈ rs
  pendiente : p.estado = .pendienteVerificacion ↔ p.intentosFallidos ≠ 3 ∧ .exitoso ∉ rs
  unico : .exitoso ∈ rs → rs.count .exitoso = 1

/-- Counting the outcomes gives the columns. -/
theorem Progress.Counts.matches {p : PasajeroRow} {rs : List ResultadoIntento}
    (h : Progress.Counts rs p.progress) : Matches p rs := by
  obtain ⟨hf, hest⟩ := h
  simp only [PasajeroRow.progress_fallidos, PasajeroRow.progress_estado] at hf hest
  have hmem : .exitoso ∈ rs ↔ 0 < rs.count .exitoso := List.count_pos_iff.symm
  cases hp : p.estado with
  | pendienteVerificacion =>
    simp only [hp] at hest
    have hno : .exitoso ∉ rs := by
      rw [hmem]
      omega
    constructor
    · exact hf
    · omega
    · simp only [hp, reduceCtorEq, false_iff]
      omega
    · simp [hp, hno]
    · simp only [hp, hno, not_false_eq_true, and_true, true_iff]
      omega
    · intro h
      exact absurd h hno
  | verificado =>
    simp only [hp] at hest
    have hyes : .exitoso ∈ rs := by
      rw [hmem]
      omega
    constructor
    · exact hf
    · omega
    · simp only [hp, reduceCtorEq, false_iff]
      omega
    · simp [hp, hyes]
    · simp [hp, hyes]
    · intro _
      exact hest.2
  | requiereRevisionManual =>
    simp only [hp] at hest
    have hno : .exitoso ∉ rs := by
      rw [hmem]
      omega
    constructor
    · exact hf
    · omega
    · simp only [hp, true_iff]
      omega
    · simp [hp, hno]
    · simp only [hp, reduceCtorEq, false_iff]
      omega
    · intro h
      exact absurd h hno

variable {cfg : VerificationSettings} {s t : VerificationSystem}
  {as : List (Act VerifierAct VerificationEnv)}

/-- A passenger that no attempt can move any more gets none. -/
theorem final_attempts (hs : VerifiersOK s) (hrun : run (verificationStep cfg) s as = some t)
    {id : UUID} {p : PasajeroRow} (hp : s.shared.pasajeros.find? id = some p)
    (hest : p.estado ≠ .pendienteVerificacion) :
    t.shared.attemptsOf id = s.shared.attemptsOf id := by
  have ht : VerifiersOK t := (verification_relyGuarantee cfg).run hs hrun
  have hlater := verificationRun_later hs hrun
  obtain ⟨post, hpost⟩ : s.shared.attemptsOf id <+: t.shared.attemptsOf id :=
    hlater.intentos.filter _
  cases post with
  | nil => rw [← hpost, List.append_nil]
  | cons a post =>
    -- the passenger would have been pending before that attempt
    obtain ⟨q, hq⟩ := hlater.pasajeros hp
    have hprog := ht.1.progress hq
    rw [VerificationWorld.outcomesOf, ← hpost, List.map_append, List.map_cons] at hprog
    obtain ⟨u, hu, hpend⟩ := Progress.pendiente_before hprog
    have hprog' : run Progress.step {} (s.shared.outcomesOf id) = some p.progress :=
      hs.1.progress hp
    rw [VerificationWorld.outcomesOf, hu, Option.some.injEq] at hprog'
    rw [hprog'] at hpend
    exact absurd hpend hest

/-- A step that adds an inconclusive attempt moves no passenger. -/
theorem noConcluyente_step {a : Act VerifierAct VerificationEnv}
    (hst : verificationStep cfg s a = some t) {r : IntentoVerificacionRow}
    (hr : r ∈ t.shared.intentos.rows) (hnew : r ∉ s.shared.intentos.rows)
    (hres : r.resultado = .noConcluyente) {id : UUID} {p : PasajeroRow}
    (hp : s.shared.pasajeros.find? id = some p) :
    ∃ p', t.shared.pasajeros.find? id = some p' ∧ p'.estado = p.estado ∧
      p'.intentosFallidos = p.intentosFallidos := by
  rcases verificationStep_effect hst with ⟨hq, -⟩ | ⟨-, -, -, q, -, -, hw⟩ |
    ⟨i, b, o, event, q, q', -, hc, -⟩
  · rw [hq.intentos] at hr
    exact absurd hr hnew
  · rw [hw] at hr
    exact absurd hr hnew
  · rw [hc.intentos, List.mem_append, List.mem_singleton] at hr
    rcases hr with hr | rfl
    · exact absurd hr hnew
    · have hsame : q'.progress = q.progress := by
        have hstep := hc.step
        rw [show o.intento.resultado = .noConcluyente from hres] at hstep
        exact Progress.step_noConcluyente hstep
      rw [hc.find?]
      split
      · next hid =>
        rw [← hid, hc.found, Option.some.injEq] at hp
        subst hp
        exact ⟨q', rfl, congrArg Progress.estado hsame, congrArg Progress.fallidos hsame⟩
      · exact ⟨p, hp, rfl, rfl⟩

/-- A step of call `i` leaves the attempts and the passengers as they are. -/
def LeavesAttempts (i : Nat) (s : VerificationSystem) (a : Act VerifierAct VerificationEnv)
    (t : VerificationSystem) : Prop :=
  (∃ b, a = .call i b) → t.shared.intentos = s.shared.intentos ∧
    t.shared.pasajeros = s.shared.pasajeros

/-- A call that has no answer at the end of a run has left them as they were in all its steps. -/
theorem leavesAttempts_run (hrun : run (verificationStep cfg) s as = some t) {i : Nat}
    (hend : (t.locals i).outcome? = none) :
    EachStep (verificationStep cfg) (LeavesAttempts i) s as := by
  rintro pre a post u v rfl hu hst ⟨b, rfl⟩
  rcases verificationStep_effect hst with ⟨hq, -⟩ | ⟨e, he, -⟩ |
    ⟨j, b', o, event, q, q', hj, -, -, hout, -⟩
  · exact ⟨hq.intentos, hq.pasajeros⟩
  · cases he
  · -- from its commit on the call has an answer
    cases hj
    obtain ⟨u', v', hu', hst', hpost⟩ := run_split hrun
    rw [hu] at hu'
    cases hu'
    rw [hst] at hst'
    cases hst'
    have hkeep := run_invariant
      (I := fun w : VerificationSystem => (w.locals i).outcome? ≠ none) ?_ hpost (by simp [hout])
    · exact absurd hend hkeep
    · intro w c w' hw hstep
      rcases verificationStep_effect hstep with ⟨-, hsame⟩ | ⟨e, -, hloc, -⟩ |
        ⟨k, -, -, -, -, -, -, -, hnone, -, hother⟩
      · rw [hsame i]
        exact hw
      · rw [hloc]
        exact hw
      · rw [hother i]
        · exact hw
        · rintro rfl
          exact hw hnone

/-- **Attempts, counter and state never drift apart.** In every reachable state each passenger
matches its attempts; a passenger in a final state gets no attempt in any run from there; a step
that adds an inconclusive attempt changes neither the state nor the counter of any passenger; and
along a run at whose end a call has raised, all steps of that call left the attempts and the
passengers unchanged. -/
theorem attempts_match (hs : Reachable VerificationSystem.Initial (verificationStep cfg) s) :
    (∀ id p, s.shared.pasajeros.find? id = some p → Matches p (s.shared.outcomesOf id)) ∧
    (∀ as t, run (verificationStep cfg) s as = some t → ∀ id p,
      s.shared.pasajeros.find? id = some p → p.estado ≠ .pendienteVerificacion →
        t.shared.attemptsOf id = s.shared.attemptsOf id) ∧
    (∀ a t, verificationStep cfg s a = some t → ∀ r ∈ t.shared.intentos.rows,
      r ∉ s.shared.intentos.rows → r.resultado = .noConcluyente → ∀ id p,
        s.shared.pasajeros.find? id = some p → ∃ p', t.shared.pasajeros.find? id = some p' ∧
          p'.estado = p.estado ∧ p'.intentosFallidos = p.intentosFallidos) ∧
    ∀ as t, run (verificationStep cfg) s as = some t → ∀ i pasajero selfie e,
      t.locals i = .verify pasajero selfie (.done (.error e)) →
        EachStep (verificationStep cfg) (LeavesAttempts i) s as := by
  have hok := verification_inv hs
  refine ⟨fun id p hp => (hok.1.counts hp).matches, fun as t hrun id p hp hest => ?_,
    fun a t hst r hr hnew hres id p hp => ?_, fun as t hrun i pasajero selfie e hend => ?_⟩
  · exact final_attempts hok hrun hp hest
  · exact noConcluyente_step hst hr hnew hres hp
  · refine leavesAttempts_run hrun ?_
    rw [hend]
    rfl

/-! ## A run -/

/-- Empty tables at the epoch. -/
def sampleVerification : VerificationSystem :=
  ⟨⟨Rows.empty, Rows.empty, Rows.empty, ⟨Rows.empty, 0, []⟩⟩, fun _ => .idle⟩

theorem sampleVerification_initial : sampleVerification.Initial := ⟨rfl, rfl, rfl, rfl, rfl⟩

/-- A threshold of a half for both scores. -/
def sampleUmbrales : VerificationSettings where
  umbrales := ⟨1 / 2, 1 / 2⟩
  proveedor := "biometria"

/-- The start of a JPEG file. -/
def sampleSelfie : ImageInput := ⟨[0xff, 0xd8, 0xff], "image/jpeg"⟩

/-- The document of the sample passenger. -/
def sampleDatos : DatosDocumento := ⟨"Ana Gil", .cc, "1234", 20000⟩

/-- The passenger that registers at the epoch. -/
def samplePasajero : Pasajero := .registrar 1 "ana" sampleDatos ⟨"url", "foto"⟩ 0

/-- The registration of the sample passenger. -/
def sampleRegister : Act VerifierAct VerificationEnv :=
  .env (.register 1 "ana" sampleDatos ⟨"url", "foto"⟩ 0)

/-- `n` steps of call `i`, which draws ids from `10 * i` on and gets the scores `score`. -/
def verifyNext (i n : Nat) (score : ℚ) : List (Act VerifierAct VerificationEnv) :=
  List.replicate n <| .call i <| .next
    { intentoId := 10 * i + 1, identidadId := 10 * i + 2, eventId := 10 * i + 3
      media := some (⟨"url", "selfie"⟩, sampleSelfie), verdict := some ⟨score, score, "biometria"⟩ }

/-- Two selfies in flight: call 1 succeeds, and call 2, evaluated before, comes too late. -/
def sampleTwoSelfies : List (Act VerifierAct VerificationEnv) :=
  sampleRegister :: .call 1 (.verify samplePasajero sampleSelfie) :: verifyNext 1 3 1 ++
    .call 2 (.verify samplePasajero sampleSelfie) :: verifyNext 2 3 0 ++
    verifyNext 1 8 1 ++ verifyNext 2 1 0

/-- After them the passenger is VERIFICADO by its one attempt, and call 2 has left no trace. -/
theorem attempts_match_sample :
    ∃ t, run (verificationStep sampleUmbrales) sampleVerification sampleTwoSelfies = some t ∧
      (∃ p, t.shared.pasajeros.find? 1 = some p ∧ p.estado = .verificado ∧ Matches p [.exitoso]) ∧
      EachStep (verificationStep sampleUmbrales) (LeavesAttempts 2) sampleVerification
        sampleTwoSelfies := by
  obtain ⟨t, ht⟩ := Option.isSome_iff_exists.1 (by decide +kernel :
    (run (verificationStep sampleUmbrales) sampleVerification sampleTwoSelfies).isSome = true)
  have hp : (run (verificationStep sampleUmbrales) sampleVerification sampleTwoSelfies).map
      (fun t => (t.shared.pasajeros.find? 1, t.shared.outcomesOf 1, t.locals 2)) =
        some (some { samplePasajero with estado := .verificado }, [.exitoso],
          .verify samplePasajero sampleSelfie (.done (.error (.domain
            { clase := .estadoNoPermiteVerificacion })))) := by
    decide +kernel
  rw [ht, Option.map_some, Option.some.injEq, Prod.mk.injEq, Prod.mk.injEq] at hp
  obtain ⟨hfind, hout, hlate⟩ := hp
  have hstart := attempts_match (show Reachable VerificationSystem.Initial
    (verificationStep sampleUmbrales) sampleVerification from .start sampleVerification_initial)
  have hend := attempts_match (Reachable.run (.start sampleVerification_initial) ht)
  refine ⟨t, ht, ⟨_, hfind, rfl, ?_⟩, hstart.2.2.2 _ t ht 2 _ _ _ hlate⟩
  rw [← hout]
  exact hend.1 1 _ hfind

end Aeropass
