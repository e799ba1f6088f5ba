import Aeropass.Lib.Ledger
import Aeropass.Observability.Hooks
import Aeropass.Verification.Attempts

/-!
# Business metrics and the database

`verify_and_create_identity` is audited: when a call ends, its record goes to `SentryAuditSink`,
which increments the counters of attempts and of final states. A call that has committed and not
ended yet is in the tables and not in the counters; but for these calls the counters are the tables
(`MetricsMatch`). That rests on the ledger of the commits (`Ledger`) and on the passenger that a
call returns, which is the one it has stored.
-/

namespace Aeropass

open Runs Threads

/-! ## The audited call -/

/-- The value of a `ResultadoIntento`. -/
def ResultadoIntento.value : ResultadoIntento → String
  | .exitoso => "EXITOSO"
  | .fallido => "FALLIDO"
  | .noConcluyente => "NO_CONCLUYENTE"

/-- The value of a `MotivoFallo`. -/
def MotivoFallo.value : MotivoFallo → String
  | .liveness => "LIVENESS"
  | .comparacion => "COMPARACION"

/-- The value of an `EstadoPasajero`. -/
def EstadoPasajero.value : EstadoPasajero → String
  | .pendienteVerificacion => "PENDIENTE_VERIFICACION"
  | .verificado => "VERIFICADO"
  | .requiereRevisionManual => "REQUIERE_REVISION_MANUAL"

/-- `_ESTADOS_FINALES`. -/
def estadosFinales : List EstadoPasajero := [.verificado, .requiereRevisionManual]

/-- `estado_final`. -/
def PasajeroRow.estadoFinal (p : PasajeroRow) : Option EstadoPasajero :=
  if p.estado ∈ estadosFinales then some p.estado else none

/-- `describe_outcome`. -/
def describeOutcome (o : VerificationOutcome) : Attributes String where
  items := .ok [
    .ok (.str "resultado", some o.intento.resultado.value),
    .ok (.str "motivo", o.intento.motivoFallo.map (·.value)),
    .ok (.str "estado", o.pasajero.estadoFinal.map (·.value))]

/-- `SentryAuditSink` as a hook that does not fail. -/
def sentryHook : AuditHook String Emission :=
  fun event data => (sentryAuditSink ⟨event, data⟩, none)

/-- `@audited(IDENTITY_VERIFICATION, describe=describe_outcome)` on what the facade answers; `exc`
is the exception of a failure. -/
def auditedVerify (exc : Failure → Raised) (r : Except Failure VerificationOutcome) :
    Except Raised VerificationOutcome × List Emission :=
  audited [sentryHook] id identityVerification (some fun o => .ok (describeOutcome o))
    (r.mapError exc)

/-- What a call has answered. -/
def Verifier.answer? : Verifier → Option (Except Failure VerificationOutcome)
  | .verify _ _ (.done r) => some r
  | _ => none

/-- What a call that has committed and not ended yet is going to answer. -/
def Verifier.publishing? : Verifier → Option VerificationOutcome
  | .verify _ _ (.publishing _ o _) => some o
  | _ => none

/-- What the sink sends for a call that has ended. -/
def Verifier.emissions (exc : Failure → Raised) (l : Verifier) : List Emission :=
  match l.answer? with
  | none => []
  | some r => (auditedVerify exc r).2

/-- What a step makes the sink send, with its call. -/
def auditEmissions (exc : Failure → Raised) (_ : VerificationSystem)
    (a : Act VerifierAct VerificationEnv) (t : VerificationSystem) : List (Nat × Emission) :=
  match a with
  | .env _ => []
  | .call i _ => ((t.locals i).emissions exc).map (Prod.mk i)

/-! ## The counters -/

/-- The attributes of an attempt in `aeropass.verificacion.intento`. -/
def intentoAttributes (resultado : ResultadoIntento) (motivo : Option MotivoFallo) :
    List (String × String) :=
  ("aeropass.resultado", resultado.value) ::
    (motivo.map fun m => ("aeropass.motivo", m.value)).toList

/-- The attributes of a passenger in `aeropass.pasajero.estado_final`. -/
def estadoAttributes (estado : EstadoPasajero) : List (String × String) :=
  [("aeropass.estado", estado.value)]

/-- The increments of a counter with some attributes. -/
def increments (emitted : List (Nat × Emission)) (name : String)
    (attributes : List (String × String)) : Nat :=
  emitted.countP fun x => x.2 = .count name attributes

/-- A call that has committed an outcome with `p` and not ended yet. -/
def publishes (p : VerificationOutcome → Bool) (l : Verifier) : Nat :=
  if l.publishing?.any p then 1 else 0

/-- The outcome of an attempt. -/
def IsIntento (resultado : ResultadoIntento) (motivo : Option MotivoFallo)
    (o : VerificationOutcome) : Bool :=
  o.intento.resultado = resultado && o.intento.motivoFallo = motivo

/-- The outcome of an attempt that leaves its passenger in a state. -/
def IsEstado (estado : EstadoPasajero) (o : VerificationOutcome) : Bool :=
  o.pasajero.estado = estado

/-- No call is between its commit and its end. -/
def NonePublishing (t : VerificationSystem) : Prop := ∀ i, (t.locals i).publishing? = none

/-- The counters match the tables, but for the calls `I` that have committed and not ended. -/
structure CountersMatch (emitted : List (Nat × Emission)) (t : VerificationSystem) : Prop where
  intentos : ∀ resultado motivo I, t.Within (publishes (IsIntento resultado motivo)) I →
    increments emitted intentoRule.name (intentoAttributes resultado motivo) +
      t.total (publishes (IsIntento resultado motivo)) I =
        t.shared.intentos.rows.countP fun a => a.resultado = resultado ∧ a.motivoFallo = motivo
  estados : ∀ estado ∈ estadosFinales, ∀ I, t.Within (publishes (IsEstado estado)) I →
    increments emitted estadoFinalRule.name (estadoAttributes estado) +
      t.total (publishes (IsEstado estado)) I =
        t.shared.pasajeros.rows.countP fun p => p.estado = estado

/-- The counters are those of the tables, and each of their increments is of one call that ended
well. -/
structure MetricsMatch (exc : Failure → Raised) (emitted : List (Nat × Emission))
    (t : VerificationSystem) : Prop where
  counters : CountersMatch emitted t
  intentos : NonePublishing t → ∀ resultado motivo,
    increments emitted intentoRule.name (intentoAttributes resultado motivo) =
      t.shared.intentos.rows.countP fun a => a.resultado = resultado ∧ a.motivoFallo = motivo
  estados : NonePublishing t → ∀ estado ∈ estadosFinales,
    increments emitted estadoFinalRule.name (estadoAttributes estado) =
      t.shared.pasajeros.rows.countP fun p => p.estado = estado
  unico : ∀ i j id o o', (t.locals i).outcome? = some (id, o) →
    (t.locals j).outcome? = some (id, o') → o.pasajero.estadoFinal.isSome →
      o'.pasajero.estadoFinal.isSome → i = j
  raised : ∀ i e, (t.locals i).answer? = some (.error e) → ∀ x ∈ emitted, x.1 = i →
    ∀ name attributes, x.2 ≠ .count name attributes
  answered : ∀ i r, (t.locals i).answer? = some r → (auditedVerify exc r).1 = r.mapError exc

variable {cfg : VerificationSettings} {exc : Failure → Raised} {s t : VerificationSystem}
  {w w' : VerificationWorld} {o : VerificationOutcome} {event : Option DomainEvent}
  {p p' : PasajeroRow}

/-- What the sink sends for an outcome: a log entry and the counters. -/
def outcomeEmissions (resultado : ResultadoIntento) (motivo : Option MotivoFallo)
    (estado : Option EstadoPasajero) : List Emission :=
  .log .info logBody ((eventAttribute, identityVerification) :: ("aeropass.outcome", outcomeOk) ::
      intentoAttributes resultado motivo ++ (estado.map estadoAttributes).getD []) ::
    (estado.map fun e => Emission.count estadoFinalRule.name (estadoAttributes e)).toList ++
    [.count intentoRule.name (intentoAttributes resultado motivo)]

/-- A call that returns is described by enumerations only, so that nothing fails after it. -/
theorem auditedVerify_ok (exc : Failure → Raised) (o : VerificationOutcome) :
    auditedVerify exc (.ok o) = (.ok o, outcomeEmissions o.intento.resultado o.intento.motivoFallo
      o.pasajero.estadoFinal) := by
  simp only [auditedVerify, Except.mapError, audited, described, describeOutcome]
  generalize o.intento.resultado = resultado
  generalize o.intento.motivoFallo = motivo
  generalize o.pasajero.estadoFinal = estado
  rcases motivo with _ | _ | _ <;> rcases estado with _ | _ | _ | _ <;> cases resultado <;> rfl

/-- A call that raises is logged only. -/
theorem auditedVerify_error (exc : Failure → Raised) (e : Failure) :
    (auditedVerify exc (.error e)).1 = .error (exc e) ∧
      ∀ x ∈ (auditedVerify exc (.error e)).2, ∀ name attributes, x ≠ .count name attributes := by
  simp only [auditedVerify, Except.mapError, audited]
  split
  · refine ⟨rfl, fun x hx => ?_⟩
    have hlog : x = .log .info logBody [(eventAttribute, identityVerification),
        ("aeropass.outcome", outcomeError), ("aeropass.error_type", (exc e).typeName)] :=
      List.mem_singleton.1 hx
    rw [hlog]
    exact nofun
  · exact ⟨rfl, nofun⟩

/-! ## What one outcome counts -/

theorem ResultadoIntento.value_inj {a b : ResultadoIntento} : a.value = b.value ↔ a = b := by
  cases a <;> cases b <;> decide

theorem MotivoFallo.value_inj {a b : MotivoFallo} : a.value = b.value ↔ a = b := by
  cases a <;> cases b <;> decide

theorem EstadoPasajero.value_inj {a b : EstadoPasajero} : a.value = b.value ↔ a = b := by
  cases a <;> cases b <;> decide

/-- The attributes of an attempt tell results and reasons apart. -/
theorem intentoAttributes_inj {r r' : ResultadoIntento} {m m' : Option MotivoFallo} :
    intentoAttributes r m = intentoAttributes r' m' ↔ r = r' ∧ m = m' := by
  cases m <;> cases m' <;>
    simp [intentoAttributes, ResultadoIntento.value_inj, MotivoFallo.value_inj]

/-- An outcome increments the counter of attempts once, with its own attributes. -/
theorem countP_intento (r r' : ResultadoIntento) (m m' : Option MotivoFallo)
    (e : Option EstadoPasajero) :
    (outcomeEmissions r m e).countP
        (· = .count intentoRule.name (intentoAttributes r' m')) =
      if r = r' ∧ m = m' then 1 else 0 := by
  have hname : estadoFinalRule.name ≠ intentoRule.name := by decide
  cases e <;> simp [outcomeEmissions, List.countP_cons, hname, intentoAttributes_inj]

/-- It increments the counter of final states once, if its passenger is in one. -/
theorem countP_estado (r : ResultadoIntento) (m : Option MotivoFallo) (e : Option EstadoPasajero)
    (e' : EstadoPasajero) :
    (outcomeEmissions r m e).countP
        (· = .count estadoFinalRule.name (estadoAttributes e')) =
      if e = some e' then 1 else 0 := by
  have hname : intentoRule.name ≠ estadoFinalRule.name := by decide
  cases e <;>
    simp [outcomeEmissions, List.countP_cons, hname, estadoAttributes, EstadoPasajero.value_inj]

/-- A final state is the state. -/
theorem PasajeroRow.estadoFinal_eq_some {estado : EstadoPasajero} (h : estado ∈ estadosFinales) :
    p.estadoFinal = some estado ↔ p.estado = estado := by
  unfold estadoFinal
  constructor
  · intro heq
    split at heq
    · exact Option.some.inj heq
    · cases heq
  · rintro rfl
    exact if_pos h

theorem PasajeroRow.not_pendiente_of_final (h : p.estadoFinal.isSome) :
    p.estado ≠ .pendienteVerificacion := by
  intro hp
  rw [estadoFinal, if_neg] at h
  · cases h
  · rw [hp]
    decide

/-! ## The ledger of commits -/

/-- A number of rows that counts the commits of outcomes with `q`. -/
structure Ledger (q : VerificationOutcome → Bool) (entered : VerificationWorld → Nat) : Prop where
  quiet : ∀ {w w'}, Unmoved w w' → entered w' = entered w
  register : ∀ {w : VerificationWorld} {p : PasajeroRow} {pasajeros}, p.progress = {} →
    w.pasajeros.insert? p = some pasajeros → entered { w with pasajeros } = entered w
  commit : ∀ {w w' o event p p'}, AttemptCommit w w' o event p p' →
    entered w' = entered w + if q o then 1 else 0

/-- The attempts with a result and a reason. -/
theorem ledger_intentos (resultado : ResultadoIntento) (motivo : Option MotivoFallo) :
    Ledger (IsIntento resultado motivo) fun w =>
      w.intentos.rows.countP fun a => a.resultado = resultado ∧ a.motivoFallo = motivo where
  quiet h := by rw [h.intentos]
  register _ _ := rfl
  commit {w w' o event p p'} h := by
    rw [h.intentos, List.countP_append, List.countP_singleton]
    refine congrArg _ (if_congr ?_ rfl rfl)
    rw [decide_eq_true_iff, IsIntento, Bool.and_eq_true, decide_eq_true_iff, decide_eq_true_iff]
    rfl

/-- The passengers in a final state: whoever commits was pending before. -/
theorem ledger_estados {estado : EstadoPasajero} (hfinal : estado ∈ estadosFinales) :
    Ledger (IsEstado estado) fun w =>
      w.pasajeros.rows.countP fun p => p.estado = estado where
  quiet h := by rw [h.pasajeros]
  register {w p pasajeros} hp hins := by
    have hpend : p.estado = .pendienteVerificacion := congrArg Progress.estado hp
    have hne : p.estado ≠ estado := by
      rw [hpend]
      rintro rfl
      exact absurd hfinal (by decide)
    simp only [(Rows.insert?_eq_some.1 hins).2, List.countP_append, List.countP_singleton,
      decide_eq_true_eq, if_neg hne, Nat.add_zero]
  commit {w w' o event p p'} h := by
    have hne : p.estado ≠ estado := by
      rw [show p.estado = .pendienteVerificacion from Progress.pendiente_of_step h.step]
      rintro rfl
      exact absurd hfinal (by decide)
    have hfound : w.pasajeros.find? p'.id = some p := by
      rw [h.id, Rows.find?_key h.found]
      exact h.found
    have hcount := Rows.countP_modify (fun r => { p' with id := r.id }) (fun _ => rfl) hfound
      fun r => r.estado = estado
    simp only [decide_eq_true_eq, if_neg hne, Nat.add_zero] at hcount
    rw [h.pasajeros, savePasajero, hcount]
    simp only [IsEstado, h.answer, decide_eq_true_eq]

/-- What a call has committed, as far as it counts. -/
def hasCommitted (q : VerificationOutcome → Bool) (l : Verifier) : Nat :=
  if l.outcome?.any fun x => q x.2 then 1 else 0

/-- A step of a call enters what the call has committed then and not before. -/
theorem Ledger.step {q : VerificationOutcome → Bool} {entered : VerificationWorld → Nat}
    (h : Ledger q entered) {a : Act VerifierAct VerificationEnv}
    (hst : verificationStep cfg s a = some t) :
    (∀ i b, a = .call i b → hasCommitted q (t.locals i) + entered s.shared =
      hasCommitted q (s.locals i) + entered t.shared) ∧
    (∀ e, a = .env e → entered t.shared = entered s.shared) := by
  rcases verificationStep_effect hst with ⟨hq, hsame⟩ | ⟨e, rfl, hloc, p, hp, hins, hw⟩ |
    ⟨i, b, o, event, p, p', rfl, hc, hnone, hout, -⟩
  · refine ⟨fun i b _ => ?_, fun e _ => h.quiet hq⟩
    rw [hasCommitted, hasCommitted, hsame i, h.quiet hq]
  · refine ⟨fun i b hcall => (by cases hcall), fun e' _ => ?_⟩
    rw [hw]
    exact h.register hp hins
  · refine ⟨fun j b' hcall => ?_, fun e henv => by cases henv⟩
    cases hcall
    have hbefore : hasCommitted q (s.locals i) = 0 := by simp [hasCommitted, hnone]
    have hafter : hasCommitted q (t.locals i) = if q o then 1 else 0 := by
      simp [hasCommitted, hout]
    rw [hbefore, hafter, h.commit hc]
    omega

/-- A call has committed what it has reported and what it is about to report. -/
theorem emissions_add_publishes {q : VerificationOutcome → Bool} {x : Emission}
    (hok : ∀ o, (auditedVerify exc (.ok o)).2.countP (· = x) = if q o then 1 else 0)
    (herr : ∀ e, (auditedVerify exc (.error e)).2.countP (· = x) = 0) (l : Verifier) :
    (l.emissions exc).countP (· = x) + publishes q l = hasCommitted q l := by
  cases l with
  | idle | dispatcher => rfl
  | verify pasajero selfie ph =>
    cases ph with
    | start | storing | evaluating | evaluated => rfl
    | publishing eventId o d => exact Nat.zero_add _
    | done r =>
      cases r with
      | ok o => exact hok o
      | error e => exact herr e

/-- A call that takes a step has not answered. -/
theorem answer?_of_step {l : Verifier} {b : VerifierAct} {r : VerificationWorld × Verifier}
    (h : verifierStep cfg w l b = some r) : l.answer? = none := by
  unfold verifierStep at h
  split at h
  · rfl
  · next ph _ =>
    cases ph with
    | done => cases h
    | start | storing | evaluating | evaluated | publishing => rfl
  · rfl
  · rfl
  · cases h

/-- **Reported, about to be reported, and stored.** The increments that an outcome with `q` causes
and the calls that are about to cause them are the commits of such outcomes. -/
theorem increments_add_publishing {q : VerificationOutcome → Bool}
    {entered : VerificationWorld → Nat} (hledger : Ledger q entered) {name : String}
    {attributes : List (String × String)}
    (hok : ∀ o, (auditedVerify exc (.ok o)).2.countP (· = .count name attributes) =
      if q o then 1 else 0)
    (h0 : s.Initial) (hentered : entered s.shared = 0)
    {as : List (Act VerifierAct VerificationEnv)} (h : run (verificationStep cfg) s as = some t)
    {I : Finset Nat} (hI : t.Within (publishes q) I) :
    increments (outputs (auditEmissions exc) (verificationStep cfg) s as) name attributes +
      t.total (publishes q) I = entered t.shared := by
  have herr : ∀ e, (auditedVerify exc (.error e)).2.countP (· = .count name attributes) = 0 := by
    intro e
    refine List.countP_eq_zero.2 fun x hx => ?_
    simpa using (auditedVerify_error exc e).2 x hx name attributes
  have hlocals := h0.2.2.2.2
  refine ledger_run (fun _ _ _ _ _ => trivial : ∀ s a t, True → _ → True) ?_ ?_ trivial hentered
    ?_ h hI
  · intro u i b v _ hst
    obtain ⟨r, hc, -⟩ := Program.step_call hst
    have hnone := answer?_of_step hc
    have hbefore := emissions_add_publishes hok herr (u.locals i)
    have hafter := emissions_add_publishes hok herr (v.locals i)
    have hstep := (hledger.step hst).1 i b rfl
    have hempty : ((u.locals i).emissions exc).countP (· = .count name attributes) = 0 := by
      simp [Verifier.emissions, hnone]
    have hobs : (auditEmissions exc u (.call i b) v).countP
        (fun x => x.2 = .count name attributes) =
          ((v.locals i).emissions exc).countP (· = .count name attributes) :=
      List.countP_map
    omega
  · intro u e v _ hst
    exact ⟨rfl, (hledger.step hst).2 e rfl⟩
  · intro i
    rw [hlocals]
    rfl

/-! ## Passengers and calls -/

/-- The passengers that have got a final state, and the calls that gave it to them. -/
structure FinalOnce (t : VerificationSystem) : Prop where
  moved : ∀ i id o, (t.locals i).outcome? = some (id, o) → o.pasajero.estadoFinal.isSome →
    ∃ p, t.shared.pasajeros.find? id = some p ∧ p.estado ≠ .pendienteVerificacion
  unico : ∀ i j id o o', (t.locals i).outcome? = some (id, o) →
    (t.locals j).outcome? = some (id, o') → o.pasajero.estadoFinal.isSome →
      o'.pasajero.estadoFinal.isSome → i = j

/-- A step gives a final state to a passenger that had none. -/
theorem FinalOnce.step (h : FinalOnce s) {a : Act VerifierAct VerificationEnv}
    (hst : verificationStep cfg s a = some t) : FinalOnce t := by
  rcases verificationStep_effect hst with ⟨hq, hsame⟩ | ⟨e, rfl, hloc, p, hp, hins, hw⟩ |
    ⟨k, b, o, event, p, p', rfl, hc, hnone, hout, hother⟩
  · refine ⟨fun i id o hi hf => ?_, fun i j id o o' hi hj => ?_⟩
    · rw [hq.pasajeros]
      exact h.moved i id o (hsame i ▸ hi) hf
    · exact h.unico i j id o o' (hsame i ▸ hi) (hsame j ▸ hj)
  · refine ⟨fun i id o hi hf => ?_, fun i j id o o' hi hj => ?_⟩
    · rw [hloc] at hi
      obtain ⟨q, hq, hne⟩ := h.moved i id o hi hf
      refine ⟨q, ?_, hne⟩
      rw [Rows.find?_insert? hins, if_neg]
      · exact hq
      · rintro rfl
        rw [(Rows.insert?_eq_some.1 hins).1] at hq
        cases hq
    · rw [hloc] at hi hj
      exact h.unico i j id o o' hi hj
  · -- the other calls with a final outcome are about other passengers
    have hne : ∀ i id o', i ≠ k → (t.locals i).outcome? = some (id, o') →
        o'.pasajero.estadoFinal.isSome → o.intento.pasajeroId ≠ id := by
      rintro i id o' hik hi hf rfl
      rw [hother i hik] at hi
      obtain ⟨q, hq, hq'⟩ := h.moved i _ o' hi hf
      rw [hc.found, Option.some.injEq] at hq
      exact hq' (hq ▸ Progress.pendiente_of_step hc.step)
    refine ⟨fun i id o' hi hf => ?_, fun i j id o' o'' hi hj hf hf' => ?_⟩
    · rw [hc.find?]
      by_cases hik : i = k
      · subst hik
        rw [hout] at hi
        cases hi
        refine ⟨p', if_pos rfl, ?_⟩
        have hest : o.pasajero.estado = p'.estado := by rw [hc.answer]
        exact hest ▸ PasajeroRow.not_pendiente_of_final hf
      · rw [if_neg (hne i id o' hik hi hf)]
        exact h.moved i id o' (hother i hik ▸ hi) hf
    · by_cases hik : i = k
      · subst hik
        rw [hout] at hi
        cases hi
        by_contra hij
        exact hne j _ o'' (Ne.symm hij) hj hf' rfl
      · by_cases hjk : j = k
        · subst hjk
          rw [hout] at hj
          cases hj
          exact absurd rfl (hne i _ o' hik hi hf)
        · rw [hother i hik] at hi
          rw [hother j hjk] at hj
          exact h.unico i j id o' o'' hi hj hf hf'

/-- In every run a passenger gets its final state from one call. -/
theorem finalOnce_run (h0 : s.Initial) {as : List (Act VerifierAct VerificationEnv)}
    (h : run (verificationStep cfg) s as = some t) : FinalOnce t := by
  refine run_invariant (fun _ _ _ hu hst => hu.step hst) h ?_
  have hlocals := h0.2.2.2.2
  constructor
  · intro i id o hi
    rw [hlocals] at hi
    cases hi
  · intro i j id o o' hi
    rw [hlocals] at hi
    cases hi

/-- An answer stays. -/
theorem answer?_run {i : Nat} {r : Except Failure VerificationOutcome}
    {as : List (Act VerifierAct VerificationEnv)} (h : run (verificationStep cfg) s as = some t)
    (hr : (s.locals i).answer? = some r) : (t.locals i).answer? = some r := by
  refine run_invariant (I := fun u : VerificationSystem => (u.locals i).answer? = some r) ?_ h hr
  intro u a v hu hst
  by_cases hmoved : v.locals i = u.locals i
  · rw [hmoved]
    exact hu
  · obtain ⟨b, rfl⟩ := Program.step_of_moved hst hmoved
    obtain ⟨r', hc, -⟩ := Program.step_call hst
    rw [answer?_of_step hc] at hu
    cases hu

/-- A call that raises increments no counter. -/
theorem emitted_of_error {as : List (Act VerifierAct VerificationEnv)}
    (h : run (verificationStep cfg) s as = some t) {i : Nat} {e : Failure}
    (he : (t.locals i).answer? = some (.error e)) :
    ∀ x ∈ outputs (auditEmissions exc) (verificationStep cfg) s as, x.1 = i →
      ∀ name attributes, x.2 ≠ .count name attributes := by
  rintro x hx rfl
  obtain ⟨pre, a, post, u, v, rfl, hu, hst, hx⟩ := mem_outputs.1 hx
  cases a with
  | env => cases hx
  | call i b =>
    obtain ⟨y, hy, rfl⟩ := List.mem_map.1 hx
    obtain ⟨u', v', hu', hst', hpost⟩ := run_split h
    rw [hu] at hu'
    cases hu'
    rw [hst] at hst'
    cases hst'
    unfold Verifier.emissions at hy
    split at hy
    · cases hy
    · next r hr =>
      have hlast := answer?_run hpost hr
      rw [he, Option.some.injEq] at hlast
      subst hlast
      exact (auditedVerify_error exc e).2 y hy

/-- Between commits and ends the counters and the calls together are the tables. -/
theorem counters_match (h0 : s.Initial) {as : List (Act VerifierAct VerificationEnv)}
    (h : run (verificationStep cfg) s as = some t) :
    CountersMatch (outputs (auditEmissions exc) (verificationStep cfg) s as) t := by
  refine ⟨fun resultado motivo I hI => ?_, fun estado hfinal I hI => ?_⟩
  · refine increments_add_publishing (ledger_intentos resultado motivo) (fun o => ?_) h0 ?_ h hI
    · rw [auditedVerify_ok, countP_intento]
      exact if_congr (by simp [IsIntento]) rfl rfl
    · simp only [h0.2.1]
      rfl
  · refine increments_add_publishing (ledger_estados hfinal) (fun o => ?_) h0 ?_ h hI
    · rw [auditedVerify_ok, countP_estado]
      exact if_congr (by simp [IsEstado, PasajeroRow.estadoFinal_eq_some hfinal]) rfl rfl
    · simp only [h0.1]
      rfl

/-- Without a call between them there is nothing to add. -/
theorem NonePublishing.within (h : NonePublishing t) (q : VerificationOutcome → Bool) :
    t.Within (publishes q) ∅ := by
  intro i _
  simp [publishes, h i]

/-- **Business metrics equal the database.** After every run from empty tables the increments of
either counter, with those that calls between their commit and their end are about to cause, are
the attempts and the passengers in the tables; no passenger is counted as final twice; a call that
raises counts nothing; and the audited call answers what the facade does. -/
theorem metrics_match (h0 : s.Initial) {as : List (Act VerifierAct VerificationEnv)}
    (h : run (verificationStep cfg) s as = some t) :
    MetricsMatch exc (outputs (auditEmissions exc) (verificationStep cfg) s as) t := by
  have hcounters : CountersMatch (outputs (auditEmissions exc) (verificationStep cfg) s as) t :=
    counters_match h0 h
  refine ⟨hcounters, fun hnone resultado motivo => ?_, fun hnone estado hfinal => ?_,
    (finalOnce_run h0 h).unico, fun i e he => emitted_of_error h he, fun i r _ => ?_⟩
  · exact hcounters.intentos resultado motivo ∅ (hnone.within _)
  · exact hcounters.estados estado hfinal ∅ (hnone.within _)
  · cases r with
    | ok o => rw [auditedVerify_ok]; rfl
    | error e => exact (auditedVerify_error exc e).1

/-- One exception for all failures. -/
def sampleException : Failure → Raised := fun _ => .object ⟨0, "DomainError", .exception, none⟩

/-- With two selfies in flight one call commits and one raises, and the success is counted once. -/
theorem metrics_match_sample :
    let emitted := outputs (auditEmissions sampleException) (verificationStep sampleUmbrales)
      sampleVerification sampleTwoSelfies
    increments emitted intentoRule.name (intentoAttributes .exitoso none) = 1 ∧
      ∃ t, run (verificationStep sampleUmbrales) sampleVerification sampleTwoSelfies = some t ∧
        MetricsMatch sampleException emitted t := by
  obtain ⟨t, ht⟩ := Option.isSome_iff_exists.1 (by decide +kernel :
    (run (verificationStep sampleUmbrales) sampleVerification sampleTwoSelfies).isSome = true)
  exact ⟨by decide +kernel, t, ht, metrics_match sampleVerification_initial ht⟩

end Aeropass
