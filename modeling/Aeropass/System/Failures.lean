import Aeropass.Credentials.Linearize
import Aeropass.System.Answers

/-!
# How the calls of the services fail

A call that fails raises one of the domain errors of its operation, or it fails for one of the
causes outside of it that its operation can meet (`Failure.Of`): the connection of the database, a
text that the database does not store, a score out of range, an id drawn twice, an exception of
media storage or of the biometric provider, the signing key. The constraints that the services keep
themselves are never what stops a call, and no lookup of theirs fails.
-/

namespace Aeropass

open CredentialTables CredencialAcceso Runs Threads

/-- The classes of the errors that tell when to come back. -/
def ErrorClass.retries : ErrorClass → Bool
  | .almacenamientoNoDisponible | .limiteEmisionExcedido => true
  | _ => false

/-- What fails a call besides the errors of its operation: the connection of the database, a text
with a NUL, a score outside of its column or its range, an id drawn twice, an exception of media
storage or of the biometric provider that nothing catches, or the signing key. -/
inductive Cause where
  | connection | nul | score | id | media | provider | key
  deriving DecidableEq

/-- The cause of a failure; a failed lookup has none, nor has a constraint that the services
keep. -/
def Failure.cause? : Failure → Option Cause
  | .domain _ | .keyError => none
  | .uniqueViolation constraint =>
    if constraint = "ck_intentos_verificacion_scores_rango" then some .score
    else if constraint ∈ ["intentos_verificacion_pkey", "identidades_digitales_pkey",
      "outbox_eventos_pkey"] then some .id
    else none
  | .indexError | .signing => some .key
  | .text texto => if storable texto then none else some .nul
  | .numeric => some .score
  | .database => some .connection
  | .media => some .media
  | .provider => some .provider

/-- How an operation fails: the classes that it raises, the causes outside of it, and the texts for
invalid data, each with the fields that it may name. -/
structure Raises where
  clases : List ErrorClass
  causas : List Cause := []
  datos : List (String × List String) := []

/-- A domain error of the operation: it has `retry_after` where its class has, and the text of its
class alone, or one for invalid data with fields of the request. -/
structure DomainError.Of (op : Raises) (e : DomainError) : Prop where
  clase : e.clase ∈ op.clases
  retryAfter : e.retryAfter.isSome = e.clase.retries
  detalles : e.campos = none ∧ e.mensaje = e.clase.mensajePorDefecto ∨
    e.clase = .datosInvalidos ∧
      ∃ d ∈ op.datos, e.mensaje = d.1 ∧ ∀ campos ∈ e.campos, campos ⊆ d.2

/-- A failure of the operation. -/
def Failure.Of (op : Raises) : Failure → Prop
  | .domain e => e.Of op
  | f => ∃ c ∈ f.cause?, c ∈ op.causas

/-- The failure that a call of the registration ended with. -/
def Registrar.failure? : Registrar → Option Failure
  | .register _ (.done (.error f)) => some f
  | _ => none

/-- The failure that a call of the facade ended with. -/
def Verifier.failure? : Verifier → Option Failure
  | .verify _ _ (.done (.error f)) => some f
  | _ => none

/-- The failure that a call of the credential services ended with. -/
def Call.failure? : Call → Option Failure
  | .issue _ _ (.done (.error f)) | .consume _ _ (.done (.error f))
  | .revokeById _ _ (.done (.error f)) | .detail _ _ (.done _ (.error f))
  | .sweep _ (.done (.error f)) => some f
  | _ => none

/-- The failure that a call ended with. -/
def Service.failure? : Service → Option Failure
  | .registration l => l.failure?
  | .verification l => l.failure?
  | .credentials l => l.failure?

/-- The fields that `register` checks. -/
def camposDocumento : List String :=
  ["nombre_completo", "tipo_documento", "numero_documento", "fecha_vencimiento", "foto_documento"]

/-- How `register` fails. -/
def registerRaises : Raises where
  clases := [.datosInvalidos, .documentoVencido, .imagenDemasiadoGrande, .formatoNoAdmitido,
    .cuentaYaRegistrada, .documentoYaRegistrado, .almacenamientoNoDisponible]
  causas := [.connection, .nul, .media]
  datos := [("Invalid data", camposDocumento)]

/-- How `verify_and_create_identity` fails. -/
def verifyRaises : Raises where
  clases := [.imagenDemasiadoGrande, .formatoNoAdmitido, .estadoNoPermiteVerificacion,
    .almacenamientoNoDisponible, .pasajeroNoRegistrado]
  causas := [.connection, .nul, .score, .id, .media, .provider]

/-- How `issue` fails. -/
def issueRaises : Raises where
  clases := [.datosInvalidos, .identidadNoActiva, .limiteEmisionExcedido, .documentoVencidoParaPase,
    .almacenamientoNoDisponible]
  causas := [.connection, .nul, .key]
  datos := [("Invalid flight code", ["codigo_vuelo"]),
    ("QR validity must be between 30 and 60 seconds", [])]

/-- How the methods of the credential services fail. -/
def Call.raises : Call → Raises
  | .issue .. => issueRaises
  | .consume .. => { clases := [], causas := [.connection, .nul] }
  | .revokeById .. => { clases := [.credencialNoEncontrada], causas := [.connection, .nul] }
  | .detail .. => { clases := [.credencialNoEncontrada], causas := [.connection] }
  | .sweep .. => { clases := [], causas := [.connection] }
  | .idle | .mayBeUsable .. => { clases := [] }

/-- How a call fails. -/
def Service.raises : Service → Raises
  | .registration _ => registerRaises
  | .verification _ => verifyRaises
  | .credentials l => l.raises

/-- The failure of a call is one of its operation. -/
def Service.Fails (l : Service) : Prop := ∀ f, l.failure? = some f → f.Of l.raises

/-- What the operation raises, a larger one may raise. -/
structure Raises.Part (op op' : Raises) : Prop where
  clases : op.clases ⊆ op'.clases
  causas : op.causas ⊆ op'.causas
  datos : op.datos ⊆ op'.datos

variable {cfg : BackendSettings} {s t : BackendSystem} {op op' : Raises}

/-! ## Validation -/

/-- An error of a class alone. -/
theorem DomainError.Of.plain {clase : ErrorClass} (h : clase ∈ op.clases)
    (hr : clase.retries = false) : DomainError.Of op { clase } :=
  ⟨h, hr.symm, .inl ⟨rfl, rfl⟩⟩

/-- An error of a class that tells when to come back. -/
theorem DomainError.Of.retry {clase : ErrorClass} {n : Int} (h : clase ∈ op.clases)
    (hr : clase.retries = true) : DomainError.Of op { clase, retryAfter := some n } :=
  ⟨h, hr.symm, .inl ⟨rfl, rfl⟩⟩

/-- An error about data. -/
theorem DomainError.Of.datos {mensaje : String} {campos permitidos : List String}
    (h : .datosInvalidos ∈ op.clases) (hd : (mensaje, permitidos) ∈ op.datos)
    (hsub : campos ⊆ permitidos) :
    DomainError.Of op { clase := .datosInvalidos, mensaje, campos := some campos } :=
  ⟨h, rfl, .inr ⟨rfl, _, hd, rfl, fun c hc => by cases hc; exact hsub⟩⟩

/-- How `validate_image` fails. -/
def imageRaises : Raises where
  clases := [.imagenDemasiadoGrande, .formatoNoAdmitido]

/-- What `validate_image` raises. -/
theorem validateImage_of {data : List UInt8} {declared : Option String} {e : DomainError}
    (h : validateImage data declared = .error e) : e.Of imageRaises := by
  unfold validateImage at h
  split at h
  · cases h
    exact .plain (by simp [imageRaises]) rfl
  · dsimp only at h
    split at h <;> cases h
    exact .plain (by simp [imageRaises]) rfl

/-- How the validation of a document fails. -/
def documentRaises : Raises where
  clases := [.datosInvalidos, .documentoVencido]
  datos := [("Invalid data", camposDocumento)]

/-- What `DatosDocumento.validar` raises. -/
theorem DatosDocumento.validar_of {nombre tipo numero : Option String} {fecha : Option Date}
    {hoy : Date} {e : DomainError} (h : validar nombre tipo numero fecha hoy = .error e) :
    e.Of documentRaises := by
  unfold validar at h
  dsimp only at h
  split at h
  · split at h <;> cases h
    exact .plain (by simp [documentRaises]) rfl
  · cases h
    refine .datos (by simp [documentRaises]) List.mem_cons_self fun c hc => ?_
    rw [List.mem_insertionSort] at hc
    simp only [List.mem_append] at hc
    rcases hc with ((hc | hc) | hc) | hc
    all_goals
      split at hc
      all_goals simp only [List.mem_singleton, List.not_mem_nil] at hc
      all_goals simp [camposDocumento, hc]

/-- What `_validate` raises: the missing photo is a field as the others are. -/
theorem RegisterRequest.validate_of {q : RegisterRequest} {hoy : Date} {e : DomainError}
    (h : q.validate hoy = .error e) : e.Of documentRaises := by
  unfold validate at h
  dsimp only at h
  have hfoto : (if (q.foto.getD []).isEmpty then ["foto_documento"] else []) ⊆ camposDocumento := by
    split <;> simp [camposDocumento]
  generalize (if (q.foto.getD []).isEmpty then ["foto_documento"] else []) = faltantes at h hfoto
  split at h
  · next e' hval =>
    have he := DatosDocumento.validar_of hval
    split at h
    · next hclase =>
      cases h
      refine .datos (by simp [documentRaises]) List.mem_cons_self fun c hc => ?_
      rw [List.mem_insertionSort, List.mem_dedup, List.mem_append] at hc
      rcases hc with hc | hc
      · rcases he.detalles with ⟨hnone, -⟩ | ⟨-, d, hd, -, hsub⟩
        · rw [hnone] at hc
          cases hc
        · cases hcampos : e'.campos with
          | none => rw [hcampos] at hc; cases hc
          | some campos =>
            rw [hcampos] at hc
            cases List.mem_singleton.1 hd
            exact hsub campos hcampos hc
      · exact hfoto hc
    · split at h <;> cases h
      · exact he
      · exact .datos (by simp [documentRaises]) List.mem_cons_self hfoto
  · split at h <;> cases h
    exact .datos (by simp [documentRaises]) List.mem_cons_self hfoto

/-- What an operation raises, it raises as a part of another. -/
theorem DomainError.Of.mono {e : DomainError} (h : e.Of op) (hsub : op.Part op') : e.Of op' where
  clase := hsub.clases h.clase
  retryAfter := h.retryAfter
  detalles := h.detalles.imp_right fun ⟨hc, d, hd, hrest⟩ => ⟨hc, d, hsub.datos hd, hrest⟩

/-- So it does with what fails it besides. -/
theorem Failure.Of.mono {f : Failure} (h : f.Of op) (hsub : op.Part op') : f.Of op' := by
  cases f with
  | domain e => exact DomainError.Of.mono h hsub
  | _ =>
    obtain ⟨c, hc, hop⟩ := h
    exact ⟨c, hc, hsub.causas hop⟩

/-- A text that is not stored is a failure of an operation that gives the database texts. -/
theorem Failure.Of.text {textos : List String} {f : Failure}
    (h : textError? textos = some f) (hop : .nul ∈ op.causas) : f.Of op := by
  obtain ⟨texto, -, hbad, rfl⟩ := textError?_eq_some h
  exact ⟨.nul, by simp [cause?, hbad], hop⟩

/-- So is the failure of a transaction that writes a text. -/
theorem Failure.Of.write {texto : String} (hconn : .connection ∈ op.causas)
    (hnul : .nul ∈ op.causas) : (writeError texto).Of op := by
  rcases writeError_cases texto with he | ⟨hbad, he⟩
  · rw [he]
    exact ⟨.connection, rfl, hconn⟩
  · rw [he]
    exact ⟨.nul, by simp [cause?, hbad], hnul⟩

/-! ## The registration -/

theorem documentRaises_part : documentRaises.Part registerRaises :=
  ⟨by simp [documentRaises, registerRaises], by simp [documentRaises],
    by simp [documentRaises, registerRaises]⟩

theorem imageRaises_part : imageRaises.Part registerRaises :=
  ⟨by simp [imageRaises, registerRaises], by simp [imageRaises], by simp [imageRaises]⟩

/-- One step of `register` fails as `register` does. -/
theorem registerStep_fails {w : RegistrationWorld} {q : RegisterRequest} {ph : RegisterPhase}
    {ch : RegisterChoice} {r : RegistrationWorld × RegisterPhase}
    (h : registerStep w q ch ph = some r) {f : Failure} (hf : r.2 = .done (.error f)) :
    f.Of registerRaises := by
  cases ph with
  | start =>
    simp only [registerStep] at h
    split at h
    · next e hval =>
      cases h
      cases hf
      exact (RegisterRequest.validate_of hval).mono documentRaises_part
    · split at h
      · next e himg =>
        cases h
        cases hf
        exact (validateImage_of himg).mono imageRaises_part
      · cases h
        cases hf
  | readingUser | readingDocument | adding | resolving | withIdentity =>
    simp only [registerStep] at h
    repeat' split at h
    all_goals (cases h; cases hf)
    all_goals first
      | exact .plain (by simp [registerRaises]) rfl
      | exact ⟨.connection, rfl, by simp [registerRaises]⟩
      | exact .text ‹_› (by simp [registerRaises])
  | storing datos put id =>
    simp only [registerStep] at h
    split at h
    · cases h; cases hf; exact ⟨.media, rfl, by simp [registerRaises]⟩
    · split at h <;> cases h <;> cases hf
      exact .retry (by simp [registerRaises]) rfl
  | done => cases h

/-! ## The verification -/

section
variable {w w' : VerificationWorld} {cfg : VerificationSettings} {pasajero pasajero' : Pasajero}
  {intento : IntentoVerificacion} {intentoId identidadId eventId : UUID} {stored : StoredMedia}
  {result : Option BiometricResult} {ch : VerificationChoice} {f : Failure} {id : UUID}

/-- What `assert_can_verify` raises. -/
theorem Pasajero.assertCanVerify_error {e : DomainError}
    (h : pasajero.assertCanVerify = .error e) : e.Of verifyRaises := by
  unfold assertCanVerify at h
  split at h <;> cases h
  exact .plain (by simp [verifyRaises]) rfl

/-- `record_attempt` fails for its texts, its numbers or its id only. -/
theorem recordAttempt_error (hw : VerificationOK w) {ahora : Instant}
    (hp : w.pasajeros.find? pasajero.id = some pasajero.toPasajeroRow)
    (h : recordAttempt cfg w ahora pasajero intentoId stored result = .error f) :
    f.Of verifyRaises := by
  simp only [recordAttempt] at h
  split at h
  · next e happ =>
    cases h
    simp only [Pasajero.applyOutcome, bind, Except.bind] at happ
    split at happ
    · next hcan =>
      cases happ
      exact Pasajero.assertCanVerify_error hcan
    · split at happ <;> cases happ
  · next q happ =>
    split at h
    · next hins =>
      cases h
      rcases insertIntentoError_evaluar _ _ _ _ _ _ _ _ hins with
        ⟨texto, hbad, rfl⟩ | rfl | rfl | ⟨rfl, -⟩
      · exact ⟨.nul, by simp [Failure.cause?, hbad], by simp [verifyRaises]⟩
      · exact ⟨.score, rfl, by simp [verifyRaises]⟩
      · exact ⟨.score, rfl, by simp [verifyRaises]⟩
      · exact ⟨.id, rfl, by simp [verifyRaises]⟩
    · split at h
      · next e hsave =>
        -- a passenger whose verification is pending has fewer than three failures
        obtain ⟨hstep, -⟩ := Pasajero.applyOutcome_ok happ
        obtain ⟨hqf, hqe⟩ := (hw.counts hp).snoc hstep
        exfalso
        simp only [PasajeroRow.progress_fallidos] at hqf
        unfold savePasajeroError at hsave
        split at hsave
        · cases hsave
        · next hgt =>
          split at hqe <;> omega
      · cases h

/-- An attempt that may be inserted has a new id. -/
theorem insertIntentoError_free {t : Rows IntentoVerificacionRow.id} {r : IntentoVerificacionRow}
    (h : insertIntentoError t r = none) : t.find? r.id = none := by
  unfold insertIntentoError at h
  repeat' split at h
  all_goals first
    | exact Option.not_isSome_iff_eq_none.1 ‹_›
    | cases h

/-- `create_for_success` for a new attempt of a passenger without identity fails for the id of the
identity or of the event only. -/
theorem createForSuccess_error
    (hno : ∀ x ∈ w.identidades.rows, x.pasajeroId ≠ pasajero.id)
    (hori : ∀ x ∈ w.identidades.rows, x.intentoOrigenId ≠ intento.id)
    (h : createForSuccess w pasajero intento identidadId eventId = .error f) :
    f.Of verifyRaises := by
  unfold createForSuccess at h
  split at h
  · cases h
  dsimp only at h
  split at h
  · next e hins =>
    cases h
    unfold insertIdentidadError at hins
    split at hins
    · cases hins
      exact ⟨.id, rfl, by simp [verifyRaises]⟩
    split at hins
    · next hrev => exact absurd hrev (by simp [IdentidadDigital.crear])
    split at hins
    · next hany =>
      obtain ⟨x, hx, heq⟩ := List.any_eq_true.1 hany
      exact absurd (of_decide_eq_true heq) (hori x hx)
    split at hins
    · next hany =>
      obtain ⟨x, hx, heq⟩ := List.any_eq_true.1 (Bool.and_eq_true_iff.1 hany).2
      exact absurd (of_decide_eq_true (Bool.and_eq_true_iff.1 heq).2) (hno x hx)
    · cases hins
  · split at h <;> cases h
    exact ⟨.id, rfl, by simp [verifyRaises]⟩

/-- The transaction fails for the ids drawn, the texts, the numbers and the state of the passenger
only. -/
theorem verifyTx_error (hw : VerificationOK w)
    (h : verifyTx cfg w id intentoId stored result ch = .error f) : f.Of verifyRaises := by
  unfold verifyTx at h
  split at h
  · cases h
    exact .plain (by simp [verifyRaises]) rfl
  next row hrow =>
  dsimp only at h
  have hid : row.id = id := Rows.find?_key hrow
  have hfind : w.pasajeros.find? row.id = some row := hid ▸ hrow
  split at h
  · next e hcan =>
    cases h
    exact Pasajero.assertCanVerify_error hcan
  split at h
  · next e hrec =>
    cases h
    exact recordAttempt_error hw hfind hrec
  next w' locked intento hrec =>
  split at h
  · split at h
    · next e hcre =>
      cases h
      obtain ⟨-, -, hstep, hlid, -, -, hident, -⟩ := recordAttempt_ok hrec
      obtain ⟨-, -, hins, -⟩ := recordAttempt_writes hrec
      have hpend := Progress.pendiente_of_step hstep
      refine createForSuccess_error (fun x hx => ?_) (fun x hx heq => ?_) hcre
      · rw [hlid]
        exact hw.no_identity hfind hpend x (hident ▸ hx)
      · -- an identity of before comes from an attempt of before
        obtain ⟨a, ha, -, -, haid⟩ := hw.attempt_of_identity (hident ▸ hx)
        have hfree := insertIntentoError_free hins
        rw [show intento.row.id = a.id from (haid.trans heq).symm, Rows.find?_of_mem ha] at hfree
        cases hfree
    · cases h
  · cases h

/-- One step of the facade fails as the facade does. -/
theorem verifyStep_fails (hw : VerificationOK w) {selfie : ImageInput} {ph : VerifyPhase}
    {r : VerificationWorld × VerifyPhase} (h : verifyStep cfg w pasajero selfie ch ph = some r)
    (hf : r.2 = .done (.error f)) : f.Of verifyRaises := by
  cases ph with
  | start =>
    simp only [verifyStep] at h
    split at h
    · next e himg =>
      cases h
      cases hf
      exact (validateImage_of himg).mono
        ⟨by simp [imageRaises, verifyRaises], by simp [imageRaises], by simp [imageRaises]⟩
    · split at h
      · next e hcan =>
        cases h
        cases hf
        exact Pasajero.assertCanVerify_error hcan
      · cases h
        cases hf
  | storing put pathname intentoId =>
    simp only [verifyStep] at h
    split at h
    · cases h; cases hf; exact ⟨.media, rfl, by simp [verifyRaises]⟩
    · split at h <;> cases h <;> cases hf
      exact .retry (by simp [verifyRaises]) rfl
  | evaluating imagen referencia intentoId stored =>
    simp only [verifyStep] at h
    split at h
    · cases h; cases hf; exact ⟨.provider, rfl, by simp [verifyRaises]⟩
    · split at h <;> cases h
      cases hf
  | evaluated intentoId stored result =>
    simp only [verifyStep] at h
    split at h
    · next e htx =>
      cases h
      cases hf
      exact verifyTx_error hw htx
    · split at h
      · cases h; cases hf; exact ⟨.connection, rfl, by simp [verifyRaises]⟩
      · split at h <;> cases h <;> cases hf
  | publishing eventId o d =>
    cases d with
    | finished | failed => cases h; cases hf
    | start | claiming | publishing | answered | saving =>
      simp only [verifyStep] at h
      obtain ⟨r', -, rfl⟩ := Option.map_eq_some_iff.1 h
      cases hf
  | done => cases h

end

/-! ## The credential services -/

section
variable {cfg : PassSettings} {i : Nat} {w : World} {ch : Choice} {f : Failure}

/-- What `normalizar_codigo_vuelo` raises. -/
theorem normalizarCodigoVuelo_of {codigo : Option String} {e : DomainError}
    (h : normalizarCodigoVuelo codigo = .error e) : e.Of issueRaises := by
  simp only [normalizarCodigoVuelo] at h
  split at h <;> cases h
  exact .datos (by simp [issueRaises]) List.mem_cons_self (List.Subset.refl _)

/-- A builder that has been given everything, with the default permissions, fails for its data or
its signer. -/
theorem CredencialAccesoBuilder.build_fails {b : CredencialAccesoBuilder} {jti : UUID}
    (hcompleto : b.faltantes = []) (hpermisos : b.permisos = permisosPorDefecto)
    (h : b.build jti = .error f) : f.Of issueRaises := by
  have hkey : .key ∈ issueRaises.causas := by simp [issueRaises]
  obtain ⟨pasajeroId, identidadId, codigoVuelo, permisos, ttl, signer, emitidaAt⟩ := b
  cases hpermisos
  cases pasajeroId <;> cases identidadId <;> cases codigoVuelo <;> cases ttl <;> cases signer <;>
    cases emitidaAt <;> try cases hcompleto
  next codigo _ signer _ =>
  simp only [build, bind, Except.bind, pure, Except.pure, throw, throwThe,
    MonadExceptOf.throw] at h
  split at h
  · cases h
    exact ⟨by simp [issueRaises], rfl, .inr ⟨rfl, _, List.mem_cons_of_mem _ List.mem_cons_self,
      rfl, by simp⟩⟩
  split at h
  · next hno => exact absurd hno (by decide)
  split at h
  · next hn =>
    cases h
    cases hn' : normalizarCodigoVuelo (some codigo) with
    | error e =>
      rw [hn'] at hn
      cases hn
      exact normalizarCodigoVuelo_of hn'
    | ok v => rw [hn'] at hn; cases hn
  split at h
  case h_2 => cases h; exact ⟨.key, rfl, hkey⟩
  split at h
  · next hs =>
    cases h
    unfold CredentialSigner.signatureOf at hs
    split at hs <;> cases hs
    exact ⟨.key, rfl, hkey⟩
  cases h

/-- `issue` never ends with `UniqueViolation`, and with what it raises otherwise. -/
theorem issueStep_fails {user codigoVuelo : String} {ph : IssuePhase} {r : World × IssuePhase}
    (hok : ∀ k, f ≠ .uniqueViolation k) (h : issueStep cfg i w user codigoVuelo ch ph = some r)
    (hf : r.2 = .done (.error f)) : f.Of issueRaises := by
  cases ph with
  | start =>
    simp only [issueStep] at h
    split at h
    · cases h; cases hf
    · next e hn =>
      cases h
      cases hf
      exact normalizarCodigoVuelo_of hn
  | validated | found | admitted | locked | registered | unregistered | committed =>
    simp only [issueStep] at h
    repeat' split at h
    all_goals cases h <;> cases hf
    all_goals first
      | exact ⟨.connection, rfl, by simp [issueRaises]⟩
      | exact .plain (by simp [issueRaises]) rfl
      | exact .retry (by simp [issueRaises]) rfl
      | exact .text ‹_› (by simp [issueRaises])
  | dated | renewing =>
    simp only [issueStep] at h
    repeat' split at h
    all_goals cases h <;> cases hf
  | ready tx =>
    simp only [issueStep] at h
    split at h
    · cases h
    split at h <;> cases h <;> cases hf
    next hb =>
    exact CredencialAccesoBuilder.build_fails rfl rfl hb
  | built tx c token =>
    simp only [issueStep] at h
    split at h
    · next k _ =>
      cases h
      cases hf
      exact absurd rfl (hok k)
    · cases h; cases hf
  | added tx c token =>
    simp only [issueStep] at h
    split at h <;> cases h <;> cases hf
  | done => cases h

/-- One step of `revoke_by_id` fails as `revoke_by_id` does. -/
theorem revokeStep_fails {jti : UUID} {motivo : String} {ph : RevokePhase}
    {r : World × RevokePhase} (h : revokeStep i w jti motivo ch ph = some r)
    (hf : r.2 = .done (.error f)) : f.Of (Call.revokeById jti motivo ph).raises := by
  cases ph with
  | start | locked | refreshed | revoked | forgetting =>
    simp only [revokeStep] at h
    repeat' split at h
    all_goals cases h <;> cases hf
    all_goals first
      | exact .write (by simp [Call.raises]) (by simp [Call.raises])
      | exact .plain List.mem_cons_self rfl
  | done => cases h

/-- One step of `detail_for_owner` fails as `detail_for_owner` does. -/
theorem detailStep_fails {jti pasajeroId : UUID} {ph : DetailPhase} {r : World × DetailPhase}
    (h : detailStep i w jti pasajeroId ch ph = some r) {now : Instant}
    (hf : r.2 = .done now (.error f)) : f.Of (Call.detail jti pasajeroId ph).raises := by
  cases ph with
  | start | locked | refreshed =>
    simp only [detailStep] at h
    repeat' split at h
    all_goals cases h <;> cases hf
    all_goals first
      | exact ⟨.connection, rfl, List.mem_cons_self⟩
      | exact .plain List.mem_cons_self rfl
  | done => cases h

/-- One step of `sweep_expired` fails as `sweep_expired` does. -/
theorem sweepStep_fails {limit : Nat} {ph : SweepPhase} {r : World × SweepPhase}
    (h : sweepStep i w limit ch ph = some r) (hf : r.2 = .done (.error f)) :
    f.Of (Call.sweep limit ph).raises := by
  cases ph with
  | start | read =>
    simp only [sweepStep] at h
    repeat' split at h
    all_goals (cases h; cases hf)
    all_goals exact ⟨.connection, rfl, List.mem_cons_self⟩
  | done => cases h

/-- The failure of a call of the credential services after its step. -/
theorem callStep_fails {l : Call} {a : CallAct} {r : World × Call} (hok : r.2.OK cfg i r.1)
    (h : callStep cfg i w l a = some r) (hf : r.2.failure? = some f) : f.Of r.2.raises := by
  unfold callStep at h
  split at h
  · next q =>
    cases h
    cases q <;> cases hf
  · obtain ⟨r', hr', rfl⟩ := Option.map_eq_some_iff.1 h
    obtain ⟨w', ph'⟩ := r'
    cases ph' with
    | done r =>
      cases r <;> cases hf
      exact issueStep_fails hok hr' rfl
    | start | validated | found | admitted | locked | dated | renewing | ready | built | added
    | registered | unregistered | committed => cases hf
  · obtain ⟨r', hr', rfl⟩ := Option.map_eq_some_iff.1 h
    obtain ⟨w', ph'⟩ := r'
    cases ph' with
    | done r =>
      cases r <;> cases hf
      obtain ⟨texto, rfl⟩ : ∃ texto, f = writeError texto := hok
      exact .write (by simp [Call.raises]) (by simp [Call.raises])
    | start | read | marking => cases hf
  · obtain ⟨r', hr', rfl⟩ := Option.map_eq_some_iff.1 h
    obtain ⟨w', ph'⟩ := r'
    cases ph' with
    | done r => cases r <;> cases hf; exact (revokeStep_fails hr' rfl :)
    | start | locked | refreshed | revoked | forgetting => cases hf
  · obtain ⟨r', hr', rfl⟩ := Option.map_eq_some_iff.1 h
    obtain ⟨w', ph'⟩ := r'
    cases ph' with
    | done now r => cases r <;> cases hf; exact (detailStep_fails hr' rfl :)
    | start | locked | refreshed => cases hf
  · obtain ⟨r', hr', rfl⟩ := Option.map_eq_some_iff.1 h
    obtain ⟨w', ph'⟩ := r'
    cases ph' with
    | done r => cases r <;> cases hf; exact (sweepStep_fails hr' rfl :)
    | start | read => cases hf
  · cases h; cases hf
  · cases h

end

/-! ## The backend -/

/-- Every step leaves failures of the operations only. -/
theorem backendStep_fails (hs : BackendOK s) (hcr : CredentialsOK cfg.pases s.credentials)
    (hl : ∀ i, (s.locals i).Fails) {a : Act ServiceAct Nat} (h : backendStep cfg s a = some t)
    (i : Nat) : (t.locals i).Fails := by
  cases backendStep_cases h with
  | @registration j l a r hsl hreg hsh htl hother =>
    refine Sys.forall_locals (t := t) (fun _ l => l.Fails) ?_ hother (fun k _ => hl k) i
    intro f hf
    rw [htl] at hf ⊢
    unfold registrarStep at hreg
    split at hreg
    · cases hreg; cases hf
    · obtain ⟨⟨w', ph'⟩, hr', rfl⟩ := Option.map_eq_some_iff.1 hreg
      cases ph' with
      | done r => cases r <;> cases hf; exact registerStep_fails hr' rfl
      | start | readingUser | readingDocument | storing | adding | resolving | withIdentity =>
        cases hf
    · cases hreg
  | @verification j l a r hsl _ hver hsh htl hother =>
    refine Sys.forall_locals (t := t) (fun _ l => l.Fails) ?_ hother (fun k _ => hl k) i
    intro f hf
    rw [htl] at hf ⊢
    unfold verifierStep at hver
    split at hver
    · cases hver; cases hf
    · obtain ⟨⟨w', ph'⟩, hr', rfl⟩ := Option.map_eq_some_iff.1 hver
      cases ph' with
      | done r => cases r <;> cases hf; exact verifyStep_fails hs.verification hr' rfl
      | start | storing | evaluating | evaluated | publishing => cases hf
    · obtain ⟨r', -, rfl⟩ := Option.map_eq_some_iff.1 hver
      cases hf
    · obtain ⟨r', -, rfl⟩ := Option.map_eq_some_iff.1 hver
      cases hf
    · cases hver
  | @credentials j l a r hsl hcall hsh htl hother =>
    refine Sys.forall_locals (t := t) (fun _ l => l.Fails) ?_ hother (fun k _ => hl k) i
    intro f hf
    have hok := hcr.2 j
    simp only [BackendSystem.credentials, hsl, Service.call] at hok
    rw [htl] at hf ⊢
    exact callStep_fails (callStep_ok hcr.1 hok hcall).2.1 hcall hf
  | @tick d he hlocals =>
    rw [hlocals]
    exact hl i

theorem Service.Idle.fails {l : Service} (h : l.Idle) : l.Fails := by
  cases l <;> cases h <;> exact nofun

/-- In every reachable state each call fails as its operation does. -/
theorem backend_fails (hs : Reachable BackendSystem.Initial (backendStep cfg) s) (i : Nat) :
    (s.locals i).Fails :=
  Reachable.invariant_of (I := fun s : BackendSystem => ∀ i, (s.locals i).Fails)
    (fun _ h j => (h.locals j).fails)
    (fun _ _ _ hu hl hst => backendStep_fails (backend_inv hu) (backend_credentials hu) hl hst)
    hs i

end Aeropass
