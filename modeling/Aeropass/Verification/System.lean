import Aeropass.Outbox.System
import Aeropass.Verification.Store

/-!
# The identity verification facade

`verify_and_create_identity` as calls that interleave at their awaits: the early check without a
lock, the media upload and download, the provider, one transaction under the passenger's row lock
and the publish after it. The outbox and its dispatchers are those of the outbox model; the other
services only register passengers.
-/

namespace Aeropass

/-- What the calls share. -/
structure VerificationWorld where
  pasajeros : Rows PasajeroRow.id
  intentos : Rows IntentoVerificacionRow.id
  identidades : Rows IdentidadDigital.id
  out : OutboxWorld

/-- The settings of the services: the thresholds, and the provider's name with the results that it
gives. -/
structure VerificationSettings where
  umbrales : Thresholds
  proveedor : String
  gives : BiometricResult → Bool := fun _ => true

/-- What the source leaves open in a step: an exception of no type the source names (of media
storage or the provider where these are called, of the database otherwise), how long before the end
of the transaction `record_attempt` reads its clock, the ids drawn, what media storage and the
provider answer, and whether the commit succeeds. -/
structure VerificationChoice where
  dies : Bool := false
  demora : Nat := 0
  intentoId : UUID := 0
  identidadId : UUID := 0
  eventId : UUID := 0
  media : Option (StoredMedia × ImageInput) := none
  verdict : Option BiometricResult := none
  commits : Bool := true
  dispatch : DispatchChoice := {}

/-- `VerificationOutcome`. -/
structure VerificationOutcome where
  intento : IntentoVerificacion
  pasajero : Pasajero
  identidadId : Option UUID
  deriving DecidableEq

/-- `STORAGE_RETRY_AFTER_SECONDS`. -/
def storageRetryAfterSeconds : Int := 5

/-! ## The transaction -/

/-- What `record_attempt` reads from its clock, some time before `create_for_success` reads its own:
after `get_for_update` has locked the row, so not before the row was last written. -/
def recordedAt (clock : Instant) (row : PasajeroRow) (demora : Nat) : Instant :=
  max (clock - demora) (row.updatedAt.getD (clock - demora))

/-- `record_attempt`, whose clock shows `ahora`. -/
def recordAttempt (cfg : VerificationSettings) (w : VerificationWorld) (ahora : Instant)
    (pasajero : Pasajero) (intentoId : UUID) (selfie : StoredMedia)
    (result : Option BiometricResult) :
    Except Failure (VerificationWorld × Pasajero × IntentoVerificacion) :=
  let intento := IntentoVerificacion.evaluar intentoId pasajero.id selfie result cfg.umbrales
    cfg.proveedor ahora
  match pasajero.applyOutcome intento.resultado ahora with
  | .error e => .error (.domain e)
  | .ok pasajero =>
    match insertIntentoError w.intentos intento.row with
    | some e => .error e
    | none =>
      match savePasajeroError pasajero.toPasajeroRow with
      | some e => .error e
      | none =>
        .ok ({ w with
          intentos := (w.intentos.insert? intento.row).getD w.intentos
          pasajeros := savePasajero w.pasajeros pasajero.toPasajeroRow }, pasajero, intento)

/-- `create_for_success`. -/
def createForSuccess (w : VerificationWorld) (pasajero : Pasajero) (intento : IntentoVerificacion)
    (identidadId eventId : UUID) :
    Except Failure (VerificationWorld × IdentidadDigital × Option DomainEvent) :=
  match getActive w.identidades.rows pasajero.id with
  | some existente => .ok (w, existente, none)
  | none =>
    let ahora := w.out.clock
    let identidad := IdentidadDigital.crear identidadId pasajero.id intento.id ahora
    let event := CredencialEmitidaV1.fromIdentity identidad eventId ahora
    match insertIdentidadError w.identidades identidad with
    | some e => .error e
    | none =>
      match w.out.outbox.insert? (.pendiente event) with
      | none => .error (.uniqueViolation "outbox_eventos_pkey")
      | some outbox =>
        .ok ({ w with
          identidades := (w.identidades.insert? identidad).getD w.identidades
          out := { w.out with outbox } }, identidad, some event)

/-- The transaction of `verify_and_create_identity`, under the lock of the passenger's row: the
tables it leaves, its answer and the event to publish. -/
def verifyTx (cfg : VerificationSettings) (w : VerificationWorld) (pasajeroId intentoId : UUID)
    (stored : StoredMedia) (result : Option BiometricResult) (ch : VerificationChoice) :
    Except Failure (VerificationWorld × VerificationOutcome × Option DomainEvent) :=
  match w.pasajeros.find? pasajeroId with
  | none => .error (.domain { clase := .pasajeroNoRegistrado })
  | some row =>
    let locked : Pasajero := { row with }
    match locked.assertCanVerify with
    | .error e => .error (.domain e)
    | .ok () =>
      match recordAttempt cfg w (recordedAt w.out.clock row ch.demora) locked intentoId stored
          result with
      | .error e => .error e
      | .ok (w, locked, intento) =>
        if intento.resultado = .exitoso then
          match createForSuccess w locked intento ch.identidadId ch.eventId with
          | .error e => .error e
          | .ok (w, identidad, event) =>
            .ok (w, ⟨intento, locked.conIdentidad (some identidad.id), some identidad.id⟩, event)
        else .ok (w, ⟨intento, locked.conIdentidad none, none⟩, none)

/-! ## The calls -/

/-- Where a call of the facade is. -/
inductive VerifyPhase where
  | start
  | storing (put : PutPrivate) (pathname : String) (intentoId : UUID)
  | evaluating (imagen referencia : ImageInput) (intentoId : UUID) (stored : StoredMedia)
  | evaluated (intentoId : UUID) (stored : StoredMedia) (result : Option BiometricResult)
  | publishing (eventId : UUID) (outcome : VerificationOutcome) (ph : DispatchPhase)
  | done (r : Except Failure VerificationOutcome)
  deriving DecidableEq

/-- One step of `verify_and_create_identity(pasajero, doc, selfie)`; `pasajero` is what the caller
read some time ago, and `doc` its document. -/
def verifyStep (cfg : VerificationSettings) (w : VerificationWorld) (pasajero : Pasajero)
    (selfie : ImageInput) (ch : VerificationChoice) :
    VerifyPhase → Option (VerificationWorld × VerifyPhase)
  | .start =>
    match validateImage selfie.data (some selfie.contentType) with
    | .error e => some (w, .done (.error (.domain e)))
    | .ok imagen =>
      match pasajero.assertCanVerify with
      | .error e => some (w, .done (.error (.domain e)))
      | .ok () =>
        -- the upload and the download that media storage is asked for next
        let pathname := "selfies/" ++ pasajero.id.str ++ "/" ++ ch.intentoId.str
        some (w, .storing ⟨pathname, imagen⟩ pasajero.documento.foto.pathname ch.intentoId)
  | .storing put _ intentoId =>
    if ch.dies then some (w, .done (.error .media))
    else match ch.media with
      | none =>
        some (w, .done (.error (.domain
          { clase := .almacenamientoNoDisponible, retryAfter := some storageRetryAfterSeconds })))
      | some (stored, referencia) => some (w, .evaluating put.image referencia intentoId stored)
  | .evaluating _ _ intentoId stored =>
    if ch.dies then some (w, .done (.error .provider))
    else if ch.verdict.all cfg.gives then some (w, .evaluated intentoId stored ch.verdict)
    else none
  | .evaluated intentoId stored result =>
    match verifyTx cfg w pasajero.id intentoId stored result ch with
    | .error e => some (w, .done (.error e))
    | .ok (w', outcome, event) =>
      if ch.dies || !ch.commits then some (w, .done (.error .database))
      else match event with
        | some event => some (w', .publishing event.id outcome .start)
        | none => some (w', .done (.ok outcome))
  | .publishing eventId outcome ph =>
    -- `publish_now([event.id])` never raises
    match ph with
    | .finished _ | .failed => some (w, .done (.ok outcome))
    | ph => (dispatchStep w.out 1 (some [eventId]) ch.dispatch ph).map fun r =>
        ({ w with out := r.1 }, .publishing eventId outcome r.2)
  | .done _ => none

/-- A call of the facade or of the dispatcher. -/
inductive Verifier where
  | idle
  | verify (pasajero : Pasajero) (selfie : ImageInput) (ph : VerifyPhase)
  | dispatcher (d : Dispatcher)
  deriving DecidableEq

/-- What moves a call. -/
inductive VerifierAct where
  | verify (pasajero : Pasajero) (selfie : ImageInput)
  | next (ch : VerificationChoice)
  | dispatcher (a : DispatchAct)

/-- One step of a call. -/
def verifierStep (cfg : VerificationSettings) (w : VerificationWorld) :
    Verifier → VerifierAct → Option (VerificationWorld × Verifier)
  | .idle, .verify pasajero selfie => some (w, .verify pasajero selfie .start)
  | .verify pasajero selfie ph, .next ch =>
    (verifyStep cfg w pasajero selfie ch ph).map fun r => (r.1, .verify pasajero selfie r.2)
  | .idle, .dispatcher a =>
    (dispatcherStep w.out .idle a).map fun r => ({ w with out := r.1 }, .dispatcher r.2)
  | .dispatcher d, .dispatcher a =>
    (dispatcherStep w.out d a).map fun r => ({ w with out := r.1 }, .dispatcher r.2)
  | _, _ => none

/-- What happens besides: time passes, and a registration commits a new passenger. -/
inductive VerificationEnv where
  | tick (d : Nat)
  | register (id : UUID) (clerkUserId : String) (datos : DatosDocumento) (foto : StoredMedia)
      (ahora : Instant)

/-- One step of the environment. -/
def verificationEnvStep (w : VerificationWorld) : VerificationEnv → Option VerificationWorld
  | .tick d => some { w with out := { w.out with clock := w.out.clock + d } }
  | .register id clerkUserId datos foto ahora =>
    let p := Pasajero.registrar id clerkUserId datos foto ahora
    (w.pasajeros.insert? p.toPasajeroRow).map fun pasajeros => { w with pasajeros }

/-- The verification services. -/
def verificationProgram (cfg : VerificationSettings) :
    Threads.Program VerificationWorld Verifier VerifierAct VerificationEnv :=
  ⟨fun _ => verifierStep cfg, verificationEnvStep⟩

/-- A shared state and all calls. -/
abbrev VerificationSystem := Threads.Sys VerificationWorld Verifier

/-- The step function of the verification services. -/
def verificationStep (cfg : VerificationSettings) :
    VerificationSystem → Threads.Act VerifierAct VerificationEnv → Option VerificationSystem :=
  (verificationProgram cfg).step

/-- The tables are empty and no call has started. -/
def VerificationSystem.Initial (s : VerificationSystem) : Prop :=
  s.shared.pasajeros = Rows.empty ∧ s.shared.intentos = Rows.empty ∧
    s.shared.identidades = Rows.empty ∧ s.shared.out.outbox = Rows.empty ∧
    s.locals = fun _ => .idle

end Aeropass
