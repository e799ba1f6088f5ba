import Aeropass.Domain.Identity
import Aeropass.Lib.Threads
import Aeropass.Registration.Store

/-!
# The registration service

`register` as calls that interleave at their awaits: the two reads of the first transaction, the
upload of the photo, the insert with its commit, and the reads of `_resolve_race`. Each read sees
the rows committed last. What the other services do to passengers, moving their verification and
adding identities, is part of the environment.
-/

namespace Aeropass

/-- What the calls share. -/
structure RegistrationWorld where
  pasajeros : PasajerosTable
  identidades : List IdentidadDigital
  clock : Instant

/-- The arguments of `register`. -/
structure RegisterRequest where
  clerkUserId : String
  nombreCompleto : Option String
  tipoDocumento : Option String
  numeroDocumento : Option String
  fechaVencimiento : Option Date
  foto : Option (List UInt8)
  fotoContentType : Option String
  deriving DecidableEq

/-- What the source leaves open in a step: an exception of no type the source names (of media
storage where it is called, of the database otherwise), the id drawn, and what media storage
answers. -/
structure RegisterChoice where
  dies : Bool := false
  pasajeroId : UUID := 0
  media : Option StoredMedia := none

/-- `STORAGE_RETRY_AFTER_SECONDS` of the registration. -/
def fotoRetryAfterSeconds : Int := 5

/-- `_validate`: missing or invalid fields, the photo included, come before an expired document. -/
def RegisterRequest.validate (q : RegisterRequest) (hoy : Date) :
    Except DomainError DatosDocumento :=
  let faltantes := if (q.foto.getD []).isEmpty then ["foto_documento"] else []
  match DatosDocumento.validar q.nombreCompleto q.tipoDocumento q.numeroDocumento
      q.fechaVencimiento hoy with
  | .error e =>
    if e.clase = .datosInvalidos then
      let campos := ((e.campos.getD [] ++ faltantes).dedup).insertionSort (· ≤ ·)
      .error { clase := .datosInvalidos, campos := some campos }
    else if faltantes.isEmpty then .error e
    else .error { clase := .datosInvalidos, campos := some faltantes }
  | .ok datos =>
    if faltantes.isEmpty then .ok datos
    else .error { clase := .datosInvalidos, campos := some faltantes }

/-- The answer of `register`: the passenger and `created`, or what it raised. -/
abbrev RegisterAnswer := Except Failure (Pasajero × Bool)

/-- Where a call of `register` is. -/
inductive RegisterPhase where
  | start
  | readingUser (datos : DatosDocumento) (imagen : ImageInput)
  | readingDocument (datos : DatosDocumento) (imagen : ImageInput)
  | storing (datos : DatosDocumento) (put : PutPrivate) (pasajeroId : UUID)
  | adding (datos : DatosDocumento) (pasajero : Pasajero)
  | resolving (datos : DatosDocumento) (violated : String)
  | withIdentity (propio : Pasajero)
  | done (r : RegisterAnswer)
  deriving DecidableEq

/-- One step of `register`. -/
def registerStep (w : RegistrationWorld) (q : RegisterRequest) (ch : RegisterChoice) :
    RegisterPhase → Option (RegistrationWorld × RegisterPhase)
  | .start =>
    match q.validate (Instant.date w.clock) with
    | .error e => some (w, .done (.error (.domain e)))
    | .ok datos =>
      match validateImage (q.foto.getD []) q.fotoContentType with
      | .error e => some (w, .done (.error (.domain e)))
      | .ok imagen => some (w, .readingUser datos imagen)
  | .readingUser datos imagen =>
    if ch.dies then some (w, .done (.error .database))
    else match textError? [q.clerkUserId] with
      | some e => some (w, .done (.error e))
      | none =>
        match w.pasajeros.getByClerkUser q.clerkUserId with
        | some propio =>
          if propio.documento.esMismo datos then some (w, .withIdentity { propio with })
          else some (w, .done (.error (.domain { clase := .cuentaYaRegistrada })))
        | none => some (w, .readingDocument datos imagen)
  | .readingDocument datos imagen =>
    if ch.dies then some (w, .done (.error .database))
    else match w.pasajeros.getByDocument datos.tipo datos.numero with
      | some _ => some (w, .done (.error (.domain { clase := .documentoYaRegistrado })))
      | none =>
        -- the upload that media storage is asked for next
        let put : PutPrivate := ⟨"documentos/" ++ ch.pasajeroId.str ++ "/rostro", imagen⟩
        some (w, .storing datos put ch.pasajeroId)
  | .storing datos _ pasajeroId =>
    if ch.dies then some (w, .done (.error .media))
    else match ch.media with
      | none =>
        some (w, .done (.error (.domain
          { clase := .almacenamientoNoDisponible, retryAfter := some fotoRetryAfterSeconds })))
      | some fotoRef =>
        some (w, .adding datos (.registrar pasajeroId q.clerkUserId datos fotoRef w.clock))
  | .adding datos pasajero =>
    if ch.dies then some (w, .done (.error .database))
    else match textError? pasajero.textos with
      | some e => some (w, .done (.error e))
      | none =>
        match w.pasajeros.insertError pasajero.toPasajeroRow with
        | some violated => some (w, .resolving datos violated)
        | none =>
          let pasajeros := (w.pasajeros.insert? pasajero.toPasajeroRow).getD w.pasajeros
          some ({ w with pasajeros }, .done (.ok (pasajero, true)))
  | .resolving datos _ =>
    if ch.dies then some (w, .done (.error .database))
    else match textError? [q.clerkUserId] with
      | some e => some (w, .done (.error e))
      | none =>
        match w.pasajeros.getByClerkUser q.clerkUserId with
        | some propio =>
          if propio.documento.esMismo datos then some (w, .withIdentity { propio with })
          else some (w, .done (.error (.domain { clase := .cuentaYaRegistrada })))
        | none => some (w, .done (.error (.domain { clase := .documentoYaRegistrado })))
  | .withIdentity propio =>
    if ch.dies then some (w, .done (.error .database))
    else
      let identidad := getActive w.identidades propio.id
      some (w, .done (.ok (propio.conIdentidad (identidad.map (·.id)), false)))
  | .done _ => none

/-- A call of the service. -/
inductive Registrar where
  | idle
  | register (q : RegisterRequest) (ph : RegisterPhase)
  deriving DecidableEq

/-- What moves a call. -/
inductive RegistrarAct where
  | register (q : RegisterRequest)
  | next (ch : RegisterChoice)

/-- One step of a call. -/
def registrarStep (w : RegistrationWorld) :
    Registrar → RegistrarAct → Option (RegistrationWorld × Registrar)
  | .idle, .register q => some (w, .register q .start)
  | .register q ph, .next ch => (registerStep w q ch ph).map fun r => (r.1, .register q r.2)
  | _, _ => none

/-- What happens besides: time passes, and the verification moves a passenger or adds an
identity. -/
inductive RegistrationEnv where
  | tick (d : Nat)
  | verify (id : UUID) (estado : EstadoPasajero) (intentosFallidos : Nat) (updatedAt : Instant)
  | identify (x : IdentidadDigital)

/-- One step of the environment. -/
def registrationEnvStep (w : RegistrationWorld) : RegistrationEnv → Option RegistrationWorld
  | .tick d => some { w with clock := w.clock + d }
  | .verify id estado intentosFallidos updatedAt =>
    let save (r : PasajeroRow) : PasajeroRow :=
      { r with estado, intentosFallidos, updatedAt := some updatedAt }
    some { w with pasajeros := w.pasajeros.modify id save fun _ => rfl }
  | .identify x => some { w with identidades := w.identidades ++ [x] }

/-- The registration service. -/
def registrationProgram :
    Threads.Program RegistrationWorld Registrar RegistrarAct RegistrationEnv :=
  ⟨fun _ => registrarStep, registrationEnvStep⟩

/-- A shared state and all calls. -/
abbrev RegistrationSystem := Threads.Sys RegistrationWorld Registrar

/-- The step function of the service. -/
def registrationStep :
    RegistrationSystem → Threads.Act RegistrarAct RegistrationEnv → Option RegistrationSystem :=
  registrationProgram.step

/-- No passenger is registered and no call has started. -/
def RegistrationSystem.Initial (s : RegistrationSystem) : Prop :=
  s.shared.pasajeros = Rows.empty ∧ s.locals = fun _ => .idle

end Aeropass
