import Aeropass.Api.Responses
import Aeropass.Lib.Hosts
import Aeropass.System.World

/-!
# The API over the backend

The routers as handlers that interleave: a handler receives a request, refuses it or reads the
caller's passenger (`get_mine`), makes the calls of the services that the route needs, and answers.
FastAPI hands over what it has decoded, whom the authenticator recognises and where it finds the
request malformed. Calls that no route makes (`consume`, `revoke_by_id`, the Redis fast path) come
from extensions, which may call any service with any arguments.
-/

namespace Aeropass

open Threads

/-! ## Requests -/

/-- An uploaded file: its contents and its declared type. -/
structure UploadFile where
  data : List UInt8
  contentType : Option String

/-- The routes of passengers with their arguments. -/
inductive Route where
  | registrarDocumento (nombreCompleto tipoDocumento numeroDocumento : Option String)
      (fechaVencimiento : Option Date) (fotoDocumento : Option UploadFile)
  | obtenerMiPasajero
  | verificarSelfie (selfie : Option UploadFile)
  | emitirPase (codigoVuelo : String)
  | obtenerPase (credencialId : UUID)

/-- A body that FastAPI cannot decode: a JSON document with a syntax error at a position, a form of
which it tells what is wrong, or a body that raises anything else, as one that is no text of its
encoding or that nests too deep. -/
inductive Undecodable where
  | json (pos : Nat)
  | form (texto : String)
  | unreadable

/-- A request of a passenger: the account that `authenticate` recognises, the header
`content-length` where it is a number, what is wrong with the body, and the places of the arguments
that are no values of their types. -/
structure HttpRequest where
  route : Route
  account : Option String
  contentLength : Option Nat := none
  undecodable : Option Undecodable := none
  errors : List (List String) := []

/-- `MAX_BODY_BYTES`. -/
def maxBodyBytes : Nat := 4500000

/-- The routes that depend on `reject_oversized_body`. -/
def Route.multipart : Route → Bool
  | .registrarDocumento .. | .verificarSelfie _ => true
  | .obtenerMiPasajero | .emitirPase _ | .obtenerPase _ => false

/-- The places of a request that FastAPI parses. -/
def Route.parsed : Route → List (List String)
  | .registrarDocumento .. =>
    [["body", "nombre_completo"], ["body", "tipo_documento"], ["body", "numero_documento"],
      ["body", "fecha_vencimiento"], ["body", "foto_documento"]]
  | .obtenerMiPasajero => []
  | .verificarSelfie _ => [["body", "selfie"]]
  | .emitirPase _ => [["body"], ["body", "codigo_vuelo"]]
  | .obtenerPase _ => [["path", "credencial_id"]]

/-- `EmitirPaseRequest`: the flight code has at most 16 characters. -/
def Route.errors : Route → List (List String)
  | .emitirPase codigoVuelo => if 16 < codigoVuelo.length then [["body", "codigo_vuelo"]] else []
  | _ => []

/-- `get_mine` found no passenger: `obtener_pase` answers as if the credential did not exist. -/
def Route.sinPasajero : Route → ErrorClass
  | .obtenerPase _ => .credencialNoEncontrada
  | _ => .pasajeroNoRegistrado

/-- `read_upload`: one byte more than an image may have is enough to see that it is too large. -/
def readUpload : Option UploadFile → Option (List UInt8) × Option String
  | none => (none, none)
  | some upload =>
    let data := upload.data.take (maxImageBytes + 1)
    (if data.isEmpty then none else some data, upload.contentType)

/-- The text of FastAPI for a body that it cannot read. -/
def errorParsingBody : String := "There was an error parsing the body"

/-- How FastAPI answers a body that it cannot decode; the other routes have none. -/
def HttpRequest.malformed? (q : HttpRequest) : Option HttpResponse :=
  match q.route, q.undecodable with
  | .emitirPase _, some (.json pos) => some (validationError [["body", toString pos]])
  | .registrarDocumento .., some (.form texto) | .verificarSelfie _, some (.form texto) =>
    some ⟨400, .detail texto, none⟩
  | .emitirPase _, some .unreadable | .registrarDocumento .., some .unreadable
  | .verificarSelfie _, some .unreadable => some ⟨400, .detail errorParsingBody, none⟩
  | _, _ => none

/-- What happens before a handler runs: the body is decoded, then the dependencies
`reject_oversized_body` and `get_current_user` run, then the arguments are checked. -/
def HttpRequest.checked (q : HttpRequest) : Except HttpResponse String :=
  match q.malformed? with
  | some r => .error r
  | none =>
    if q.route.multipart && q.contentLength.any (maxBodyBytes < ·) then
      .error (errorResponse { clase := .imagenDemasiadoGrande })
    else match q.account with
      | none => .error (noAutenticado noAutenticadoMensaje)
      | some user =>
        let locs := q.errors.filter q.route.parsed.contains ++ q.route.errors
        if locs.isEmpty then .ok user else .error (validationError locs)

/-! ## Handlers -/

/-- The services that a handler calls, at most once each. -/
inductive Slot where
  | registration | verification | credentials
  deriving DecidableEq

/-- The calls of the handlers among the calls of the backend. -/
def slotIndex : Nat × Slot ≃ Nat where
  toFun p := match p.2 with
    | .registration => 3 * p.1
    | .verification => 3 * p.1 + 1
    | .credentials => 3 * p.1 + 2
  invFun j := (j / 3, match j % 3 with
    | 0 => .registration
    | 1 => .verification
    | _ => .credentials)
  left_inv := by
    rintro ⟨i, k⟩
    cases k with
    | registration =>
      have h : 3 * i % 3 = 0 := by omega
      simp only [h, Nat.mul_div_cancel_left i (by omega : 0 < 3)]
    | verification =>
      have h : (3 * i + 1) % 3 = 1 := by omega
      have h' : (3 * i + 1) / 3 = i := by omega
      simp only [h, h']
    | credentials =>
      have h : (3 * i + 2) % 3 = 2 := by omega
      have h' : (3 * i + 2) / 3 = i := by omega
      simp only [h, h']
  right_inv := by
    intro j
    rcases (by omega : j % 3 = 0 ∨ j % 3 = 1 ∨ j % 3 = 2) with h | h | h
    · simp only [h]
      omega
    · simp only [h]
      omega
    · simp only [h]
      omega

/-- Where a handler is. -/
inductive HandlerPhase where
  | idle
  | received (q : HttpRequest)
  | mine (q : HttpRequest) (user : String)
  | withIdentity (q : HttpRequest) (user : String) (pasajero : Pasajero)
  | serving (q : HttpRequest) (user : String)
  | responded (q : HttpRequest) (r : HttpResponse)
  | posted (signature : Option Bool)
  | dispatching
  | sweeping (report : DispatchReport)
  | dispatched (r : HttpResponse)
  | extension

/-- A handler with its calls. -/
structure Handler where
  phase : HandlerPhase
  calls : Slot → Service

/-- What moves a handler: a request of a passenger or of the schedule, with whether its signature
is valid, the start of an extension, a step of its own, or a step of a call of a service. -/
inductive HandlerAct where
  | receive (q : HttpRequest)
  | post (signature : Option Bool)
  | extend
  | next (dies : Bool)
  | service (k : Slot) (a : ServiceAct)

/-- A call that has not started. -/
def Slot.idle : Slot → Service
  | .registration => .registration .idle
  | .verification => .verification .idle
  | .credentials => .credentials .idle

/-- A handler without request. -/
def Handler.new : Handler := ⟨.idle, Slot.idle⟩

/-- The handler goes on to a phase. -/
def Handler.to (h : Handler) (phase : HandlerPhase) : Handler := { h with phase }

/-- A step of the handler's call of a service, then it goes on to a phase. -/
def Handler.call (cfg : BackendSettings) (i : Nat) (w : BackendWorld) (h : Handler) (k : Slot)
    (a : ServiceAct) (phase : HandlerPhase) : Option (BackendWorld × Handler) :=
  (serviceStep cfg (slotIndex (i, k)) w (h.calls k) a).map fun r =>
    (r.1, ⟨phase, Function.update h.calls k r.2⟩)

/-- The service that a route calls. -/
def Route.slot : Route → Slot
  | .registrarDocumento .. | .obtenerMiPasajero => .registration
  | .verificarSelfie _ => .verification
  | .emitirPase _ | .obtenerPase _ => .credentials

/-- What the router makes of what the service returned or raised. -/
def Service.response? : Service → Option HttpResponse
  | .registration (.register _ (.done r)) => some (registerResponse r)
  | .verification (.verify _ _ (.done r)) => some (verifyResponse r)
  | .credentials (.issue _ _ (.done r)) => some (issueResponse r)
  | .credentials (.detail _ _ (.done _ r)) => some (detailResponse r)
  | _ => none

/-- The handler of a request that nothing refuses. -/
def Handler.start (cfg : BackendSettings) (i : Nat) (w : BackendWorld) (h : Handler)
    (q : HttpRequest) (user : String) : Option (BackendWorld × Handler) :=
  match q.route with
  | .registrarDocumento nombreCompleto tipoDocumento numeroDocumento fechaVencimiento foto =>
    let (foto, fotoContentType) := readUpload foto
    let request : RegisterRequest :=
      { clerkUserId := user, nombreCompleto, tipoDocumento, numeroDocumento, fechaVencimiento
        foto, fotoContentType }
    h.call cfg i w .registration (.registration (.register request)) (.serving q user)
  | .emitirPase codigoVuelo =>
    h.call cfg i w .credentials (.credentials (.invoke (.issue user codigoVuelo)))
      (.serving q user)
  | .obtenerMiPasajero | .verificarSelfie _ | .obtenerPase _ => some (w, h.to (.mine q user))

/-- The handler once it has read the caller's passenger. -/
def Handler.proceed (cfg : BackendSettings) (i : Nat) (w : BackendWorld) (h : Handler)
    (q : HttpRequest) (user : String) (pasajero : Pasajero) : Option (BackendWorld × Handler) :=
  match q.route with
  | .obtenerMiPasajero =>
    some (w, h.to (.responded q ⟨200, .pasajero (.fromDomain pasajero), none⟩))
  | .verificarSelfie selfie =>
    match readUpload selfie with
    | (none, _) =>
      let e : DomainError := { clase := .datosInvalidos, campos := some ["selfie"] }
      some (w, h.to (.responded q (errorResponse e)))
    | (some data, contentType) =>
      h.call cfg i w .verification
        (.verification (.verify pasajero ⟨data, contentType.getD ""⟩)) (.serving q user)
  | .obtenerPase credencialId =>
    h.call cfg i w .credentials (.credentials (.invoke (.detail credencialId pasajero.id)))
      (.serving q user)
  | .registrarDocumento .. | .emitirPase _ => none

/-- One step of handler `i`. -/
def handlerStep (cfg : BackendSettings) (i : Nat) (w : BackendWorld) (h : Handler) :
    HandlerAct → Option (BackendWorld × Handler)
  | .receive q =>
    match h.phase with
    | .idle => some (w, h.to (.received q))
    | _ => none
  | .post signature =>
    match h.phase with
    | .idle => some (w, h.to (.posted signature))
    | _ => none
  | .extend =>
    match h.phase with
    | .idle => some (w, h.to .extension)
    | _ => none
  | .service k a =>
    match h.phase with
    | .serving q _ => if k = q.route.slot then h.call cfg i w k a h.phase else none
    | .dispatching => if k = .verification then h.call cfg i w k a h.phase else none
    | .sweeping _ => if k = .credentials then h.call cfg i w k a h.phase else none
    | .extension => h.call cfg i w k a h.phase
    | _ => none
  | .next dies =>
    match h.phase with
    | .received q =>
      match q.checked with
      | .error r => some (w, h.to (.responded q r))
      | .ok user => h.start cfg i w q user
    | .mine q user =>
      if dies then some (w, h.to (.responded q (failureResponse .database)))
      else match textError? [user], w.registration.pasajeros.getByClerkUser user with
        | some f, _ => some (w, h.to (.responded q (failureResponse f)))
        | none, none =>
          some (w, h.to (.responded q (errorResponse { clase := q.route.sinPasajero })))
        | none, some p => some (w, h.to (.withIdentity q user { p with }))
    | .withIdentity q user pasajero =>
      if dies then some (w, h.to (.responded q (failureResponse .database)))
      else
        let identidad := getActive w.identidades.rows pasajero.id
        h.proceed cfg i w q user (pasajero.conIdentidad (identidad.map (·.id)))
    | .serving q _ =>
      (h.calls q.route.slot).response?.map fun r => (w, h.to (.responded q r))
    | .posted none => some (w, h.to (.dispatched (noAutenticado "Missing QStash signature")))
    | .posted (some false) =>
      some (w, h.to (.dispatched (noAutenticado "Invalid QStash signature")))
    | .posted (some true) =>
      h.call cfg i w .verification (.verification (.dispatcher (.dispatchDue 100))) .dispatching
    | .dispatching =>
      match h.calls .verification with
      | .verification (.dispatcher (.reported report)) =>
        h.call cfg i w .credentials (.credentials (.invoke (.sweep 500))) (.sweeping report)
      | .verification (.dispatcher (.dispatchDue _ .failed)) =>
        some (w, h.to (.dispatched (failureResponse .database)))
      | _ => none
    | .sweeping report =>
      match h.calls .credentials with
      | .credentials (.sweep _ (.done (.ok n))) =>
        some (w, h.to (.dispatched
          ⟨200, .despacho ⟨report.entregados, report.pendientes, n⟩, none⟩))
      | .credentials (.sweep _ (.done (.error f))) =>
        some (w, h.to (.dispatched (failureResponse f)))
      | _ => none
    | .idle | .responded .. | .dispatched _ | .extension => none

/-- The API. -/
def apiProgram (cfg : BackendSettings) : Program BackendWorld Handler HandlerAct Nat :=
  ⟨handlerStep cfg, backendEnvStep⟩

/-- The backend and all handlers. -/
abbrev ApiSystem := Sys BackendWorld Handler

/-- The step function of the API. -/
def apiStep (cfg : BackendSettings) : ApiSystem → Act HandlerAct Nat → Option ApiSystem :=
  (apiProgram cfg).step

/-- The calls of the services that the handlers make. -/
def ApiSystem.backend (s : ApiSystem) : BackendSystem := s.hosted Handler.calls slotIndex

/-- The backend is empty and no handler has a request. -/
structure ApiSystem.Initial (s : ApiSystem) : Prop where
  backend : s.backend.Initial
  handlers : ∀ i, s.locals i = .new

end Aeropass
