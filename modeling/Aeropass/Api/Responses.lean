import Aeropass.Registration.System
import Aeropass.Verification.Counted
import Aeropass.Credentials.System

/-!
# The responses of the API

`api/schemas.py` and the error handlers of `main.py`: the bodies with their fields, what the
routers build them from, and the status, code and headers of an error. What a handler raises that is
no `DomainError` is answered with a 500 that says nothing.
-/

namespace Aeropass

/-! ## Errors -/

/-- `codigo`. -/
def ErrorClass.codigo : ErrorClass → String
  | .datosInvalidos => "DATOS_INVALIDOS"
  | .documentoVencido | .documentoVencidoParaPase => "DOCUMENTO_VENCIDO"
  | .documentoYaRegistrado => "DOCUMENTO_YA_REGISTRADO"
  | .cuentaYaRegistrada => "CUENTA_YA_REGISTRADA"
  | .pasajeroNoRegistrado => "PASAJERO_NO_REGISTRADO"
  | .estadoNoPermiteVerificacion => "ESTADO_NO_PERMITE_VERIFICACION"
  | .imagenDemasiadoGrande => "IMAGEN_DEMASIADO_GRANDE"
  | .formatoNoAdmitido => "FORMATO_NO_ADMITIDO"
  | .almacenamientoNoDisponible => "ALMACENAMIENTO_NO_DISPONIBLE"
  | .identidadNoActiva => "IDENTIDAD_NO_ACTIVA"
  | .limiteEmisionExcedido => "LIMITE_EMISION_EXCEDIDO"
  | .credencialNoEncontrada => "CREDENCIAL_NO_ENCONTRADA"

/-- `http_status`. -/
def ErrorClass.httpStatus : ErrorClass → Nat
  | .datosInvalidos | .documentoVencido => 422
  | .documentoVencidoParaPase | .identidadNoActiva => 403
  | .documentoYaRegistrado | .cuentaYaRegistrada | .estadoNoPermiteVerificacion => 409
  | .pasajeroNoRegistrado | .credencialNoEncontrada => 404
  | .imagenDemasiadoGrande => 413
  | .formatoNoAdmitido => 415
  | .almacenamientoNoDisponible => 503
  | .limiteEmisionExcedido => 429

/-- `codigo`, `http_status` and `mensaje_por_defecto` of `NoAutenticado`, which only the
authenticators raise. -/
def noAutenticadoCodigo : String := "NO_AUTENTICADO"
def noAutenticadoStatus : Nat := 401
def noAutenticadoMensaje : String := "Missing, invalid or expired token"

/-- `ErrorResponse`. -/
structure ErrorResponse where
  codigo : String
  mensaje : String
  campos : Option (List String) := none
  deriving DecidableEq, Repr

/-! ## Bodies -/

/-- `enmascarar`: all but the last four characters are stars. -/
def enmascarar (numero : String) : String :=
  let cs := numero.toList
  String.ofList (List.replicate (cs.length - 4) '*' ++ cs.drop (cs.length - 4))

/-- `PasajeroResponse`. -/
structure PasajeroResponse where
  id : UUID
  nombreCompleto : String
  tipoDocumento : TipoDocumento
  numeroDocumentoEnmascarado : String
  fechaVencimiento : Date
  estado : EstadoPasajero
  intentosFallidos : Nat
  identidadId : Option UUID
  deriving DecidableEq

/-- `PasajeroResponse.from_domain`. -/
def PasajeroResponse.fromDomain (p : Pasajero) : PasajeroResponse where
  id := p.id
  nombreCompleto := p.documento.nombreCompleto
  tipoDocumento := p.documento.tipo
  numeroDocumentoEnmascarado := enmascarar p.documento.numero
  fechaVencimiento := p.documento.fechaVencimiento
  estado := p.estado
  intentosFallidos := p.intentosFallidos
  identidadId := p.identidadId

/-- `REINTENTAR_EN_SEGUNDOS`. -/
def reintentarEnSegundos : Nat := 30

/-- `ResultadoVerificacionResponse`. -/
structure ResultadoVerificacionResponse where
  intentoId : UUID
  resultado : ResultadoIntento
  motivoFallo : Option MotivoFallo
  scoreLiveness : Option ℚ
  scoreComparacion : Option ℚ
  estadoPasajero : EstadoPasajero
  intentosRestantes : Nat
  identidadId : Option UUID
  reintentarEnSegundos : Option Nat
  deriving DecidableEq

/-- `ResultadoVerificacionResponse.from_outcome`. -/
def ResultadoVerificacionResponse.fromOutcome (o : VerificationOutcome) :
    ResultadoVerificacionResponse where
  intentoId := o.intento.id
  resultado := o.intento.resultado
  motivoFallo := o.intento.motivoFallo
  scoreLiveness := o.intento.scoreLiveness
  scoreComparacion := o.intento.scoreComparacion
  estadoPasajero := o.pasajero.estado
  intentosRestantes := o.pasajero.intentosRestantes
  identidadId := o.identidadId
  reintentarEnSegundos :=
    if o.intento.resultado = .noConcluyente then some Aeropass.reintentarEnSegundos else none

/-- `PaseResponse`. -/
structure PaseResponse where
  credencialId : UUID
  token : String
  codigoVuelo : String
  permisos : List String
  estado : EstadoCredencial
  emitidaAt : Instant
  expiraAt : Instant
  renovarEnSegundos : Int
  deriving DecidableEq

/-- `PaseResponse.from_issued`. -/
def PaseResponse.fromIssued (issued : IssuedPass) : PaseResponse where
  credencialId := issued.credencial.id
  token := issued.token
  codigoVuelo := issued.credencial.codigoVuelo
  permisos := issued.credencial.permisos
  estado := issued.credencial.estado
  emitidaAt := issued.credencial.emitidaAt
  expiraAt := issued.credencial.expiraAt
  renovarEnSegundos := issued.renovarEnSegundos

/-- `TransicionResponse`. -/
structure TransicionResponse where
  estadoAnterior : Option EstadoCredencial
  estadoSolicitado : EstadoCredencial
  aceptada : Bool
  motivo : String
  createdAt : Instant
  deriving DecidableEq

/-- A transition as `DetallePaseResponse.from_domain` shows it: without its actor. -/
def Transicion.response (t : Transicion) : TransicionResponse :=
  ⟨t.estadoAnterior, t.estadoSolicitado, t.aceptada, t.motivo, t.createdAt⟩

/-- `DetallePaseResponse`. -/
structure DetallePaseResponse where
  credencialId : UUID
  codigoVuelo : String
  estado : EstadoCredencial
  emitidaAt : Instant
  expiraAt : Instant
  historial : List TransicionResponse
  deriving DecidableEq

/-- `DetallePaseResponse.from_domain`. -/
def DetallePaseResponse.fromDomain (c : CredencialAcceso) (historial : List Transicion) :
    DetallePaseResponse where
  credencialId := c.id
  codigoVuelo := c.codigoVuelo
  estado := c.estado
  emitidaAt := c.emitidaAt
  expiraAt := c.expiraAt
  historial := historial.map Transicion.response

/-- `DispatchResponse`. -/
structure DispatchResponse where
  eventosEntregados : Nat
  eventosPendientes : Nat
  credencialesExpiradas : Nat
  deriving DecidableEq

/-! ## Responses -/

/-- The body of a response; `detail` is FastAPI's own, and `interno` that of an error nothing
handles. -/
inductive Body where
  | error (e : ErrorResponse)
  | detail (texto : String)
  | pasajero (r : PasajeroResponse)
  | resultado (r : ResultadoVerificacionResponse)
  | pase (r : PaseResponse)
  | detalle (r : DetallePaseResponse)
  | despacho (r : DispatchResponse)
  | interno
  deriving DecidableEq

/-- A response: its status, its body and the header `Retry-After`. -/
structure HttpResponse where
  status : Nat
  body : Body
  retryAfter : Option Int := none
  deriving DecidableEq

/-- `_error_response`. -/
def errorResponse (e : DomainError) : HttpResponse where
  status := e.clase.httpStatus
  body := .error ⟨e.clase.codigo, e.mensaje, e.campos⟩
  retryAfter := e.retryAfter

/-- `_error_response` of a `NoAutenticado`. -/
def noAutenticado (mensaje : String) : HttpResponse where
  status := noAutenticadoStatus
  body := .error { codigo := noAutenticadoCodigo, mensaje }

/-- `_validation_error`: the places where the request is malformed, without `body` or `path`. -/
def validationError (locs : List (List String)) : HttpResponse :=
  let campos := ((locs.map fun loc => ".".intercalate (loc.drop 1)).dedup).insertionSort (· ≤ ·)
  errorResponse { clase := .datosInvalidos, campos := some campos }

/-- The answer to a request whose handler raised: a domain error has its handler. -/
def failureResponse : Failure → HttpResponse
  | .domain e => errorResponse e
  | .uniqueViolation _ | .keyError | .indexError | .signing | .text _ | .numeric | .database
  | .media | .provider => ⟨500, .interno, none⟩

/-- What `registrar_documento` answers. -/
def registerResponse : RegisterAnswer → HttpResponse
  | .ok (p, created) => ⟨if created then 201 else 200, .pasajero (.fromDomain p), none⟩
  | .error f => failureResponse f

/-- What `verificar_selfie` answers. -/
def verifyResponse : Except Failure VerificationOutcome → HttpResponse
  | .ok o => ⟨200, .resultado (.fromOutcome o), none⟩
  | .error f => failureResponse f

/-- What `emitir_pase` answers. -/
def issueResponse : Except Failure IssuedPass → HttpResponse
  | .ok pass => ⟨201, .pase (.fromIssued pass), none⟩
  | .error f => failureResponse f

/-- What `obtener_pase` answers. -/
def detailResponse : Except Failure (CredencialAcceso × List Transicion) → HttpResponse
  | .ok (c, h) => ⟨200, .detalle (.fromDomain c h), none⟩
  | .error f => failureResponse f

/-! ## The mask -/

/-- Two numbers of one length with the same last four characters. -/
structure SameEnd (a b : String) : Prop where
  length : a.toList.length = b.toList.length
  last : a.toList.drop (a.toList.length - 4) = b.toList.drop (b.toList.length - 4)

/-- The mask tells the length and the last four characters only. -/
theorem enmascarar_congr {a b : String} (h : SameEnd a b) : enmascarar a = enmascarar b := by
  simp only [enmascarar]
  rw [h.last, h.length]

end Aeropass
