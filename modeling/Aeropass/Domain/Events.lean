import Aeropass.Domain.Identity
import Aeropass.Lib.IsoFormat
import Aeropass.Lib.PyDict
import Aeropass.Lib.PyStr

/-!
# Domain events

`domain/events.py`: the event `credencial.emitida`, its outbox entry and the backoff of failed
deliveries.
-/

namespace Aeropass

/-- `MAX_BACKOFF_SECONDS`. -/
def maxBackoffSeconds : Nat := 180

/-- `DomainEvent`. -/
structure DomainEvent where
  id : UUID
  tipo : String
  version : Int
  ocurridoAt : Instant
  datos : Json.Dict
  deriving DecidableEq

/-- `ocurrido_at.isoformat().replace("+00:00", "Z")`. -/
def DomainEvent.ocurridoText (e : DomainEvent) : String :=
  String.ofList (PyStr.replace IsoFormat.utcOffset ['Z'] (IsoFormat.isoformat e.ocurridoAt))

/-- `to_payload`. -/
def DomainEvent.toPayload (e : DomainEvent) : Json.Dict :=
  [("id", .str e.id.str), ("tipo", .str e.tipo), ("version", .int e.version),
    ("ocurrido_at", .str e.ocurridoText), ("datos", .object e.datos)]

namespace CredencialEmitidaV1

def tipo : String := "credencial.emitida"
def version : Int := 1

/-- `from_identity`. -/
def fromIdentity (identidad : IdentidadDigital) (id : UUID) (ahora : Instant) : DomainEvent where
  id := id
  tipo := tipo
  version := version
  ocurridoAt := ahora
  datos := [("tipo_credencial", .str "IDENTIDAD_DIGITAL"),
    ("pasajero_id", .str identidad.pasajeroId.str), ("identidad_id", .str identidad.id.str),
    ("intento_id", .str identidad.intentoOrigenId.str)]

end CredencialEmitidaV1

/-- `backoff_seconds`. -/
def backoffSeconds (intentos : Nat) : Nat := min (Nat.pow 2 intentos) maxBackoffSeconds

/-- `OutboxEntry`. -/
structure OutboxEntry where
  event : DomainEvent
  estado : EstadoEvento
  intentos : Nat
  proximoIntentoAt : Instant
  ultimoError : Option String := none
  entregadoAt : Option Instant := none
  deriving DecidableEq

namespace OutboxEntry

/-- `OutboxEntry.pendiente`. -/
def pendiente (event : DomainEvent) : OutboxEntry :=
  { event, estado := .pendiente, intentos := 0, proximoIntentoAt := event.ocurridoAt }

/-- `OutboxEntry.entregado`. -/
def entregado (e : OutboxEntry) (ahora : Instant) : OutboxEntry :=
  { e with estado := .entregado, entregadoAt := some ahora, ultimoError := none }

/-- `OutboxEntry.fallido`. -/
def fallido (e : OutboxEntry) (error : String) (ahora : Instant) : OutboxEntry :=
  let intentos := e.intentos + 1
  { e with
    intentos
    ultimoError := some (String.ofList (error.toList.take 500))
    proximoIntentoAt := ahora + seconds (backoffSeconds intentos) }

/-- However often a delivery failed, the next attempt is at most three minutes away. -/
theorem fallido_proximoIntentoAt (e : OutboxEntry) (error : String) (ahora : Instant) :
    (e.fallido error ahora).proximoIntentoAt ≤ ahora + seconds maxBackoffSeconds := by
  have h : backoffSeconds (e.intentos + 1) ≤ maxBackoffSeconds := Nat.min_le_right ..
  simp only [fallido, seconds, Instant]
  omega

end OutboxEntry

end Aeropass
