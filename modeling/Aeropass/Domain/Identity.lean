import Aeropass.Domain.Basic

/-!
# Digital identities

`IdentidadDigital` (`domain/identity.py`).
-/

namespace Aeropass

/-- `IdentidadDigital`. -/
structure IdentidadDigital where
  id : UUID
  pasajeroId : UUID
  intentoOrigenId : UUID
  estado : EstadoIdentidad
  createdAt : Instant
  revocadaAt : Option Instant := none
  deriving DecidableEq, Repr

/-- `IdentidadDigital.crear`. -/
def IdentidadDigital.crear (id pasajeroId intentoOrigenId : UUID) (ahora : Instant) :
    IdentidadDigital :=
  { id, pasajeroId, intentoOrigenId, estado := .activa, createdAt := ahora }

/-- `activa`. -/
def IdentidadDigital.activa (i : IdentidadDigital) : Bool := i.estado = .activa

/-- `get_active` of the identity repository. -/
def getActive (identidades : List IdentidadDigital) (pasajeroId : UUID) :
    Option IdentidadDigital :=
  identidades.find? fun i => i.pasajeroId = pasajeroId && i.activa

end Aeropass
