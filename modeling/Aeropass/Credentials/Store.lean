import Aeropass.Domain.Builder
import Aeropass.Lib.Rows
import Mathlib.Data.List.Sort

/-!
# The stores of the credential services

The tables `credenciales_acceso` and `transiciones_credencial` with the operations of
`SqlCredentialRepository`, and the Redis keys `qr:{jti}` with those of `UpstashTokenStore`. A unit
of work collects the repository calls it made (`Write`); they become visible to others together,
at its commit (`applyAll`).
-/

namespace Aeropass

/-! ## Postgres -/

/-- `TransicionCredencialRow`. The table is the list of its rows in the order of their ids. -/
structure TransicionCredencialRow extends Transicion where
  credencialId : UUID
  deriving DecidableEq, Repr

/-- `credenciales_acceso` and `transiciones_credencial`. -/
structure CredentialTables where
  credenciales : Rows CredencialAccesoRow.id
  transiciones : List TransicionCredencialRow

/-- A call of `SqlCredentialRepository.add` or `save`, with the aggregate it was given. -/
inductive Write where
  | add (c : CredencialAcceso)
  | save (c : CredencialAcceso)

namespace CredentialTables

/-- The tables as the migration creates them. -/
def empty : CredentialTables := ⟨Rows.empty, []⟩

/-- `_flush_transitions`: the buffered transitions, appended to the history. -/
def flushTransitions (t : CredentialTables) (c : CredencialAcceso) : CredentialTables :=
  { t with
    transiciones := t.transiciones ++ c.pendingTransitions.map fun p =>
      { p with credencialId := c.id } }

/-- What `save` assigns to the row. -/
def saveRow (c : CredencialAcceso) (r : CredencialAccesoRow) : CredencialAccesoRow :=
  { r with estado := c.estado, updatedAt := c.updatedAt }

/-- The effect of a repository call on the tables. `add` fails before when `insertError` names a
constraint. -/
def write (t : CredentialTables) : Write → CredentialTables
  | .add c =>
    let credenciales := (t.credenciales.insert? c.toCredencialAccesoRow).getD t.credenciales
    flushTransitions { t with credenciales } c
  | .save c =>
    let credenciales := t.credenciales.modify c.id (saveRow c) fun _ => rfl
    flushTransitions { t with credenciales } c

/-- The effect of a unit of work. -/
def applyAll (t : CredentialTables) (ws : List Write) : CredentialTables := ws.foldl write t

/-- The constraint of `credenciales_acceso` that an insert violates. -/
def insertError (t : CredentialTables) (c : CredencialAcceso) : Option String :=
  if (t.credenciales.find? c.id).isSome then some "credenciales_acceso_pkey"
  else if ¬ (seconds 30 ≤ c.expiraAt - c.emitidaAt ∧ c.expiraAt - c.emitidaAt ≤ seconds 60) then
    some "ck_credenciales_acceso_vigencia"
  else if c.permisos.isEmpty then some "ck_credenciales_acceso_permisos_no_vacios"
  else if !matchCodigoVuelo c.codigoVuelo.toList then some "ck_credenciales_acceso_codigo_vuelo"
  else if c.estado.live && t.credenciales.rows.any fun r =>
      r.estado.live && r.pasajeroId = c.pasajeroId && r.codigoVuelo = c.codigoVuelo then
    some "uq_credenciales_acceso_una_viva"
  else none

/-- `get_for_update`. -/
def getForUpdate (t : CredentialTables) (id : UUID) : Option CredencialAcceso :=
  (t.credenciales.find? id).map fun r => { r with }

/-- `get_live_for_update`. -/
def getLiveForUpdate (t : CredentialTables) (pasajeroId : UUID) (codigoVuelo : String) :
    Option CredencialAcceso :=
  (t.credenciales.rows.find? fun r =>
    r.pasajeroId = pasajeroId && r.codigoVuelo = codigoVuelo && r.estado.live).map
    fun r => { r with }

/-- `expired_live_for_update`: past-due live credentials in the order of their expiry, without
those another transaction holds (`SKIP LOCKED`). -/
def expiredLiveForUpdate (t : CredentialTables) (now : Instant) (limit : Nat)
    (skip : UUID → Bool) : List CredencialAcceso :=
  (((t.credenciales.rows.filter fun r =>
    r.estado.live && r.expiraAt ≤ now && !skip r.id).insertionSort
      fun r r' => r.expiraAt ≤ r'.expiraAt).take limit).map fun r => { r with }

/-- `history`. -/
def history (t : CredentialTables) (id : UUID) : List Transicion :=
  (t.transiciones.filter fun r => r.credencialId = id).map fun r => r.toTransicion

end CredentialTables

/-! ## Redis -/

/-- The values of a key `qr:{jti}`. -/
inductive TokenState where
  | activa | consumida
  deriving DecidableEq, Repr

/-- A key's value and the instant it expires at. -/
structure TokenEntry where
  valor : TokenState
  expira : Instant
  deriving DecidableEq, Repr

/-- The keys `qr:{jti}`; one whose instant has come is as good as absent. -/
abbrev Redis := UUID → Option TokenEntry

/-- How a call to Redis ends: it answers, it fails without having reached Redis, or the answer is
lost after the command ran. In the last two the adapter raises `TokenStoreUnavailable`. -/
inductive RedisFault where
  | none | lost | answerLost
  deriving DecidableEq, Repr

namespace Redis

/-- `GET`. -/
def get (r : Redis) (now : Instant) (jti : UUID) : Option TokenState :=
  match r jti with
  | some e => if now < e.expira then some e.valor else none
  | none => none

/-- `UpstashTokenStore.register`: `SET NX EX`. It returns when the key was not there, and raises
`TokenStoreUnavailable` (`false`) otherwise. -/
def register (r : Redis) (now : Instant) (fault : RedisFault) (jti : UUID) (ttl : Int) :
    Bool × Redis :=
  let free := (r.get now jti).isNone
  let r' := if free then Function.update r jti (some ⟨.activa, now + seconds ttl⟩) else r
  match fault with
  | .none => (free, r')
  | .lost => (false, r)
  | .answerLost => (false, r')

/-- `UpstashTokenStore.revoke`: `DEL`. -/
def revoke (r : Redis) (fault : RedisFault) (jti : UUID) : Bool × Redis :=
  match fault with
  | .none => (true, Function.update r jti none)
  | .lost => (false, r)
  | .answerLost => (false, Function.update r jti none)

/-- `UpstashTokenStore.consume`: the script that turns ACTIVA into CONSUMIDA and keeps the TTL. The
answer says whether it did. -/
def consume (r : Redis) (now : Instant) (fault : RedisFault) (jti : UUID) :
    Option Bool × Redis :=
  let active : Bool := r.get now jti = some .activa
  let r' := if active then
      Function.update r jti ((r jti).map fun e => { e with valor := .consumida })
    else r
  match fault with
  | .none => (some active, r')
  | .lost => (none, r)
  | .answerLost => (none, r')

/-- `UpstashTokenStore.is_active` behind `RedisVerificationProxy.may_be_usable`. -/
def mayBeUsable (r : Redis) (now : Instant) (fault : RedisFault) (jti : UUID) : Option Bool :=
  if fault = .none then some (r.get now jti = some .activa) else none

end Redis

end Aeropass
