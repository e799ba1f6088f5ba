import Aeropass.Domain.Credential
import Aeropass.Domain.Flight

/-!
# The credential builder

`CredencialAccesoBuilder` (`domain/credential/builder.py`) with the claims it signs. The signer
itself, PyJWT with an Ed25519 key, is a parameter: `sign` is what `CredentialSigner.sign` returns
for the claims, `none` where it raises.
-/

namespace Aeropass

/-- The claims of a QR token. -/
structure Claims where
  jti : String
  sub : String
  flt : String
  perms : List String
  iat : Int
  exp : Int
  deriving DecidableEq, Repr

/-- `CredentialSigner`. -/
structure CredentialSigner where
  kid : String
  sign : Claims → Option String

/-- `CredentialSigner.signature_of`. -/
def CredentialSigner.signatureOf (token : String) : Except Failure String :=
  match PyStr.afterLastDot token.toList with
  | some cs => .ok (String.ofList cs)
  | none => .error .indexError

/-- The claims of the token of a credential. -/
def CredencialAccesoRow.claims (r : CredencialAccesoRow) : Claims where
  jti := r.id.str
  sub := r.pasajeroId.str
  flt := r.codigoVuelo
  perms := r.permisos
  iat := r.emitidaAt.timestamp
  exp := r.expiraAt.timestamp

/-- The token carries the claims of a credential, which keeps its signature and the id of the
key. -/
structure CredentialSigner.Signed (signer : CredentialSigner) (r : CredencialAccesoRow)
    (token : String) : Prop where
  sign : signer.sign r.claims = some token
  firma : signatureOf token = .ok r.firma
  kid : signer.kid = r.kid

def ttlMinSeconds : Int := 30
def ttlMaxSeconds : Int := 60
def permisosPorDefecto : List String := ["embarque"]

/-- `CredencialAccesoBuilder`: the last value of each step. -/
structure CredencialAccesoBuilder where
  pasajeroId : Option UUID := none
  identidadId : Option UUID := none
  codigoVuelo : Option String := none
  permisos : List String := permisosPorDefecto
  ttl : Option Int := none
  signer : Option CredentialSigner := none
  emitidaAt : Option Instant := none

namespace CredencialAccesoBuilder

def paraPasajero (b : CredencialAccesoBuilder) (id : UUID) : CredencialAccesoBuilder :=
  { b with pasajeroId := some id }

def conIdentidad (b : CredencialAccesoBuilder) (id : UUID) : CredencialAccesoBuilder :=
  { b with identidadId := some id }

def paraVuelo (b : CredencialAccesoBuilder) (codigo : String) : CredencialAccesoBuilder :=
  { b with codigoVuelo := some codigo }

def conPermisos (b : CredencialAccesoBuilder) (permisos : List String) : CredencialAccesoBuilder :=
  { b with permisos := permisos }

def conTtl (b : CredencialAccesoBuilder) (ttl : Int) : CredencialAccesoBuilder :=
  { b with ttl := some ttl }

def firmadoCon (b : CredencialAccesoBuilder) (signer : CredentialSigner) :
    CredencialAccesoBuilder :=
  { b with signer := some signer }

def emitidoEn (b : CredencialAccesoBuilder) (instante : Instant) : CredencialAccesoBuilder :=
  { b with emitidaAt := some instante }

/-- The names of the values that are missing, in the order of the source. -/
def faltantes (b : CredencialAccesoBuilder) : List String :=
  [("pasajero", b.pasajeroId.isNone), ("identidad", b.identidadId.isNone),
    ("codigo_vuelo", b.codigoVuelo.isNone), ("ttl", b.ttl.isNone), ("firma", b.signer.isNone),
    ("emitida_at", b.emitidaAt.isNone)].filterMap fun p => if p.2 then some p.1 else none

/-- `build`, with the `jti` that `new_id()` draws, for an expiry that is an instant of a
`datetime`. -/
def build (b : CredencialAccesoBuilder) (jti : UUID) :
    Except Failure (CredencialAcceso × String) := do
  match b.pasajeroId, b.identidadId, b.codigoVuelo, b.ttl, b.signer, b.emitidaAt with
  | some pasajeroId, some identidadId, some codigo, some ttl, some signer, some emitidaAt =>
    if ¬ (ttlMinSeconds ≤ ttl ∧ ttl ≤ ttlMaxSeconds) then
      throw (.domain { clase := .datosInvalidos
                       mensaje := "QR validity must be between 30 and 60 seconds" })
    if b.permisos.isEmpty || !b.permisos.all fun p => !(PyStr.strip p.toList).isEmpty then
      throw (.domain { clase := .datosInvalidos
                       mensaje := "The credential requires permissions"
                       campos := some ["permisos"] })
    let codigoVuelo ← (normalizarCodigoVuelo (some codigo)).mapError Failure.domain
    let expiraAt := emitidaAt + seconds ttl
    let some token := signer.sign
      { jti := jti.str, sub := pasajeroId.str, flt := codigoVuelo, perms := b.permisos
        iat := emitidaAt.timestamp, exp := expiraAt.timestamp } | throw .signing
    let firma ← CredentialSigner.signatureOf token
    return (CredencialAcceso.emitir jti pasajeroId identidadId codigoVuelo b.permisos firma
      signer.kid emitidaAt expiraAt, token)
  | _, _, _, _, _, _ =>
    throw (.domain { clase := .datosInvalidos, mensaje := "Credencial incompleta"
                     campos := some b.faltantes })

variable {b : CredencialAccesoBuilder} {jti : UUID}

/-- What `build` returns is a new credential of the values it was given, with a validity between
the bounds, permissions, and the flight code normalised once more. -/
theorem build_ok {c : CredencialAcceso} {token : String} (h : b.build jti = .ok (c, token)) :
    ∃ pasajeroId identidadId codigo ttl kid emitidaAt codigoVuelo firma,
      b.pasajeroId = some pasajeroId ∧ b.codigoVuelo = some codigo ∧ b.ttl = some ttl ∧
      b.emitidaAt = some emitidaAt ∧ (ttlMinSeconds ≤ ttl ∧ ttl ≤ ttlMaxSeconds) ∧
      b.permisos.isEmpty = false ∧ normalizarCodigoVuelo (some codigo) = .ok codigoVuelo ∧
      c = .emitir jti pasajeroId identidadId codigoVuelo b.permisos firma kid emitidaAt
        (emitidaAt + seconds ttl) := by
  unfold build at h
  split at h
  case h_2 => cases h
  next pasajeroId identidadId codigo ttl signer emitidaAt hp _ hc ht _ he =>
  simp only [bind, Except.bind, pure, Except.pure, throw, throwThe, MonadExceptOf.throw] at h
  split at h
  · cases h
  next httl =>
  split at h
  · cases h
  next hperm =>
  split at h
  · cases h
  next codigoVuelo hn =>
  split at h
  case h_2 => cases h
  split at h
  · cases h
  next firma _ =>
  cases h
  refine ⟨pasajeroId, identidadId, codigo, ttl, signer.kid, emitidaAt, codigoVuelo, firma, hp, hc,
    ht, he, Decidable.not_not.1 httl, ?_, ?_, rfl⟩
  · simp only [Bool.or_eq_true, not_or, Bool.not_eq_true] at hperm
    exact hperm.1
  · cases hn' : normalizarCodigoVuelo (some codigo) with
    | error e => rw [hn'] at hn; cases hn
    | ok v => rw [hn'] at hn; cases hn; rfl

/-- The token that `build` returns is the one of its credential. -/
theorem build_signed {c : CredencialAcceso} {token : String} (h : b.build jti = .ok (c, token)) :
    ∃ signer ∈ b.signer, signer.Signed c.toCredencialAccesoRow token := by
  unfold build at h
  split at h
  case h_2 => cases h
  next signer _ _ _ _ _ hsigner _ =>
  simp only [bind, Except.bind, pure, Except.pure, throw, throwThe, MonadExceptOf.throw] at h
  split at h
  · cases h
  split at h
  · cases h
  split at h
  · cases h
  split at h
  case h_2 => cases h
  next token' hsign =>
  split at h
  · cases h
  next firma hfirma =>
  cases h
  exact ⟨signer, hsigner, hsign, hfirma, rfl⟩

/-- A build that fails has not reached the database. -/
theorem build_error {e : Failure} (h : b.build jti = .error e) (k : String) :
    e ≠ .uniqueViolation k := by
  rintro rfl
  unfold build at h
  split at h
  case h_2 => cases h
  next codigo _ _ _ _ _ _ _ _ _ =>
  simp only [bind, Except.bind, pure, Except.pure, throw, throwThe, MonadExceptOf.throw] at h
  split at h
  · cases h
  split at h
  · cases h
  split at h
  · next hn =>
    cases h
    cases hn' : normalizarCodigoVuelo (some codigo) with
    | error e => rw [hn'] at hn; cases hn
    | ok v => rw [hn'] at hn; cases hn
  split at h
  case h_2 => cases h
  split at h
  · next hs => cases h; unfold CredentialSigner.signatureOf at hs; split at hs <;> cases hs
  cases h

end CredencialAccesoBuilder

end Aeropass
