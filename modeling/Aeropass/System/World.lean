import Aeropass.Credentials.Sources
import Aeropass.Registration.Inv
import Aeropass.Verification.Writes

/-!
# The whole backend

One database, one Redis and one clock under the registration, the verification with its outbox
dispatchers, and the credential services. A call of a service steps on its view of the shared state
and what it changes is put back, so the other services see it; the environment only lets time pass.
What the models of the single services left to their environments is here the steps of the others.
-/

namespace Aeropass

open CredentialTables Runs Threads

/-- What all services share. -/
structure BackendWorld where
  pasajeros : Rows PasajeroRow.id
  intentos : Rows IntentoVerificacionRow.id
  identidades : Rows IdentidadDigital.id
  out : OutboxWorld
  tables : CredentialTables
  redis : Redis
  locks : Lock → Option Nat
  issuer : UUID → Option Nat

namespace BackendWorld

/-- What the registration sees. -/
def registration (w : BackendWorld) : RegistrationWorld :=
  ⟨w.pasajeros, w.identidades.rows, w.out.clock⟩

/-- What the verification sees. -/
def verification (w : BackendWorld) : VerificationWorld :=
  ⟨w.pasajeros, w.intentos, w.identidades, w.out⟩

/-- What the credential services see. -/
def credentials (w : BackendWorld) : World :=
  ⟨w.pasajeros, w.identidades.rows, w.tables, w.redis, w.out.clock, w.locks, w.issuer⟩

/-- The registration writes passengers only. -/
def withRegistration (w : BackendWorld) (v : RegistrationWorld) : BackendWorld :=
  { w with pasajeros := v.pasajeros }

/-- The verification writes its tables and the outbox. -/
def withVerification (w : BackendWorld) (v : VerificationWorld) : BackendWorld :=
  { w with
    pasajeros := v.pasajeros
    intentos := v.intentos
    identidades := v.identidades
    out := v.out }

/-- The credential services write their tables, Redis, the row locks and the ids drawn. -/
def withCredentials (w : BackendWorld) (v : World) : BackendWorld :=
  { w with
    tables := v.tables
    redis := v.redis
    locks := v.locks
    issuer := v.issuer }

end BackendWorld

/-- A call of one of the services. -/
inductive Service where
  | registration (l : Registrar)
  | verification (l : Verifier)
  | credentials (l : Call)

/-- What moves a call. -/
inductive ServiceAct where
  | registration (a : RegistrarAct)
  | verification (a : VerifierAct)
  | credentials (a : CallAct)

/-- The settings of all services. -/
structure BackendSettings where
  pases : PassSettings
  verificacion : VerificationSettings

/-- One step of call `i`. -/
def serviceStep (cfg : BackendSettings) (i : Nat) (w : BackendWorld) :
    Service → ServiceAct → Option (BackendWorld × Service)
  | .registration l, .registration a =>
    (registrarStep w.registration l a).map fun r => (w.withRegistration r.1, .registration r.2)
  | .verification l, .verification a =>
    -- `get_for_update` waits while an issuance holds the passenger's row
    if (l.locksNext.bind fun id => w.locks (.pasajero id)) ≠ none then none
    else (verifierStep cfg.verificacion w.verification l a).map fun r =>
      (w.withVerification r.1, .verification r.2)
  | .credentials l, .credentials a =>
    (callStep cfg.pases i w.credentials l a).map fun r =>
      (w.withCredentials r.1, .credentials r.2)
  | _, _ => none

/-- Time passes. -/
def backendEnvStep (w : BackendWorld) (d : Nat) : Option BackendWorld :=
  some { w with out := { w.out with clock := w.out.clock + d } }

/-- All services. -/
def backendProgram (cfg : BackendSettings) :
    Program BackendWorld Service ServiceAct Nat :=
  ⟨serviceStep cfg, backendEnvStep⟩

/-- The shared state and all calls. -/
abbrev BackendSystem := Sys BackendWorld Service

/-- The step function of the backend. -/
def backendStep (cfg : BackendSettings) :
    BackendSystem → Act ServiceAct Nat → Option BackendSystem :=
  (backendProgram cfg).step

/-- A call that has not started. -/
def Service.Idle : Service → Prop
  | .registration l => l = .idle
  | .verification l => l = .idle
  | .credentials l => l = .idle

/-- All tables, Redis and the outbox are empty and no call has started, whichever service each
is of. -/
structure BackendSystem.Initial (s : BackendSystem) : Prop where
  pasajeros : s.shared.pasajeros = .empty
  intentos : s.shared.intentos = .empty
  identidades : s.shared.identidades = .empty
  outbox : s.shared.out.outbox = .empty
  accepted : s.shared.out.accepted = []
  tables : s.shared.tables = .empty
  redis : s.shared.redis = fun _ => none
  locks : s.shared.locks = fun _ => none
  issuer : s.shared.issuer = fun _ => none
  locals : ∀ i, (s.locals i).Idle

/-! ## What a step leaves of the others' views -/

/-- The registration reads the identities and the clock. -/
theorem registrarStep_reads {w : RegistrationWorld} {l : Registrar} {a : RegistrarAct}
    {r : RegistrationWorld × Registrar} (h : registrarStep w l a = some r) :
    r.1 = { w with pasajeros := r.1.pasajeros } := by
  unfold registrarStep at h
  split at h
  · cases h; rfl
  · obtain ⟨r', hr', rfl⟩ := Option.map_eq_some_iff.1 h
    rename_i q ph ch
    cases ph with
    | start | readingUser | readingDocument | storing | adding | resolving | withIdentity =>
      simp only [registerStep] at hr'
      repeat' split at hr'
      all_goals cases hr'; rfl
    | done => cases hr'
  · cases h

end Aeropass
