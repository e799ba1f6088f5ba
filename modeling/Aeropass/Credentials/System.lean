import Aeropass.Credentials.Store
import Aeropass.Domain.Identity
import Aeropass.Domain.Passenger
import Aeropass.Lib.Threads

/-!
# The credential services

`PassIssuanceService.issue`, the methods of `CredentialLifecycleService` and the Redis fast path,
as calls that interleave. A call stops wherever the source awaits, so its next step sees what the
other calls did meanwhile. A transaction that calls nothing but Postgres is one step; one that
reads the clock or Redis inside locks its rows first (`Lock`), and what it wrote becomes visible at
its commit. What the source does not decide is a `Choice` of the step: how Redis answers, whether
the commit succeeds, what the rate limiter says, the id drawn, the rows other transactions hold.
-/

namespace Aeropass

open CredentialTables

/-! ## The shared state -/

/-- The rows that transactions lock with `FOR UPDATE`. -/
inductive Lock where
  | pasajero (id : UUID)
  | credencial (id : UUID)
  deriving DecidableEq, Repr

/-- What the calls share: the tables, Redis, the clock, the row locks and, for each id that
`new_id()` has drawn for a credential, the call it was drawn for. -/
structure World where
  pasajeros : Rows PasajeroRow.id
  identidades : List IdentidadDigital
  tables : CredentialTables
  redis : Redis
  clock : Instant
  locks : Lock → Option Nat
  issuer : UUID → Option Nat

namespace World

/-- Take a row lock. -/
def acquire (w : World) (i : Nat) (l : Lock) : World :=
  { w with locks := Function.update w.locks l (some i) }

/-- The end of a transaction: its row locks are free. -/
def release (w : World) (i : Nat) : World :=
  { w with locks := fun l => if w.locks l = some i then none else w.locks l }

/-- The commit of a unit of work. -/
def commit (w : World) (i : Nat) (ws : List Write) : World :=
  { w.release i with tables := w.tables.applyAll ws }

end World

/-- What the source leaves open in a step. -/
structure Choice where
  fault : RedisFault := .none
  commits : Bool := true
  signs : Bool := true
  admitted : Bool := true
  retryAfter : Int := 0
  jti : UUID := 0
  skip : List UUID := []

/-- The settings of the services: the signer and `QR_TTL_SECONDS`. -/
structure PassSettings where
  signer : CredentialSigner
  ttl : Int

def renewalMarginSeconds : Int := 5
def motivoTokenNoRegistrado : String := "ALMACENAMIENTO_NO_DISPONIBLE"

/-- `IssuedPass`. -/
structure IssuedPass where
  credencial : CredencialAcceso
  token : String
  renovarEnSegundos : Int

/-! ## `issue` -/

/-- The open transaction of `issue`: `writes` is what its repositories were given so far and
`forget` is `anterior_a_olvidar`. -/
structure IssueTx where
  pasajeroId : UUID
  identidadId : UUID
  codigo : String
  now : Instant
  writes : List Write := []
  forget : Option UUID := none

/-- Where an `issue` call is, with its local variables. -/
inductive IssuePhase where
  | start
  | validated (codigo : String)
  | found (codigo : String) (pasajero : Pasajero)
  | admitted (codigo : String) (pasajero : Pasajero)
  | locked (codigo : String) (pasajero : Pasajero) (identidad : IdentidadDigital)
  | dated (tx : IssueTx)
  | renewing (tx : IssueTx) (anterior : CredencialAcceso)
  | ready (tx : IssueTx)
  | built (tx : IssueTx) (c : CredencialAcceso) (token : String)
  | added (tx : IssueTx) (c : CredencialAcceso) (token : String)
  | registered (tx : IssueTx) (c : CredencialAcceso) (token : String)
  | unregistered (tx : IssueTx) (c : CredencialAcceso)
  | committed (forget : UUID) (pass : IssuedPass)
  | done (r : Except Failure IssuedPass)

/-- The aggregate after a repository call: its buffer was written. -/
def CredencialAcceso.flushed (c : CredencialAcceso) : CredencialAcceso :=
  { c with pendingTransitions := [] }

/-- A domain error that ends a call. -/
def fail {α : Type} (clase : ErrorClass) (retryAfter : Option Int := none) : Except Failure α :=
  .error (.domain { clase, retryAfter })

/-- One step of `issue(user, codigo_vuelo)`, called by `i`. -/
def issueStep (cfg : PassSettings) (i : Nat) (w : World) (user codigoVuelo : String) (ch : Choice) :
    IssuePhase → Option (World × IssuePhase)
  | .start =>
    match normalizarCodigoVuelo (some codigoVuelo) with
    | .ok codigo => some (w, .validated codigo)
    | .error e => some (w, .done (.error (.domain e)))
  | .validated codigo =>
    match textError? [user], w.pasajeros.rows.find? fun p => p.clerkUserId = user with
    | none, some p => some (w, .found codigo { p with })
    | none, none => some (w, .done (fail .identidadNoActiva))
    | some e, _ => some (w, .done (.error e))
  | .found codigo pasajero =>
    if ch.admitted then some (w, .admitted codigo pasajero)
    else some (w, .done (fail .limiteEmisionExcedido (some ch.retryAfter)))
  | .admitted codigo pasajero =>
    -- `get_for_update` waits for the lock; both reads are made before either answer is used
    match w.pasajeros.find? pasajero.id with
    | none => some (w, .done (fail .identidadNoActiva))
    | some p =>
      if w.locks (.pasajero pasajero.id) ≠ none then none
      else match getActive w.identidades pasajero.id with
        | none => some (w, .done (fail .identidadNoActiva))
        | some identidad =>
          some (w.acquire i (.pasajero pasajero.id), .locked codigo { p with } identidad)
  | .locked codigo pasajero identidad =>
    if pasajero.documento.vigenteEn w.clock.date then
      some (w, .dated ⟨pasajero.id, identidad.id, codigo, w.clock, [], none⟩)
    else some (w.release i, .done (fail .documentoVencidoParaPase))
  | .dated tx =>
    match w.tables.getLiveForUpdate tx.pasajeroId tx.codigo with
    | none => some (w, .ready tx)
    | some anterior =>
      if w.locks (.credencial anterior.id) ≠ none then none
      else
        let (moved, c) := anterior.refreshExpiry tx.now
        if moved then
          some (w.acquire i (.credencial anterior.id),
            .ready { tx with writes := tx.writes ++ [.save c] })
        else some (w.acquire i (.credencial anterior.id), .renewing tx anterior)
  | .renewing tx anterior =>
    let (r, c) := anterior.revocar motivoRenovacion w.clock
    some (w, .ready { tx with
      writes := tx.writes ++ [.save c]
      forget := if r.aceptada then some anterior.id else none })
  | .ready tx =>
    if w.issuer ch.jti ≠ none then none
    else
      let signer : CredentialSigner :=
        if ch.signs then cfg.signer else { cfg.signer with sign := fun _ => none }
      let b := ({} : CredencialAccesoBuilder).paraPasajero tx.pasajeroId
        |>.conIdentidad tx.identidadId |>.paraVuelo tx.codigo |>.conTtl cfg.ttl
        |>.firmadoCon signer |>.emitidoEn tx.now
      match b.build ch.jti with
      | .ok (c, token) =>
        some ({ w with issuer := Function.update w.issuer ch.jti (some i) }, .built tx c token)
      | .error e => some (w.release i, .done (.error e))
  | .built tx c token =>
    match (w.tables.applyAll tx.writes).insertError c with
    | some constraint => some (w.release i, .done (.error (.uniqueViolation constraint)))
    | none => some (w, .added { tx with writes := tx.writes ++ [.add c] } c.flushed token)
  | .added tx c token =>
    let (registered, redis) := w.redis.register w.clock ch.fault c.id cfg.ttl
    let w := { w with redis }
    if registered then
      let c := (c.activar tx.now).2
      some (w, .registered { tx with writes := tx.writes ++ [.save c] } c.flushed token)
    else
      let c := (c.revocar motivoTokenNoRegistrado tx.now).2
      some (w, .unregistered { tx with writes := tx.writes ++ [.save c] } c.flushed)
  | .registered tx c token =>
    if ch.commits then
      let pass : IssuedPass := ⟨c, token, cfg.ttl - renewalMarginSeconds⟩
      match tx.forget with
      | some jti => some (w.commit i tx.writes, .committed jti pass)
      | none => some (w.commit i tx.writes, .done (.ok pass))
    else some (w.release i, .done (.error .database))
  | .unregistered tx _ =>
    if ch.commits then
      some (w.commit i tx.writes, .done (fail .almacenamientoNoDisponible (some 1)))
    else some (w.release i, .done (.error .database))
  | .committed jti pass =>
    some ({ w with redis := (w.redis.revoke ch.fault jti).2 }, .done (.ok pass))
  | .done _ => none

/-! ## `consume` -/

/-- `ConsumeResult`. -/
inductive ConsumeResult where
  | consumida | yaConsumida | expirada | revocada | noEncontrada
  deriving DecidableEq, Repr

/-- `_REJECTION`. -/
def rejection : EstadoCredencial → Option ConsumeResult
  | .consumida => some .yaConsumida
  | .expirada => some .expirada
  | .revocada => some .revocada
  | .emitida => some .revocada
  | .activa => none

/-- Where a `consume` call is. -/
inductive ConsumePhase where
  | start
  | read (now : Instant)
  | marking
  | done (r : Except Failure ConsumeResult)

/-- One step of `consume(jti, actor)`. -/
def consumeStep (i : Nat) (w : World) (jti : UUID) (actor : String) (ch : Choice) :
    ConsumePhase → Option (World × ConsumePhase)
  | .start => some (w, .read w.clock)
  | .read now =>
    if w.locks (.credencial jti) ≠ none then none
    else match w.tables.getForUpdate jti with
      | none => some (w, .done (.ok .noEncontrada))
      | some credencial =>
        -- `save` writes the actor of the transition
        if ch.commits && storable actor then
          let (r, c) := (credencial.refreshExpiry now).2.consumir now actor
          let w := w.commit i [.save c]
          if r.aceptada then some (w, .marking)
          else match rejection r.estadoActual with
            | some answer => some (w, .done (.ok answer))
            | none => some (w, .done (.error .keyError))
        else some (w, .done (.error (writeError actor)))
  | .marking =>
    some ({ w with redis := (w.redis.consume w.clock ch.fault jti).2 }, .done (.ok .consumida))
  | .done _ => none

/-! ## `revoke_by_id` -/

/-- Where a `revoke_by_id` call is. -/
inductive RevokePhase where
  | start
  | locked (c : CredencialAcceso)
  | refreshed (c : CredencialAcceso)
  | revoked (c : CredencialAcceso) (r : TransitionResult)
  | forgetting (r : TransitionResult)
  | done (r : Except Failure TransitionResult)

/-- One step of `revoke_by_id(jti, motivo)`. -/
def revokeStep (i : Nat) (w : World) (jti : UUID) (motivo : String) (ch : Choice) :
    RevokePhase → Option (World × RevokePhase)
  | .start =>
    if w.locks (.credencial jti) ≠ none then none
    else match w.tables.getForUpdate jti with
      | none => some (w, .done (fail .credencialNoEncontrada))
      | some c => some (w.acquire i (.credencial jti), .locked c)
  | .locked c => some (w, .refreshed (c.refreshExpiry w.clock).2)
  | .refreshed c =>
    let (r, c) := c.revocar motivo w.clock
    some (w, .revoked c r)
  | .revoked c r =>
    -- `save` writes the reason of the transition
    if ch.commits && storable motivo then
      let w := w.commit i [.save c]
      if r.aceptada then some (w, .forgetting r) else some (w, .done (.ok r))
    else some (w.release i, .done (.error (writeError motivo)))
  | .forgetting r => some ({ w with redis := (w.redis.revoke ch.fault jti).2 }, .done (.ok r))
  | .done _ => none

/-! ## `detail_for_owner` -/

/-- Where a `detail_for_owner` call is; `now` is the instant it read. -/
inductive DetailPhase where
  | start
  | locked (c : CredencialAcceso)
  | refreshed (now : Instant) (c : CredencialAcceso) (writes : List Write)
  | done (now : Instant) (r : Except Failure (CredencialAcceso × List Transicion))

/-- One step of `detail_for_owner(jti, pasajero_id)`. -/
def detailStep (i : Nat) (w : World) (jti pasajeroId : UUID) (ch : Choice) :
    DetailPhase → Option (World × DetailPhase)
  | .start =>
    if w.locks (.credencial jti) ≠ none then none
    else match w.tables.getForUpdate jti with
      | none => some (w, .done w.clock (fail .credencialNoEncontrada))
      | some c =>
        if c.pasajeroId ≠ pasajeroId then some (w, .done w.clock (fail .credencialNoEncontrada))
        else some (w.acquire i (.credencial jti), .locked c)
  | .locked c =>
    let (moved, c') := c.refreshExpiry w.clock
    if moved then some (w, .refreshed w.clock c' [.save c'])
    else some (w, .refreshed w.clock c [])
  | .refreshed now c writes =>
    -- the history is read in the transaction, so with what it wrote
    if ch.commits then
      some (w.commit i writes, .done now (.ok (c.flushed, (w.tables.applyAll writes).history jti)))
    else some (w.release i, .done now (.error .database))
  | .done _ _ => none

/-! ## `sweep_expired` -/

/-- Where a `sweep_expired` call is. -/
inductive SweepPhase where
  | start
  | read (now : Instant)
  | done (r : Except Failure Nat)

/-- One step of `sweep_expired(limit)`. -/
def sweepStep (i : Nat) (w : World) (limit : Nat) (ch : Choice) :
    SweepPhase → Option (World × SweepPhase)
  | .start => some (w, .read w.clock)
  | .read now =>
    let skip := fun id => w.locks (.credencial id) ≠ none || ch.skip.contains id
    let vencidas := w.tables.expiredLiveForUpdate now limit skip
    if ch.commits then
      some (w.commit i (vencidas.map fun c => .save (c.expirar now).2), .done (.ok vencidas.length))
    else some (w, .done (.error .database))
  | .done _ => none

/-! ## The calls -/

/-- What the services are asked to do. -/
inductive Request where
  | issue (user codigoVuelo : String)
  | consume (jti : UUID) (actor : String)
  | revokeById (jti : UUID) (motivo : String)
  | detail (jti pasajeroId : UUID)
  | sweep (limit : Nat)
  | mayBeUsable (jti : UUID)

/-- A call and where it is; `mayBeUsable` holds the answer of the proxy once it gave one. -/
inductive Call where
  | idle
  | issue (user codigoVuelo : String) (ph : IssuePhase)
  | consume (jti : UUID) (actor : String) (ph : ConsumePhase)
  | revokeById (jti : UUID) (motivo : String) (ph : RevokePhase)
  | detail (jti pasajeroId : UUID) (ph : DetailPhase)
  | sweep (limit : Nat) (ph : SweepPhase)
  | mayBeUsable (jti : UUID) (answer : Option (Option Bool))

/-- What moves a call: its request, or the choices of its next step. -/
inductive CallAct where
  | invoke (r : Request)
  | next (ch : Choice)

/-- The start of a call. -/
def Call.start : Request → Call
  | .issue user codigoVuelo => .issue user codigoVuelo .start
  | .consume jti actor => .consume jti actor .start
  | .revokeById jti motivo => .revokeById jti motivo .start
  | .detail jti pasajeroId => .detail jti pasajeroId .start
  | .sweep limit => .sweep limit .start
  | .mayBeUsable jti => .mayBeUsable jti none

/-- One step of call `i`. -/
def callStep (cfg : PassSettings) (i : Nat) (w : World) : Call → CallAct → Option (World × Call)
  | .idle, .invoke r => some (w, .start r)
  | .issue user codigoVuelo ph, .next ch =>
    (issueStep cfg i w user codigoVuelo ch ph).map fun r => (r.1, .issue user codigoVuelo r.2)
  | .consume jti actor ph, .next ch =>
    (consumeStep i w jti actor ch ph).map fun r => (r.1, .consume jti actor r.2)
  | .revokeById jti motivo ph, .next ch =>
    (revokeStep i w jti motivo ch ph).map fun r => (r.1, .revokeById jti motivo r.2)
  | .detail jti pasajeroId ph, .next ch =>
    (detailStep i w jti pasajeroId ch ph).map fun r => (r.1, .detail jti pasajeroId r.2)
  | .sweep limit ph, .next ch => (sweepStep i w limit ch ph).map fun r => (r.1, .sweep limit r.2)
  | .mayBeUsable jti none, .next ch =>
    some (w, .mayBeUsable jti (some (w.redis.mayBeUsable w.clock ch.fault jti)))
  | _, _ => none

/-- What happens besides the calls: time passes, and the other services commit changes to the
passengers and the identities. -/
inductive EnvAct where
  | tick (d : Nat)
  | others (pasajeros : Rows PasajeroRow.id) (identidades : List IdentidadDigital)

/-- One step of the environment. -/
def envStep (w : World) : EnvAct → Option World
  | .tick d => some { w with clock := w.clock + d }
  | .others pasajeros identidades => some { w with pasajeros, identidades }

/-- The credential services. -/
def credentialProgram (cfg : PassSettings) : Threads.Program World Call CallAct EnvAct :=
  ⟨callStep cfg, envStep⟩

/-- A shared state and all calls. -/
abbrev CredentialSystem := Threads.Sys World Call

/-- The step function of the credential services. -/
def credentialStep (cfg : PassSettings) : CredentialSystem → Threads.Act CallAct EnvAct →
    Option CredentialSystem :=
  (credentialProgram cfg).step

/-- No credential was issued and no call has started. -/
def CredentialSystem.Initial (s : CredentialSystem) : Prop :=
  s.shared.tables = .empty ∧ s.shared.redis = (fun _ => none) ∧ s.shared.locks = (fun _ => none) ∧
    s.shared.issuer = (fun _ => none) ∧ s.locals = fun _ => .idle

end Aeropass
