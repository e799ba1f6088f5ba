import Aeropass.Api.Private
import Aeropass.Biometrics.Inconclusive
import Aeropass.System.Schema

/-!
# The responses keep the contract

`contracts/openapi.yaml` lists the responses of each operation and gives their schemas. Every
response that a handler gives is one that the contract lists for its route, one of the few that only
the code knows (`Route.beyond`), FastAPI's own answer to a body that it cannot read, or the 500 of
what nothing handles, and its body satisfies its schema.
-/

namespace Aeropass

open CredentialTables CredencialAcceso Runs Threads

/-! ## The operations -/

/-- The status of a response, with the code of an error. -/
def HttpResponse.outline (r : HttpResponse) : Nat × Option String :=
  match r.body with
  | .error e => (r.status, some e.codigo)
  | _ => (r.status, none)

/-- The responses that the contract lists for an operation. -/
def Route.contract : Route → List (Nat × Option String)
  | .registrarDocumento .. =>
    [(201, none), (200, none), (409, some "DOCUMENTO_YA_REGISTRADO"),
      (409, some "CUENTA_YA_REGISTRADA"), (413, some "IMAGEN_DEMASIADO_GRANDE"),
      (415, some "FORMATO_NO_ADMITIDO"), (422, some "DATOS_INVALIDOS"),
      (422, some "DOCUMENTO_VENCIDO"), (503, some "ALMACENAMIENTO_NO_DISPONIBLE"),
      (401, some "NO_AUTENTICADO")]
  | .obtenerMiPasajero =>
    [(200, none), (404, some "PASAJERO_NO_REGISTRADO"), (401, some "NO_AUTENTICADO")]
  | .verificarSelfie _ =>
    [(200, none), (404, some "PASAJERO_NO_REGISTRADO"),
      (409, some "ESTADO_NO_PERMITE_VERIFICACION"), (413, some "IMAGEN_DEMASIADO_GRANDE"),
      (415, some "FORMATO_NO_ADMITIDO"), (503, some "ALMACENAMIENTO_NO_DISPONIBLE"),
      (401, some "NO_AUTENTICADO")]
  | .emitirPase _ =>
    [(201, none), (403, some "IDENTIDAD_NO_ACTIVA"), (403, some "DOCUMENTO_VENCIDO"),
      (422, some "DATOS_INVALIDOS"), (429, some "LIMITE_EMISION_EXCEDIDO"),
      (401, some "NO_AUTENTICADO")]
  | .obtenerPase _ =>
    [(200, none), (404, some "CREDENCIAL_NO_ENCONTRADA"), (401, some "NO_AUTENTICADO")]

/-- The responses of the code that the contract does not list: a missing selfie, the failed
registration of a token, and a credential id that is no UUID. -/
def Route.beyond : Route → List (Nat × Option String)
  | .registrarDocumento .. | .obtenerMiPasajero => []
  | .verificarSelfie _ | .obtenerPase _ => [(422, some "DATOS_INVALIDOS")]
  | .emitirPase _ => [(503, some "ALMACENAMIENTO_NO_DISPONIBLE")]

/-! ## The schemas -/

/-- The codes of `Error`. -/
def codigos : List String :=
  ["NO_AUTENTICADO", "DATOS_INVALIDOS", "DOCUMENTO_VENCIDO", "DOCUMENTO_YA_REGISTRADO",
    "CUENTA_YA_REGISTRADA", "PASAJERO_NO_REGISTRADO", "ESTADO_NO_PERMITE_VERIFICACION",
    "IMAGEN_DEMASIADO_GRANDE", "FORMATO_NO_ADMITIDO", "ALMACENAMIENTO_NO_DISPONIBLE",
    "IDENTIDAD_NO_ACTIVA", "LIMITE_EMISION_EXCEDIDO", "CREDENCIAL_NO_ENCONTRADA"]

/-- `ResultadoVerificacion`. -/
structure ResultadoVerificacionResponse.Schema (b : ResultadoVerificacionResponse) : Prop where
  scores : ∀ x ∈ b.scoreLiveness.toList ++ b.scoreComparacion.toList, 0 ≤ x ∧ x ≤ 1
  motivo : b.motivoFallo.isSome = true ↔ b.resultado = .fallido
  estado : match b.resultado with
    | .exitoso => b.estadoPasajero = .verificado
    | .fallido => b.estadoPasajero ≠ .verificado
    | .noConcluyente => b.estadoPasajero = .pendienteVerificacion
  restantes : b.intentosRestantes ≤ 3
  agotados : b.intentosRestantes = 0 ↔ b.estadoPasajero = .requiereRevisionManual
  identidad : b.identidadId.isSome = true ↔ b.resultado = .exitoso
  reintentar : b.reintentarEnSegundos.isSome = true ↔ b.resultado = .noConcluyente

/-- `Pase`; the renewal is 5 s before the end of the pass. -/
structure PaseResponse.Schema (b : PaseResponse) : Prop where
  codigoVuelo : matchCodigoVuelo b.codigoVuelo.toList = true
  permisos : b.permisos ≠ []
  estado : b.estado = .activa
  renovar : b.expiraAt = b.emitidaAt + seconds (b.renovarEnSegundos + 5)
  vigencia : 30 ≤ b.renovarEnSegundos + 5 ∧ b.renovarEnSegundos + 5 ≤ 60

/-- The shown history as a log. -/
def historialMostrado : AuditLog TransicionResponse EstadoCredencial where
  previous := TransicionResponse.estadoAnterior
  requested := TransicionResponse.estadoSolicitado
  accepted := TransicionResponse.aceptada
  allowed := historial.allowed

/-- `DetallePase`; the history is one of the state machine and leads to the state. -/
structure DetallePaseResponse.Schema (b : DetallePaseResponse) : Prop where
  codigoVuelo : matchCodigoVuelo b.codigoVuelo.toList = true
  estado : b.estado ≠ .emitida
  historial : historialMostrado.Faithful b.historial
  replay : historialMostrado.replay b.historial = some b.estado

/-- What the schemas ask of a body besides the types of its fields. -/
def Body.Schema : Body → Prop
  | .error e => e.codigo ∈ codigos
  | .pasajero b => b.intentosFallidos ≤ 3
  | .resultado b => b.Schema
  | .pase b => b.Schema
  | .detalle b => b.Schema
  | .detail _ | .interno => True
  | .despacho _ => False

/-- The response of a route keeps the contract. -/
structure HttpResponse.Conforms (q : HttpRequest) (r : HttpResponse) : Prop where
  listed : r.outline ∈ q.route.contract ++ q.route.beyond ∨ r = ⟨500, .interno, none⟩ ∨
    (∃ texto, q.undecodable = some (.form texto) ∧ r = ⟨400, .detail texto, none⟩) ∨
    q.undecodable = some .unreadable ∧
      r = ⟨400, .detail "There was an error parsing the body", none⟩
  retryAfter : r.retryAfter.isSome = true ↔ r.status = 429 ∨ r.status = 503
  schema : r.body.Schema

variable {cfg : BackendSettings} {s : ApiSystem} {w : BackendWorld} {i : Nat} {q : HttpRequest}
  {r : HttpResponse} {user : String} {route : Route}

/-! ## Errors -/

/-- Every class has a code of the contract. -/
theorem ErrorClass.codigo_mem (clase : ErrorClass) : clase.codigo ∈ codigos := by
  cases clase <;> decide

/-- An error tells when to come back exactly with the statuses for it. -/
theorem ErrorClass.retries_iff (clase : ErrorClass) :
    clase.retries = true ↔ clase.httpStatus = 429 ∨ clase.httpStatus = 503 := by
  cases clase <;> decide

/-- What a route raises is listed. -/
theorem Route.raises_listed (route : Route) :
    ∀ clase ∈ route.raises.clases,
      (clase.httpStatus, some clase.codigo) ∈ route.contract ++ route.beyond := by
  cases route with
  | registrarDocumento | obtenerMiPasajero | verificarSelfie | emitirPase | obtenerPase =>
    simp only [raises, contract, beyond]
    decide

/-- The response to a failure of the route keeps the contract. -/
theorem Failure.Of.conforms {f : Failure} (h : f.Of q.route.raises) :
    (failureResponse f).Conforms q := by
  cases f with
  | domain e =>
    refine ⟨.inl (q.route.raises_listed _ h.clase), ?_, e.clase.codigo_mem⟩
    have hret : e.retryAfter.isSome = e.clase.retries := h.retryAfter
    simp only [failureResponse, errorResponse, hret]
    exact e.clase.retries_iff
  | _ => exact ⟨.inr (.inl rfl), by simp [failureResponse], trivial⟩

/-- A route that has something to parse is refused malformed requests. -/
theorem validationError_conforms {locs : List (List String)} (hparsed : q.route.parsed ≠ []) :
    (validationError locs).Conforms q := by
  refine ⟨.inl ?_, by simp [validationError, errorResponse, ErrorClass.httpStatus],
    ErrorClass.datosInvalidos.codigo_mem⟩
  show (422, some "DATOS_INVALIDOS") ∈ _
  cases hroute : q.route with
  | obtenerMiPasajero => rw [hroute] at hparsed; exact absurd rfl hparsed
  | registrarDocumento | verificarSelfie | emitirPase | obtenerPase =>
    simp [Route.contract, Route.beyond]

/-- A refusal is one that the contract lists, or FastAPI's own. -/
theorem Refusal.conforms (h : Refusal q r) : r.Conforms q := by
  cases h with
  | form hund => exact ⟨.inr (.inr (.inl ⟨_, hund, rfl⟩)), by simp, trivial⟩
  | unreadable hund => exact ⟨.inr (.inr (.inr ⟨hund, rfl⟩)), by simp, trivial⟩
  | json hparsed => exact validationError_conforms hparsed
  | invalid hparsed => exact validationError_conforms hparsed
  | oversized hmul =>
    refine ⟨.inl ?_, by simp [errorResponse, ErrorClass.httpStatus],
      ErrorClass.imagenDemasiadoGrande.codigo_mem⟩
    show (413, some "IMAGEN_DEMASIADO_GRANDE") ∈ _
    cases hroute : q.route with
    | registrarDocumento | verificarSelfie => simp [Route.contract]
    | obtenerMiPasajero | emitirPase | obtenerPase => rw [hroute] at hmul; cases hmul
  | unauthenticated =>
    refine ⟨.inl ?_, by simp [noAutenticado, noAutenticadoStatus], List.mem_cons_self⟩
    show (401, some "NO_AUTENTICADO") ∈ _
    cases q.route <;> simp [Route.contract]

/-! ## Data -/

/-- The scores of an outcome are between 0 and 1 if those that the provider gives are. -/
theorem VerificationOutcome.Given.inUnit {cfg : VerificationSettings} {o : VerificationOutcome}
    (h : o.Given cfg) (hprov : ∀ r, cfg.gives r = true → r.OfAdapter) :
    ∀ x ∈ o.intento.scoreLiveness.toList ++ o.intento.scoreComparacion.toList, InUnit x := by
  obtain ⟨result, hgives, hl, hc⟩ := h
  rw [hl, hc]
  cases result with
  | none => simp
  | some r =>
    have hunit := (hprov r (hgives r rfl)).inUnit
    simp [hunit.1, hunit.2]

/-- The body of a verification satisfies its schema. -/
theorem Answered.schema {cfg : VerificationSettings} {id : UUID} {o : VerificationOutcome}
    (hprov : ∀ r, cfg.gives r = true → r.OfAdapter) (hw : ChecksOK w)
    (ha : Answered w.verification id o) (hc : Counted w.verification o) (hg : o.Given cfg) :
    (ResultadoVerificacionResponse.fromOutcome o).Schema := by
  have hchk := hw.intentos _ ha.intento
  refine ⟨hg.inUnit hprov, hchk.motivoSoloSiFallido.symm, hc.estado, ?_, hc.agotados, ?_, ?_⟩
  · obtain ⟨before, -, -, hrest⟩ := hc.restantes
    have hrest : (ResultadoVerificacionResponse.fromOutcome o).intentosRestantes = _ := hrest
    omega
  · show o.identidadId.isSome = true ↔ o.intento.resultado = .exitoso
    by_cases hex : o.intento.resultado = .exitoso
    · obtain ⟨x, -, -, -, hx⟩ := ha.exito hex
      simp [hx, hex]
    · simp [ha.sigue hex, hex]
  · show (if o.intento.resultado = .noConcluyente then some reintentarEnSegundos else none).isSome =
      true ↔ o.intento.resultado = .noConcluyente
    split
    · next h => simp [h]
    · next h => simp [h]

/-- The body of an issued pass satisfies its schema. -/
theorem PassOf.schema {pass : IssuedPass} (hw : ChecksOK w)
    (h : PassOf cfg.pases w.credentials user pass) : (PaseResponse.fromIssued pass).Schema := by
  obtain ⟨row, hrow, hs⟩ := h.row
  have hchk := hw.credenciales hrow
  have hmargin : (PaseResponse.fromIssued pass).renovarEnSegundos + 5 = cfg.pases.ttl := by
    have hren := h.renovar
    simp only [renewalMarginSeconds] at hren
    show pass.renovarEnSegundos + 5 = cfg.pases.ttl
    omega
  refine ⟨?_, h.permisos, h.activa, hmargin ▸ h.vigencia, hmargin ▸ h.ttl⟩
  have hcod : row.codigoVuelo = (PaseResponse.fromIssued pass).codigoVuelo := hs.eqs.2.2.1
  exact hcod ▸ hchk.codigoVuelo

/-- The body of a detail satisfies its schema: its history replays to its state. -/
theorem DetailOf.schema {id pasajeroId : UUID} {c : CredencialAcceso} {hist : List Transicion}
    (hw : ChecksOK w) (hcr : WorldOK w.credentials)
    (h : DetailOf w.credentials id pasajeroId c) (hh : HistorialOf w.credentials c hist) :
    (DetallePaseResponse.fromDomain c hist).Schema := by
  obtain ⟨row, hrow, hs⟩ := h.row
  have hchk := hw.credenciales hrow
  have hcod : row.codigoVuelo = (DetallePaseResponse.fromDomain c hist).codigoVuelo :=
    hs.eqs.2.2.1
  have hfaith : historial.Faithful hist :=
    (hcr.tables.history hrow).faithful.of_prefix (h.id ▸ hh.history)
  refine ⟨hcod ▸ hchk.codigoVuelo, hh.emitida, ?_, ?_⟩
  · exact hfaith.map (fun _ => rfl) (fun _ => rfl) (fun _ => rfl) rfl
  · have hmap :
        historialMostrado.replay (hist.map Transicion.response) = historial.replay hist := by
      apply AuditLog.replay_map <;> exact fun _ => rfl
    exact hmap.trans hh.estado

/-- What a route answers keeps the contract. -/
theorem Answer.conforms (hprov : ∀ r, cfg.verificacion.gives r = true → r.OfAdapter)
    (hw : ChecksOK w) (hcr : WorldOK w.credentials) (h : Answer cfg w user q.route r) :
    r.Conforms q := by
  generalize hroute : q.route = route at h
  cases h with
  | failed hf => exact Failure.Of.conforms (hroute ▸ hf)
  | mine hp =>
    refine ⟨.inl ?_, by simp, hp.progreso.fallidos_le⟩
    rw [hroute]
    simp [HttpResponse.outline, Route.contract]
  | @registered _ _ _ _ _ p created hp =>
    refine ⟨.inl ?_, ?_, hp.progreso.fallidos_le⟩
    · rw [hroute]
      cases created <;> simp [registerResponse, HttpResponse.outline, Route.contract]
    · cases created <;> simp [registerResponse]
  | verified ho ha hc hg =>
    refine ⟨.inl ?_, by simp [verifyResponse], ha.schema hprov hw hc hg⟩
    rw [hroute]
    simp [verifyResponse, HttpResponse.outline, Route.contract]
  | issued hp =>
    refine ⟨.inl ?_, by simp [issueResponse], PassOf.schema hw hp⟩
    rw [hroute]
    simp [issueResponse, HttpResponse.outline, Route.contract]
  | detailed ho hd hh =>
    refine ⟨.inl ?_, by simp [detailResponse], hd.schema hw hcr hh⟩
    rw [hroute]
    simp [detailResponse, HttpResponse.outline, Route.contract]

/-- A vision provider whose two scores are always 1. -/
def sampleVision : BackendSettings where
  pases := sampleSettings
  verificacion := { sampleUmbrales with gives := fun r => r = ⟨1, 1, "vision"⟩ }

/-- Its results are those of the vision adapter on a payload with both scores 1. -/
theorem sampleVision_gives {r : BiometricResult} (h : sampleVision.verificacion.gives r = true) :
    r.OfAdapter := by
  have hr : r = ⟨1, 1, "vision"⟩ := of_decide_eq_true h
  rw [hr]
  exact @BiometricResult.OfAdapter.http _ (fun _ => none)
    (.vision (.response 200 (.json (.object
      [("liveness", .object [("score", .float (.fin 1))]),
        ("match", .object [("score", .float (.fin 1))])])))) (by decide +kernel)

end Aeropass
