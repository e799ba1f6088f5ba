import Aeropass.Api.Answers

/-!
# Whose data the responses carry

A response carries data of the passenger of the account that asked (`Body.Of`): the handlers answer
their routes to the account of the request (`Answer`), and each answer is read off rows of that
account's passenger, the token of a pass signed for it. An error says one of a few texts about the
request (`ErrorResponse.Of`). What an account is refused does not depend on other accounts'
credentials: for one that is not its own it is told what it is told for one that does not exist.
-/

namespace Aeropass

open CredentialTables CredencialAcceso Runs Threads

/-- The passenger that a response shows is the account's, as its attempts had left it; of its number
it tells the length and the last four characters. -/
structure PasajeroResponse.Of (w : BackendWorld) (user : String) (b : PasajeroResponse) : Prop where
  pasajero : ∃ p, w.pasajeros.find? b.id = some p ∧ p.clerkUserId = user ∧
    b.nombreCompleto = p.documento.nombreCompleto ∧ b.tipoDocumento = p.documento.tipo ∧
    b.fechaVencimiento = p.documento.fechaVencimiento ∧
    b.numeroDocumentoEnmascarado = enmascarar p.documento.numero ∧
    ∀ numero, SameEnd p.documento.numero numero →
      b.numeroDocumentoEnmascarado = enmascarar numero
  progreso : ∃ attempts, attempts <+: w.verification.attemptsOf b.id ∧
    run Progress.step {} (attempts.map (·.resultado)) = some ⟨b.estado, b.intentosFallidos⟩
  identidad : ∀ x ∈ b.identidadId, ∃ y ∈ w.identidades.rows, y.id = x ∧ y.pasajeroId = b.id

/-- The attempt that a response tells of is one of the account's passenger; the state and the
attempts left are those after that passenger's attempts up to it, and the identity comes from it. -/
structure ResultadoVerificacionResponse.Of (w : BackendWorld) (user : String)
    (b : ResultadoVerificacionResponse) : Prop where
  intento : ∃ a before, a.id = b.intentoId ∧ Owns w.pasajeros user a.pasajeroId ∧
    before ++ [a] <+: w.verification.attemptsOf a.pasajeroId ∧ b.resultado = a.resultado ∧
    b.motivoFallo = a.motivoFallo ∧ b.scoreLiveness.map dec = a.scoreLiveness ∧
    b.scoreComparacion.map dec = a.scoreComparacion ∧
    (∃ fallidos, run Progress.step {} ((before ++ [a]).map (·.resultado)) =
      some ⟨b.estadoPasajero, fallidos⟩) ∧
    b.intentosRestantes = 3 - ((before ++ [a]).map (·.resultado)).count .fallido
  identidad : ∀ x ∈ b.identidadId, ∃ y ∈ w.identidades.rows, y.id = x ∧
    y.intentoOrigenId = b.intentoId ∧ Owns w.pasajeros user y.pasajeroId

/-- The claims of a token are those of the pass and of this passenger; the instants are
`int(timestamp())`, which the model has within `2 ^ 34` seconds of the epoch. -/
structure Claims.Of (claims : Claims) (pasajeroId : UUID) (b : PaseResponse) : Prop where
  jti : claims.jti = b.credencialId.str
  sub : claims.sub = pasajeroId.str
  flt : claims.flt = b.codigoVuelo
  perms : claims.perms = b.permisos
  iat : |b.emitidaAt| < seconds (2 ^ 34) →
    claims.iat = Binary64.truncate b.emitidaAt.epochSeconds
  exp : |b.expiraAt| < seconds (2 ^ 34) →
    claims.exp = Binary64.truncate b.expiraAt.epochSeconds

/-- The pass that a response shows is a credential of the account's passenger, in the state that its
history had reached, and its token is the one that was signed for this credential and this
passenger. -/
structure PaseResponse.Of (cfg : PassSettings) (w : BackendWorld) (user : String)
    (b : PaseResponse) : Prop where
  credencial : ∃ r, w.tables.row? b.credencialId = some r ∧ Owns w.pasajeros user r.pasajeroId ∧
    b.codigoVuelo = r.codigoVuelo ∧ b.permisos = r.permisos ∧ b.emitidaAt = r.emitidaAt ∧
    b.expiraAt = r.expiraAt ∧
    (∃ claims : Claims, claims.Of r.pasajeroId b ∧ cfg.signer.sign claims = some b.token) ∧
    CredentialSigner.signatureOf b.token = .ok r.firma
  estado : ∃ shown, shown <+: w.tables.history b.credencialId ∧
    historial.replay shown = some b.estado
  renovar : b.renovarEnSegundos = cfg.ttl - 5

/-- So is the credential that a detail shows; its history is the beginning of the stored one, and it
is in the state that this history leads to. -/
structure DetallePaseResponse.Of (w : BackendWorld) (user : String) (b : DetallePaseResponse) :
    Prop where
  credencial : ∃ r, w.tables.row? b.credencialId = some r ∧ Owns w.pasajeros user r.pasajeroId ∧
    b.codigoVuelo = r.codigoVuelo ∧ b.emitidaAt = r.emitidaAt ∧ b.expiraAt = r.expiraAt
  historial : ∃ shown, shown <+: w.tables.history b.credencialId ∧
    b.historial = shown.map Transicion.response ∧
    Aeropass.historial.replay shown = some b.estado

/-- The errors with their texts. -/
def textosDeError : List (String × String) :=
  [("NO_AUTENTICADO", "Missing, invalid or expired token"),
    ("DATOS_INVALIDOS", "Invalid data"),
    ("DATOS_INVALIDOS", "Invalid flight code"),
    ("DATOS_INVALIDOS", "QR validity must be between 30 and 60 seconds"),
    ("DOCUMENTO_VENCIDO", "The document has expired"),
    ("DOCUMENTO_YA_REGISTRADO", "The document is already registered by another account"),
    ("CUENTA_YA_REGISTRADA", "The account already registered a different document"),
    ("PASAJERO_NO_REGISTRADO", "The account has not registered its document yet"),
    ("ESTADO_NO_PERMITE_VERIFICACION", "The passenger status does not allow new verifications"),
    ("IMAGEN_DEMASIADO_GRANDE", "The image exceeds the maximum size of 4 MB"),
    ("FORMATO_NO_ADMITIDO", "Unsupported image format (JPEG, PNG or WebP)"),
    ("ALMACENAMIENTO_NO_DISPONIBLE", "Storage is unavailable, please retry later"),
    ("IDENTIDAD_NO_ACTIVA", "The passenger has no active digital identity"),
    ("LIMITE_EMISION_EXCEDIDO", "The per-minute issuance limit was exceeded"),
    ("CREDENCIAL_NO_ENCONTRADA", "The credential does not exist")]

/-- The fields of a route that an error may name; the whole body has the empty name. -/
def Route.campos : Route → List String
  | .registrarDocumento .. =>
    ["nombre_completo", "tipo_documento", "numero_documento", "fecha_vencimiento",
      "foto_documento"]
  | .obtenerMiPasajero => []
  | .verificarSelfie _ => ["selfie"]
  | .emitirPase _ => ["", "codigo_vuelo"]
  | .obtenerPase _ => ["credencial_id"]

/-- An error has one of the texts of its code, and names fields of the route, or the position where
the body of the request is no JSON, only where data are invalid. -/
structure ErrorResponse.Of (q : HttpRequest) (e : ErrorResponse) : Prop where
  texto : (e.codigo, e.mensaje) ∈ textosDeError
  campos : ∀ campos ∈ e.campos, e.codigo = "DATOS_INVALIDOS" ∧ ∀ campo ∈ campos,
    campo ∈ q.route.campos ∨ ∃ pos, q.undecodable = some (.json pos) ∧ campo = toString pos

/-- What a body tells is the account's own, or of the request alone. -/
def Body.Of (cfg : BackendSettings) (w : BackendWorld) (q : HttpRequest) : Body → Prop
  | .pasajero b => ∃ user ∈ q.account, b.Of w user
  | .resultado b => ∃ user ∈ q.account, b.Of w user
  | .pase b => ∃ user ∈ q.account, b.Of cfg.pases w user
  | .detalle b => ∃ user ∈ q.account, b.Of w user
  | .error e => e.Of q
  | .detail texto => q.undecodable = some (.form texto) ∨
    q.undecodable = some .unreadable ∧ texto = "There was an error parsing the body"
  | .interno => True
  | .despacho _ => False

/-- The credential is one of the account's passenger. -/
def CredencialDe (w : BackendWorld) (account : Option String) (id : UUID) : Prop :=
  ∃ r, w.tables.row? id = some r ∧ ∃ user ∈ account, Owns w.pasajeros user r.pasajeroId

/-- The request that a handler has answered, with the response. -/
def Handler.answered? (h : Handler) : Option (HttpRequest × HttpResponse) :=
  match h.phase with
  | .responded q r => some (q, r)
  | _ => none

variable {cfg : BackendSettings} {s : ApiSystem} {w : BackendWorld} {i : Nat} {q : HttpRequest}
  {r : HttpResponse} {user : String}

/-! ## Errors -/

/-- A class has its own text. -/
theorem ErrorClass.texto_mem (clase : ErrorClass) :
    (clase.codigo, clase.mensajePorDefecto) ∈ textosDeError := by
  cases clase <;> decide

/-- The texts of a route for invalid data, with the fields that they may name. -/
theorem Route.datos_listed (route : Route) : ∀ d ∈ route.raises.datos,
    (ErrorClass.datosInvalidos.codigo, d.1) ∈ textosDeError ∧ d.2 ⊆ route.campos := by
  cases route with
  | registrarDocumento | obtenerMiPasajero | verificarSelfie | emitirPase | obtenerPase =>
    simp only [raises, campos]
    decide

/-- A place that is parsed has the name of a field. -/
theorem Route.campo_mem {route : Route} {loc : List String} (h : loc ∈ route.parsed) :
    ".".intercalate (loc.drop 1) ∈ route.campos := by
  revert loc
  cases route with
  | registrarDocumento | obtenerMiPasajero | verificarSelfie | emitirPase | obtenerPase =>
    simp only [parsed, campos]
    decide

/-- The body of a domain error of the route has a listed text and fields of the route. -/
theorem DomainError.Of.response {e : DomainError} (h : e.Of q.route.raises) :
    (errorResponse e).body.Of cfg w q := by
  rcases h.detalles with ⟨hc, hm⟩ | ⟨hclase, d, hd, hm, hsub⟩
  · refine ⟨?_, fun campos hcampos => ?_⟩
    · rw [hm]
      exact e.clase.texto_mem
    · have hcampos : e.campos = some campos := hcampos
      rw [hc] at hcampos
      cases hcampos
  · obtain ⟨htexto, hfields⟩ := q.route.datos_listed d hd
    refine ⟨?_, fun campos hcampos => ⟨congrArg ErrorClass.codigo hclase, fun campo hcampo =>
      .inl (hfields (hsub campos hcampos hcampo))⟩⟩
    rw [hclase, hm]
    exact htexto

/-- So has that of any failure of the route. -/
theorem Failure.Of.response {f : Failure} (h : f.Of q.route.raises) :
    (failureResponse f).body.Of cfg w q := by
  cases f with
  | domain e => exact DomainError.Of.response h
  | _ => trivial

/-- What is malformed is named by its places. -/
theorem validationError_of {locs : List (List String)}
    (h : ∀ loc ∈ locs, ".".intercalate (loc.drop 1) ∈ q.route.campos ∨
      ∃ pos, q.undecodable = some (.json pos) ∧ ".".intercalate (loc.drop 1) = toString pos) :
    (validationError locs).body.Of cfg w q := by
  refine ⟨ErrorClass.datosInvalidos.texto_mem, fun campos hcampos => ⟨rfl, fun campo hcampo => ?_⟩⟩
  cases hcampos
  rw [List.mem_insertionSort, List.mem_dedup, List.mem_map] at hcampo
  obtain ⟨loc, hloc, rfl⟩ := hcampo
  exact h loc hloc

/-- And that of a refusal. -/
theorem Refusal.body_of (h : Refusal q r) : r.body.Of cfg w q := by
  cases h with
  | form hund => exact .inl hund
  | unreadable hund => exact .inr ⟨hund, rfl⟩
  | @json pos _ hund =>
    refine validationError_of fun loc hloc => .inr ⟨pos, hund, ?_⟩
    rw [List.mem_singleton.1 hloc]
    rfl
  | invalid _ hsub => exact validationError_of fun loc hloc => .inl (Route.campo_mem (hsub hloc))
  | oversized => exact ⟨ErrorClass.imagenDemasiadoGrande.texto_mem, nofun⟩
  | unauthenticated => exact ⟨List.mem_cons_self, nofun⟩

/-! ## Data -/

/-- The passenger that the services answer is shown as the account's. -/
theorem PasajeroOf.response {p : Pasajero} (h : PasajeroOf w user p) :
    (PasajeroResponse.fromDomain p).Of w user := by
  obtain ⟨row, hrow, hu, hd⟩ := h.row
  refine ⟨⟨row, hrow, hu, ?_⟩, h.progreso, h.identidad⟩
  rw [hd]
  exact ⟨rfl, rfl, rfl, rfl, fun _ hsame => enmascarar_congr hsame⟩

/-- The attempt of an outcome, its count and its identity. -/
theorem Answered.response {id : UUID} {o : VerificationOutcome}
    (ha : Answered w.verification id o) (hown : Owns w.pasajeros user id)
    (hc : Counted w.verification o) : (ResultadoVerificacionResponse.fromOutcome o).Of w user := by
  have hid : o.intento.row.pasajeroId = id := ha.pasajero
  obtain ⟨before, hpre, hrun, hrest⟩ := hc.restantes
  refine ⟨⟨o.intento.row, before, rfl, hid ▸ hown, hpre, rfl, rfl, rfl, rfl, ⟨_, hrun⟩, hrest⟩,
    fun x hx => ?_⟩
  by_cases hex : o.intento.resultado = .exitoso
  · obtain ⟨y, hy, hyp, hyi, hyo⟩ := ha.exito hex
    have hx : o.identidadId = some x := hx
    rw [hyo, Option.some.injEq] at hx
    exact ⟨y, hy, hx, hyi, hyp ▸ hown⟩
  · have hx : o.identidadId = some x := hx
    rw [ha.sigue hex] at hx
    cases hx

/-- The pass that `issue` returns is shown with the token of the account's passenger. -/
theorem PassOf.response {pass : IssuedPass} (h : PassOf cfg.pases w.credentials user pass) :
    (PaseResponse.fromIssued pass).Of cfg.pases w user := by
  obtain ⟨row, hrow, hs⟩ := h.row
  have hpas := hs.eqs.2.1
  have hcols : row = { pass.credencial.toCredencialAccesoRow with
      estado := row.estado, updatedAt := row.updatedAt } := hs.symm
  refine ⟨⟨row, hrow, hpas ▸ h.owner, ?_⟩, h.historial, h.renovar⟩
  rw [hcols]
  refine ⟨rfl, rfl, rfl, rfl, ⟨_, ?_, h.token.sign⟩, h.token.firma⟩
  have htimestamp : ∀ t : Instant, |t| < seconds (2 ^ 34) →
      t.timestamp = Binary64.truncate t.epochSeconds := by
    intro t ht
    exact (Instant.truncate_epochSeconds (abs_lt.1 ht).2 (neg_lt.1 (abs_lt.1 ht).1)).symm
  exact ⟨rfl, rfl, rfl, rfl, htimestamp _, htimestamp _⟩

/-- The credential that `detail_for_owner` returns is shown with its history. -/
theorem DetailOf.response {id pasajeroId : UUID} {c : CredencialAcceso} {hist : List Transicion}
    (h : DetailOf w.credentials id pasajeroId c) (hown : Owns w.pasajeros user pasajeroId)
    (hh : HistorialOf w.credentials c hist) :
    (DetallePaseResponse.fromDomain c hist).Of w user := by
  obtain ⟨row, hrow, hs⟩ := h.row
  obtain ⟨-, hpas, hcod, hexp⟩ := hs.eqs
  have hpas : row.pasajeroId = pasajeroId := hpas.trans h.pasajero
  have hrow : w.tables.row? c.id = some row := h.id.symm ▸ hrow
  refine ⟨⟨row, hrow, hpas ▸ hown, hcod.symm, ?_, hexp.symm⟩, hist, hh.history, rfl, hh.estado⟩
  rw [← hs]
  rfl

/-- What a route answers to an account is the account's. -/
theorem Answer.body_of (h : Answer cfg w user q.route r) (hacc : q.account = some user) :
    r.body.Of cfg w q := by
  generalize hroute : q.route = route at h
  cases h with
  | failed hf => exact Failure.Of.response (hroute ▸ hf)
  | mine hp => exact ⟨user, hacc, hp.response⟩
  | registered hp => exact ⟨user, hacc, hp.response⟩
  | verified ho ha hc => exact ⟨user, hacc, ha.response ho hc⟩
  | issued hp => exact ⟨user, hacc, hp.response⟩
  | detailed ho hd hh => exact ⟨user, hacc, hd.response ho hh⟩

/-- What `obtener_pase` answers about a credential that is not the account's. -/
theorem Answer.hidden {id : UUID} (h : Answer cfg w user (.obtenerPase id) r)
    (hno : ¬ CredencialDe w (some user) id) :
    r = errorResponse { clase := .credencialNoEncontrada } ∨ r = ⟨500, .interno, none⟩ := by
  cases h with
  | @failed _ f hf =>
    cases f with
    | domain e =>
      obtain ⟨hc, hr, hd⟩ := hf
      obtain ⟨clase, mensaje, campos, retryAfter⟩ := e
      simp only [Route.raises, List.mem_singleton] at hc
      subst hc
      rcases hd with ⟨hcam, hmen⟩ | ⟨hd, -⟩
      · cases retryAfter with
        | none => exact .inl (by rw [show campos = _ from hcam, show mensaje = _ from hmen]; rfl)
        | some n => cases hr
      · cases hd
    | _ => exact .inr rfl
  | detailed ho hd hh =>
    obtain ⟨row, hrow, hs⟩ := hd.row
    have hpas := hs.eqs.2.1.trans hd.pasajero
    exact absurd ⟨row, hrow, user, rfl, hpas ▸ ho⟩ hno

/-- **The responses are private.** In every reachable state of the API, whatever requests of other
accounts interleave, the data that a response carries are those of the passenger of the account
that asked, its errors are listed texts about the request, and an account that asks for a credential
that is not its own is told exactly what it is told for one that does not exist, unless the request
was refused before or the handler failed. -/
theorem api_private (hs : Reachable ApiSystem.Initial (apiStep cfg) s)
    (h : (s.locals i).answered? = some (q, r)) :
    r.body.Of cfg s.shared q ∧
    ∀ id, q.route = .obtenerPase id → ¬ CredencialDe s.shared q.account id →
      q.checked = .error r ∨ r = errorResponse { clase := .credencialNoEncontrada } ∨
        r = ⟨500, .interno, none⟩ := by
  have hok := api_handlers hs i
  unfold Handler.answered? at h
  unfold Handler.OK at hok
  split at h
  · next q' r' hph =>
    cases h
    rw [hph] at hok
    rcases hok with href | ⟨user, hq, ha⟩
    · exact ⟨(HttpRequest.refusal href).body_of, fun _ _ _ => .inl href⟩
    · have hacc := HttpRequest.account_of_checked hq
      refine ⟨ha.body_of hacc, fun id hroute hno => .inr ?_⟩
      rw [hacc] at hno
      rw [hroute] at ha
      exact ha.hidden hno
  · cases h

/-! ## Two accounts -/

/-- The empty API. -/
def sampleApi : ApiSystem := ⟨sampleBackend.shared, fun _ => .new⟩

theorem sampleApi_initial : sampleApi.Initial where
  backend := { sampleBackend_initial with
    locals := fun j => by
      simp only [ApiSystem.backend, Sys.hosted, sampleApi, Handler.new]
      cases (slotIndex.symm j).2 <;> rfl }
  handlers _ := rfl

/-- Handler `i` receives a request, makes `before` steps up to the call of its service, `during`
steps of that call and answers. -/
def handlerThrough (i : Nat) (q : HttpRequest) (before : Nat) (during : List ServiceAct) :
    List (Act HandlerAct Nat) :=
  .call i (.receive q) :: List.replicate before (.call i (.next false)) ++
    during.map (fun a => .call i (.service q.route.slot a)) ++ [.call i (.next false)]

/-- The document of `n`, with the photo of the sample request. -/
def sampleRegistro (n : String) : Route :=
  .registrarDocumento sampleRequest.nombreCompleto sampleRequest.tipoDocumento (some n)
    sampleRequest.fechaVencimiento (some ⟨sampleSelfie.data, some "image/jpeg"⟩)

/-- Ana registers passenger 1, verifies it and is issued credential 20; Bruno registers
passenger 2. Then both ask for credential 20. -/
def sampleAccounts : List (Act HandlerAct Nat) :=
  handlerThrough 1 { route := sampleRegistro "1.020.345", account := some "ana" } 1
      (List.replicate 5 (.registration (.next
        { pasajeroId := 1, media := some ⟨"url", "foto"⟩ }))) ++
    handlerThrough 2 { route := .verificarSelfie (some ⟨sampleSelfie.data, some "image/jpeg"⟩)
                       account := some "ana" } 3
      (List.replicate 11 (.verification (.next
        { intentoId := 11, identidadId := 12, eventId := 13, verdict := some ⟨1, 1, "vision"⟩
          media := some (⟨"url", "selfie"⟩, sampleSelfie) }))) ++
    handlerThrough 3 { route := sampleRegistro "2.040.690", account := some "bruno" } 1
      (List.replicate 5 (.registration (.next
        { pasajeroId := 2, media := some ⟨"url", "foto"⟩ }))) ++
    handlerThrough 4 { route := .emitirPase "av9380", account := some "ana" } 1
      (List.replicate 10 (.credentials (.next { jti := 20 }))) ++
    handlerThrough 5 { route := .obtenerPase 20, account := some "ana" } 3
      (List.replicate 3 (.credentials (.next {}))) ++
    handlerThrough 6 { route := .obtenerPase 20, account := some "bruno" } 3
      (List.replicate 1 (.credentials (.next {})))

/-- Who asked a handler for which credential, and the response. -/
def Handler.detalle? (h : Handler) : Option (Option String × UUID × HttpResponse) :=
  h.answered?.bind fun x => match x.1.route with
    | .obtenerPase id => some (x.1.account, id, x.2)
    | _ => none

/-- A handler that has answered about a credential has answered. -/
theorem Handler.answered_of_detalle {h : Handler} {account : Option String} {id : UUID}
    {r : HttpResponse} (hd : h.detalle? = some (account, id, r)) :
    ∃ q : HttpRequest, h.answered? = some (q, r) ∧ q.account = account ∧
      q.route = .obtenerPase id := by
  obtain ⟨⟨q, r'⟩, hans, hx⟩ := Option.bind_eq_some_iff.1 hd
  dsimp only at hx
  split at hx
  · next hroute => cases hx; exact ⟨q, hans, rfl, hroute⟩
  · cases hx

/-- Ana's pass as she is shown it. -/
def sampleDetalle : DetallePaseResponse where
  credencialId := 20
  codigoVuelo := "AV9380"
  estado := .activa
  emitidaAt := 0
  expiraAt := seconds 30
  historial := [⟨none, .emitida, true, "EMISION", 0⟩,
    ⟨some .emitida, .activa, true, "ACTIVACION", 0⟩]

/-- Ana is shown her pass, and Bruno is told that the same credential does not exist. -/
theorem api_private_accounts :
    ∃ t, run (apiStep sampleBackendSettings) sampleApi sampleAccounts = some t ∧
      sampleDetalle.Of t.shared "ana" ∧ ¬ CredencialDe t.shared (some "bruno") 20 ∧
      ∃ q r, (t.locals 6).answered? = some (q, r) ∧ r.status = 404 ∧
        (q.checked = .error r ∨ r = errorResponse { clase := .credencialNoEncontrada } ∨
          r = ⟨500, .interno, none⟩) := by
  have hrun : (run (apiStep sampleBackendSettings) sampleApi sampleAccounts).map (fun t => decide
      ((t.locals 5).detalle? = some (some "ana", 20, ⟨200, .detalle sampleDetalle, none⟩) ∧
        (t.locals 6).detalle?.map (fun x => (x.1, x.2.1, x.2.2.status)) =
          some (some "bruno", 20, 404) ∧
        (t.shared.tables.row? 20).map (·.pasajeroId) = some 1 ∧
        (t.shared.pasajeros.find? 1).map (·.clerkUserId) = some "ana")) = some true := by
    decide +kernel
  obtain ⟨t, ht, hr⟩ := Option.map_eq_some_iff.1 hrun
  obtain ⟨hana, hbruno, hrow, huser⟩ := of_decide_eq_true hr
  have hreach := Reachable.run (.start sampleApi_initial) ht
  obtain ⟨q, hq, hacc, -⟩ := Handler.answered_of_detalle hana
  obtain ⟨⟨account, id, r⟩, hd, hx⟩ := Option.map_eq_some_iff.1 hbruno
  simp only [Prod.mk.injEq] at hx
  obtain ⟨rfl, rfl, hst⟩ := hx
  obtain ⟨q', hq', hacc', hroute⟩ := Handler.answered_of_detalle hd
  have hno : ¬ CredencialDe t.shared (some "bruno") 20 := by
    rintro ⟨row, hrow', user, hu, p, hp, hpu⟩
    cases hu
    rw [hrow', Option.map_some, Option.some.injEq] at hrow
    rw [hrow] at hp
    rw [hp, Option.map_some, hpu] at huser
    exact absurd huser (by decide)
  obtain ⟨user, hu, hof⟩ := (api_private hreach hq).1
  rw [hacc] at hu
  cases hu
  exact ⟨t, ht, hof, hno, q', r, hq', hst, (api_private hreach hq').2 20 hroute (hacc' ▸ hno)⟩

end Aeropass
