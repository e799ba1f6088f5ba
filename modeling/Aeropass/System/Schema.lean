import Aeropass.System.Custody

/-!
# The database keeps its schema

The constraints of the migrations: checks of single rows (`Checks`), unique constraints, and the
foreign keys, which no service looks at before it inserts. `SchemaOK` says that all of them hold of
the tables; they hold in every reachable state, so Postgres never refuses a row for a foreign key.
-/

namespace Aeropass

open CredentialTables CredencialAcceso Runs Threads

/-! ## Constraints -/

/-- The checks of `pasajeros`. -/
structure PasajeroRow.Checks (p : PasajeroRow) : Prop where
  nombreLongitud : 2 ≤ p.documento.nombreCompleto.toList.length ∧
    p.documento.nombreCompleto.toList.length ≤ 200
  numeroFormato : matchNumero p.documento.numero.toList = true
  intentosFallidosRango : p.intentosFallidos ≤ 3

/-- The checks of `intentos_verificacion`, and the range of its `NUMERIC(4, 3)` columns. That a row
has its selfie or the instant of its deletion (`selfie_o_eliminada`) is part of the type: it has its
selfie. -/
structure IntentoVerificacionRow.Checks (a : IntentoVerificacionRow) : Prop where
  motivoSoloSiFallido : a.resultado = .fallido ↔ a.motivoFallo.isSome = true
  scoresSegunResultado : a.resultado = .noConcluyente ↔
    a.scoreLiveness.isNone = true ∧ a.scoreComparacion.isNone = true
  scoresRango : ∀ n ∈ a.scoreLiveness.toList ++ a.scoreComparacion.toList, 0 ≤ n ∧ n ≤ 1000
  numerics : ∀ n ∈ a.numerics, n.natAbs ≤ 9999

/-- The check of `identidades_digitales`. -/
def IdentidadDigital.Checks (x : IdentidadDigital) : Prop :=
  x.estado = .revocada ↔ x.revocadaAt.isSome = true

/-- The checks of `credenciales_acceso`. -/
structure CredencialAccesoRow.Checks (r : CredencialAccesoRow) : Prop where
  vigencia : seconds 30 ≤ r.expiraAt - r.emitidaAt ∧ r.expiraAt - r.emitidaAt ≤ seconds 60
  permisosNoVacios : r.permisos ≠ []
  codigoVuelo : matchCodigoVuelo r.codigoVuelo.toList = true

/-- Every row passes the checks of its table. -/
structure ChecksOK (w : BackendWorld) : Prop where
  pasajeros : ∀ {id p}, w.pasajeros.find? id = some p → p.Checks
  intentos : ∀ a ∈ w.intentos.rows, a.Checks
  identidades : ∀ x ∈ w.identidades.rows, x.Checks
  credenciales : ∀ {id r}, w.tables.row? id = some r → r.Checks

/-- The whole schema: the checks, the unique constraints and the foreign keys. The primary keys are
part of the tables' types. -/
structure SchemaOK (w : BackendWorld) : Prop extends ChecksOK w where
  ukClerkUserId : (w.pasajeros.rows.map (·.clerkUserId)).Nodup
  ukDocumento : (w.pasajeros.rows.map fun r => (r.documento.tipo, r.documento.numero)).Nodup
  ukIntentoOrigen : (w.identidades.rows.map (·.intentoOrigenId)).Nodup
  ukUnaActiva : ∀ x ∈ w.identidades.rows, ∀ y ∈ w.identidades.rows, x.activa = true →
    y.activa = true → x.pasajeroId = y.pasajeroId → x = y
  ukUnaViva : ∀ r ∈ w.tables.credenciales.rows, ∀ r' ∈ w.tables.credenciales.rows,
    r.estado.live = true → r'.estado.live = true → r.pasajeroId = r'.pasajeroId →
    r.codigoVuelo = r'.codigoVuelo → r = r'
  fkIntentoPasajero : ∀ a ∈ w.intentos.rows, (w.pasajeros.find? a.pasajeroId).isSome
  fkIdentidadPasajero : ∀ x ∈ w.identidades.rows, (w.pasajeros.find? x.pasajeroId).isSome
  fkIdentidadIntento : ∀ x ∈ w.identidades.rows, (w.intentos.find? x.intentoOrigenId).isSome
  fkCredencialPasajero : ∀ r ∈ w.tables.credenciales.rows,
    (w.pasajeros.find? r.pasajeroId).isSome
  fkCredencialIdentidad : ∀ r ∈ w.tables.credenciales.rows,
    (w.identidades.find? r.identidadId).isSome
  fkTransicionCredencial : ∀ t ∈ w.tables.transiciones,
    (w.tables.credenciales.find? t.credencialId).isSome

/-! ## What the inserts check -/

variable {cfg : BackendSettings} {s t : BackendSystem} {w : BackendWorld}

/-- `(P) = (Q)` in a check, which did not fail. -/
theorem iff_of_check {P : Prop} [Decidable P] {b : Bool} (h : ¬ (!(decide P == b)) = true) :
    P ↔ b = true := by
  cases b <;> simpa using h

/-- A passenger that the insert accepts passes the checks. -/
theorem PasajerosTable.checks_of_insertError {t : PasajerosTable} {p : PasajeroRow}
    (h : t.insertError p = none) : p.Checks := by
  unfold insertError at h
  split at h
  · cases h
  next hnombre =>
  split at h
  · cases h
  next hnumero =>
  split at h
  · cases h
  next hintentos =>
  simp only [Bool.not_eq_true', Bool.and_eq_true, decide_eq_true_eq, Bool.not_eq_false]
    at hnombre hnumero
  exact ⟨hnombre, hnumero, Nat.le_of_not_lt hintentos⟩

/-- An attempt that the insert accepts passes the checks. -/
theorem checks_of_insertIntentoError {t : Rows IntentoVerificacionRow.id}
    {a : IntentoVerificacionRow} (h : insertIntentoError t a = none) : a.Checks := by
  unfold insertIntentoError at h
  split at h
  · cases h
  split at h
  · cases h
  next hnum =>
  split at h
  · cases h
  next hmotivo =>
  split at h
  · cases h
  next hscores =>
  split at h
  · cases h
  next hrango =>
  simp only [Bool.not_eq_true, List.any_eq_false, decide_eq_true_eq, Nat.not_lt] at hnum
  have hscores := iff_of_check hscores
  rw [Bool.and_eq_true] at hscores
  simp only [Bool.not_eq_true, List.any_eq_false, Bool.or_eq_true, decide_eq_true_eq, not_or,
    Int.not_lt] at hrango
  exact ⟨iff_of_check hmotivo, hscores, hrango, hnum⟩

/-- An identity that the insert accepts passes the check. -/
theorem checks_of_insertIdentidadError {t : Rows IdentidadDigital.id} {x : IdentidadDigital}
    (h : insertIdentidadError t x = none) : x.Checks := by
  unfold insertIdentidadError at h
  split at h
  · cases h
  split at h
  · cases h
  next hrev => exact iff_of_check hrev

/-- The one insert of a transaction of `issue`. -/
theorem eq_of_add_mem {old : Option CredencialAcceso} {c c₀ d : CredencialAcceso}
    (h : .add c ∈ insertWrites old c₀ ++ [.save d]) : c = c₀ := by
  cases old <;> simpa [insertWrites] using h

/-- What an open transaction of `issue` inserts was built in it. -/
theorem IssuePhase.OK.built_of_add {cfg : PassSettings} {i : Nat} {v : World} {ph : IssuePhase}
    {tx : IssueTx} {c c' : CredencialAcceso} (h : ph.OK cfg i v)
    (hph : (∃ token, ph = .registered tx c' token) ∨ ph = .unregistered tx c')
    (hadd : .add c ∈ tx.writes) : TxOpen i v tx ∧ Built cfg i v tx c := by
  rcases hph with ⟨token, rfl⟩ | rfl
  · obtain ⟨old, c₀, htx, hb, -, hw, -⟩ := h
    obtain rfl := eq_of_add_mem (hw ▸ hadd)
    exact ⟨htx.toTxOpen, hb⟩
  · obtain ⟨old, c₀, htx, hb, hw⟩ := h
    obtain rfl := eq_of_add_mem (hw ▸ hadd)
    exact ⟨htx.toTxOpen, hb⟩

/-- What the builder gives to the transaction passes the checks of its table. -/
theorem Built.checks {cfg : PassSettings} {i : Nat} {v : World} {tx : IssueTx}
    {c : CredencialAcceso} (htx : TxOpen i v tx) (hb : Built cfg i v tx c) :
    c.toCredencialAccesoRow.Checks := by
  refine ⟨?_, List.isEmpty_eq_false_iff.1 hb.permisos, hb.codigo ▸ htx.codigo⟩
  have httl : 30 ≤ cfg.ttl ∧ cfg.ttl ≤ 60 := hb.ttl
  rw [hb.emitida, hb.expira]
  simp only [seconds, Instant]
  omega

/-- The checks are about columns of the issue. -/
theorem CredencialAccesoRow.Checks.congr {r r' : CredencialAccesoRow} (h : r.Checks)
    (hs : SameIssue r r') : r'.Checks := by
  rw [← hs]
  exact ⟨h.vigencia, h.permisosNoVacios, h.codigoVuelo⟩

/-! ## Steps -/

/-- A registration inserts a passenger that passed the checks. -/
theorem ChecksOK.register (hc : ChecksOK w) {p : PasajeroRow} {t : Rows PasajeroRow.id}
    (hp : p.Checks) (ht : w.pasajeros.insert? p = some t) :
    ChecksOK { w with pasajeros := t } where
  pasajeros {id q} hq := by
    rw [Rows.find?_insert? ht] at hq
    split at hq
    · cases hq
      exact hp
    · exact hc.pasajeros hq
  intentos := hc.intentos
  identidades := hc.identidades
  credenciales := hc.credenciales

/-- A commit of an attempt writes rows that passed the checks. -/
theorem ChecksOK.commit (hc : ChecksOK w) {v : VerificationWorld} {o : VerificationOutcome}
    {event : Option DomainEvent} {p p' : PasajeroRow}
    (h : AttemptCommit w.verification v o event p p')
    (hw : TxWrites w.verification v o p p') : ChecksOK (w.withVerification v) where
  pasajeros {id q} hq := by
    have hq : v.pasajeros.find? id = some q := hq
    rw [h.find?] at hq
    split at hq
    · cases hq
      obtain ⟨hnombre, hnumero, -⟩ := hc.pasajeros h.found
      have hdoc : p'.documento = p.documento := by rw [hw.columnas]
      exact ⟨hdoc ▸ hnombre, hdoc ▸ hnumero, hw.rango⟩
    · exact hc.pasajeros hq
  intentos a ha := by
    have ha : a ∈ v.intentos.rows := ha
    rw [h.intentos, List.mem_append, List.mem_singleton] at ha
    rcases ha with ha | rfl
    · exact hc.intentos a ha
    · exact checks_of_insertIntentoError hw.intento
  identidades x hx := by
    rcases hw.identidad x hx with hold | ⟨hins, -⟩
    · exact hc.identidades x hold
    · exact checks_of_insertIdentidadError hins
  credenciales := hc.credenciales

/-- Every step keeps the checks. -/
theorem ChecksOK.step (hr : RegistrarsOK s.registration)
    (hcr : CredentialsOK cfg.pases s.credentials) (hs : BackendOK s) (hc : ChecksOK s.shared)
    {a : Act ServiceAct Nat} (h : backendStep cfg s a = some t) : ChecksOK t.shared := by
  cases backendStep_cases h with
  | @registration i l a r hsl hreg hsh ht hother =>
    have hl : s.registration.locals i = l := congrArg Service.registrar hsl
    rw [hsh]
    rcases registrarStep_inserts hr.1 (hl ▸ hr.2 i) (hl ▸ hs.registrars i) hreg with
      hsame | ⟨p, -, -, hins, ht⟩
    · rw [BackendWorld.withRegistration, hsame]
      exact hc
    · exact hc.register (PasajerosTable.checks_of_insertError hins) ht
  | @verification i l a r hsl _ hver hsh ht hother =>
    rw [hsh]
    obtain ⟨-, ⟨hp, hi, hx, -⟩ | ⟨o, event, p, p', -, hcom, hw⟩⟩ := verifierStep_writes hver
    · have hp : r.1.pasajeros = s.shared.pasajeros := hp
      have hi : r.1.intentos = s.shared.intentos := hi
      have hx : r.1.identidades = s.shared.identidades := hx
      constructor
      · simp only [BackendWorld.withVerification, hp]
        exact hc.pasajeros
      · simp only [BackendWorld.withVerification, hi]
        exact hc.intentos
      · simp only [BackendWorld.withVerification, hx]
        exact hc.identidades
      · exact hc.credenciales
    · exact hc.commit hcom hw
  | @credentials i l a r hsl hcall hsh ht hother =>
    have hl : s.credentials.locals i = l := congrArg Service.call hsl
    rw [hsh]
    refine ⟨hc.pasajeros, hc.intentos, hc.identidades, fun {id row} hrow => ?_⟩
    rcases callStep_rows (hl ▸ hcr.2 i) hcall hrow with ⟨r₀, hr₀, hsame⟩ |
      ⟨user, codigo, tx, c, c', ph, rfl, hph, hadd, hsame⟩
    · exact (hc.credenciales hr₀).congr hsame
    · have hok : ph.OK cfg.pases i s.shared.credentials := by
        have := hcr.2 i
        rw [hl] at this
        exact this
      obtain ⟨hopen, hb⟩ := hok.built_of_add hph hadd
      exact (hb.checks hopen).congr hsame
  | @tick d he hl =>
    rw [← Option.some.inj he]
    exact ⟨hc.pasajeros, hc.intentos, hc.identidades, hc.credenciales⟩

/-! ## Reachable states -/

/-- Empty tables pass all checks. -/
theorem BackendSystem.Initial.checks (h : s.Initial) : ChecksOK s.shared := by
  constructor
  · intro id p hp
    rw [h.pasajeros] at hp
    cases hp
  · intro a ha
    rw [h.intentos] at ha
    cases ha
  · intro x hx
    rw [h.identidades] at hx
    cases hx
  · intro id r hr
    rw [h.tables] at hr
    cases hr

/-- Every row passes the checks in every reachable state. -/
theorem backend_checks (hs : Reachable BackendSystem.Initial (backendStep cfg) s) :
    ChecksOK s.shared :=
  hs.invariant_of (fun _ h => h.checks) fun _ _ _ hs hc hst =>
    hc.step (backend_registration hs) (backend_credentials hs) (backend_inv hs) hst

/-- The identities have different attempts, those of the successful ones. -/
theorem VerificationOK.nodup_origen {v : VerificationWorld} (h : VerificationOK v) :
    (v.identidades.rows.map (·.intentoOrigenId)).Nodup := by
  have hmap : v.identidades.rows.map (·.intentoOrigenId) =
      (v.intentos.rows.filter fun a => a.resultado = .exitoso).map (·.id) := by
    have heq := congrArg (List.map Prod.snd) h.origen
    simpa only [List.map_map, Function.comp_def] using heq
  rw [hmap]
  exact List.Sublist.nodup (List.Sublist.map _ List.filter_sublist) v.intentos.nodup

/-- **The database keeps its schema.** Every check, unique constraint and foreign key of the
migrations holds in every reachable state of the backend. -/
theorem backend_schema (hs : Reachable BackendSystem.Initial (backendStep cfg) s) :
    SchemaOK s.shared := by
  obtain ⟨hv, hc, -, -⟩ := backend_inv hs
  have hcred := (backend_credentials hs).1
  have hreg := (backend_registration hs).1
  have howner : ∀ x ∈ s.shared.identidades.rows,
      ∃ p, s.shared.pasajeros.find? x.pasajeroId = some p := by
    intro x hx
    obtain ⟨a, ha, -, hap, -⟩ := hv.attempt_of_identity hx
    exact hap ▸ hv.owner ha
  refine { backend_checks hs with
    ukClerkUserId := hreg.cuentas
    ukDocumento := hreg.documentos
    ukIntentoOrigen := hv.nodup_origen
    ukUnaActiva := ?_
    ukUnaViva := ?_
    fkIntentoPasajero := fun a ha => Option.isSome_iff_exists.2 (hv.owner ha)
    fkIdentidadPasajero := fun x hx => Option.isSome_iff_exists.2 (howner x hx)
    fkIdentidadIntento := ?_
    fkCredencialPasajero := ?_
    fkCredencialIdentidad := ?_
    fkTransicionCredencial := ?_ }
  · intro x hx y hy _ _ hxy
    obtain ⟨p, hp⟩ := howner x hx
    have hmem : ∀ z ∈ s.shared.identidades.rows, z.pasajeroId = x.pasajeroId →
        z ∈ s.shared.verification.identitiesOf x.pasajeroId :=
      fun z hz hzx => List.mem_filter.2 ⟨hz, decide_eq_true hzx⟩
    obtain ⟨z, b, hz, -⟩ := hv.only_identity hp (List.ne_nil_of_mem (hmem x hx rfl))
    have h1 := hmem x hx rfl
    have h2 := hmem y hy hxy.symm
    rw [hz, List.mem_singleton] at h1 h2
    rw [h1, h2]
  · intro r hr r' hr' hl hl' hp hcod
    have hrow := mem_rows.1 hr
    have hrow' := mem_rows.1 hr'
    have hid : r.id = r'.id := hcred.unaViva hrow hrow' hl hl' hp hcod
    rw [hid, hrow', Option.some.injEq] at hrow
    exact hrow.symm
  · intro x hx
    obtain ⟨a, ha, -, -, hai⟩ := hv.attempt_of_identity hx
    exact Option.isSome_iff_exists.2 ⟨a, hai ▸ Rows.find?_of_mem ha⟩
  · intro r hr
    obtain ⟨p, hp, -⟩ := (hc.credenciales (mem_rows.1 hr)).pasajero
    exact Option.isSome_iff_exists.2 ⟨p, hp⟩
  · intro r hr
    obtain ⟨x, hx, hxid, -⟩ := (hc.credenciales (mem_rows.1 hr)).identidad
    exact Option.isSome_iff_exists.2 ⟨x, hxid ▸ Rows.find?_of_mem hx⟩
  · intro t ht
    by_contra hno
    have horphan := hcred.tables.orphan (Option.not_isSome_iff_eq_none.1 hno)
    have hmem : t.toTransicion ∈ s.shared.tables.history t.credencialId :=
      List.mem_map_of_mem (List.mem_filter.2 ⟨ht, decide_eq_true rfl⟩)
    rw [show s.shared.tables.history t.credencialId = [] from horphan] at hmem
    cases hmem

/-- The schema after the journey, with one row in each table. -/
theorem backend_schema_journey :
    ∃ t, run (backendStep sampleBackendSettings) sampleBackend sampleJourney = some t ∧
      t.shared.pasajeros.rows.length = 1 ∧ t.shared.intentos.rows.length = 1 ∧
      t.shared.identidades.rows.length = 1 ∧ t.shared.tables.credenciales.rows.length = 1 ∧
      SchemaOK t.shared := by
  have hrows : (run (backendStep sampleBackendSettings) sampleBackend sampleJourney).map
      (fun t => (t.shared.pasajeros.rows.length, t.shared.intentos.rows.length,
        t.shared.identidades.rows.length, t.shared.tables.credenciales.rows.length)) =
        some (1, 1, 1, 1) := by
    decide +kernel
  obtain ⟨t, ht, hr⟩ := Option.map_eq_some_iff.1 hrows
  simp only [Prod.mk.injEq] at hr
  exact ⟨t, ht, hr.1, hr.2.1, hr.2.2.1, hr.2.2.2,
    backend_schema (Reachable.run (.start sampleBackend_initial) ht)⟩

end Aeropass
