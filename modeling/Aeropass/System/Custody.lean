import Aeropass.System.Projection
import Aeropass.Verification.Identities

/-!
# The chain of custody

Across the services every credential has its origin: its passenger registered, then passed the
attempt of which the identity was created, and then it was issued, in this order of time
(`CustodyOK`). What the services know separately is joined here: the verification's invariant inside
the backend, the sources that `issue` has read, and the dates of the rows.
-/

namespace Aeropass

open CredentialTables CredencialAcceso Runs Threads

/-! ## The invariant -/

/-- The passenger was created, then last written, and both by now. -/
def PasajeroRow.DatedBy (clock : Instant) (p : PasajeroRow) : Prop :=
  ∃ t u, p.createdAt = some t ∧ p.updatedAt = some u ∧ t ≤ u ∧ u ≤ clock

/-- The passenger that a call is about to insert was dated by the clock. -/
def Registrar.Dated (clock : Instant) : Registrar → Prop
  | .register _ (.adding _ p) => p.DatedBy clock
  | _ => True

/-- The rows of the services in the order of time, and the sources of each credential. -/
structure CustodyOK (w : BackendWorld) : Prop where
  pasajeros : ∀ {id p}, w.pasajeros.find? id = some p → p.DatedBy w.out.clock
  intentos : ∀ a ∈ w.intentos.rows, a.createdAt ≤ w.out.clock ∧
    ∀ p, w.pasajeros.find? a.pasajeroId = some p → ∃ t, p.createdAt = some t ∧ t ≤ a.createdAt
  identidades : ∀ x ∈ w.identidades.rows, x.createdAt ≤ w.out.clock ∧
    ∀ a ∈ w.intentos.rows, a.id = x.intentoOrigenId → a.createdAt ≤ x.createdAt
  credenciales : ∀ {id r}, w.tables.row? id = some r →
    Sourced w.credentials r.pasajeroId r.identidadId r.emitidaAt

/-- What is known in every reachable state, besides the invariants of the single services. -/
structure BackendOK (s : BackendSystem) : Prop where
  verification : VerificationOK s.shared.verification
  custody : CustodyOK s.shared
  registrars : ∀ i, (s.registration.locals i).Dated s.shared.out.clock
  calls : ∀ i, (s.credentials.locals i).Sourced s.shared.credentials

variable {cfg : BackendSettings} {s t : BackendSystem} {w w' : BackendWorld}

theorem PasajeroRow.DatedBy.mono {clock clock' : Instant} (hle : clock ≤ clock') {p : PasajeroRow}
    (h : p.DatedBy clock) : p.DatedBy clock' := by
  obtain ⟨t, u, ht, hu, htu, hnow⟩ := h
  exact ⟨t, u, ht, hu, htu, Int.le_trans hnow hle⟩

/-! ## The registration -/

/-- One step of a call keeps the date of its passenger. -/
theorem registrarStep_dated {w : RegistrationWorld} {l : Registrar} {a : RegistrarAct}
    {r : RegistrationWorld × Registrar} (hd : l.Dated w.clock)
    (h : registrarStep w l a = some r) : r.2.Dated w.clock := by
  unfold registrarStep at h
  split at h
  · cases h; trivial
  · obtain ⟨r', hr', rfl⟩ := Option.map_eq_some_iff.1 h
    rename_i q ph ch
    cases ph with
    | storing datos imagen id =>
      simp only [registerStep] at hr'
      split at hr'
      · cases hr'; trivial
      · split at hr' <;> cases hr'
        · trivial
        · exact ⟨_, _, rfl, rfl, Int.le_refl _, Int.le_refl _⟩
    | start | readingUser | readingDocument | adding | resolving | withIdentity =>
      simp only [registerStep] at hr'
      repeat' split at hr'
      all_goals (cases hr'; trivial)
    | done => cases hr'
  · cases h

/-- A step of a call inserts a new passenger, dated and with no attempt yet, or leaves the table. -/
theorem registrarStep_inserts {w : RegistrationWorld} {l : Registrar} {a : RegistrarAct}
    {r : RegistrationWorld × Registrar} (hu : w.pasajeros.UniqueRows) (hl : l.OK w)
    (hd : l.Dated w.clock) (h : registrarStep w l a = some r) :
    r.1.pasajeros = w.pasajeros ∨ ∃ p : PasajeroRow, p.progress = {} ∧
      p.DatedBy w.clock ∧ w.pasajeros.insertError p = none ∧
      w.pasajeros.insert? p = some r.1.pasajeros := by
  unfold registrarStep at h
  split at h
  · cases h; exact .inl rfl
  · obtain ⟨r', hr', rfl⟩ := Option.map_eq_some_iff.1 h
    rename_i q ph ch
    cases ph with
    | adding datos p =>
      obtain ⟨-, id, foto, ahora, rfl⟩ := hl
      simp only [registerStep] at hr'
      split at hr'
      · cases hr'; exact .inl rfl
      split at hr'
      · cases hr'; exact .inl rfl
      · split at hr'
        · cases hr'; exact .inl rfl
        · next hins =>
          obtain ⟨t, ht, -⟩ := PasajerosTable.insertError_none hins hu
          rw [ht] at hr'
          cases hr'
          exact .inr ⟨_, rfl, hd, hins, ht⟩
    | start | readingUser | readingDocument | storing | resolving | withIdentity =>
      simp only [registerStep] at hr'
      repeat' split at hr'
      all_goals (cases hr'; exact .inl rfl)
    | done => cases hr'
  · cases h

/-! ## What the steps do to the chain -/

/-- A lookup that found a row finds it after an insert. -/
theorem find?_of_insert? {t t' : Rows PasajeroRow.id} {p q : PasajeroRow} {id : UUID}
    (h : t.insert? p = some t') (hq : t.find? id = some q) : t'.find? id = some q := by
  rw [Rows.find?_insert? h, if_neg]
  · exact hq
  · rintro rfl
    rw [(Rows.insert?_eq_some.1 h).1] at hq
    cases hq

/-- So a registration leaves the sources of the credentials. -/
theorem sourcesKept_insert? {p : PasajeroRow} {t : Rows PasajeroRow.id}
    (h : w.pasajeros.insert? p = some t) :
    SourcesKept w.credentials { w with pasajeros := t }.credentials :=
  ⟨fun hq => ⟨_, find?_of_insert? h hq, rfl⟩, fun _ hx => hx⟩

/-- A registration adds a dated passenger, who has no attempts. -/
theorem CustodyOK.register (hc : CustodyOK w) (hv : VerificationOK w.verification)
    {p : PasajeroRow} {t : Rows PasajeroRow.id} (hd : p.DatedBy w.out.clock)
    (ht : w.pasajeros.insert? p = some t) : CustodyOK { w with pasajeros := t } where
  pasajeros {id q} hq := by
    rw [Rows.find?_insert? ht] at hq
    split at hq
    · cases hq
      exact hd
    · exact hc.pasajeros hq
  intentos a ha := by
    obtain ⟨hle, hown⟩ := hc.intentos a ha
    refine ⟨hle, fun q hq => ?_⟩
    obtain ⟨q₀, hq₀⟩ := hv.owner ha
    have hkept := find?_of_insert? ht hq₀
    rw [hq, Option.some.injEq] at hkept
    exact hown q (hkept ▸ hq₀)
  identidades := hc.identidades
  credenciales hr := (hc.credenciales hr).stable (sourcesKept_insert? ht)

/-- A commit leaves the sources of the credentials. -/
theorem AttemptCommit.sourcesKept {v : VerificationWorld} {o : VerificationOutcome}
    {event : Option DomainEvent} {p p' : PasajeroRow}
    (h : AttemptCommit w.verification v o event p p')
    (hw : TxWrites w.verification v o p p') :
    SourcesKept w.credentials (w.withVerification v).credentials where
  pasajeros {id q} hq := by
    have hfind := h.find? id
    split at hfind
    · next hid =>
      subst hid
      have hp := h.found
      rw [show w.verification.pasajeros.find? o.intento.pasajeroId = some q from hq] at hp
      cases hp
      exact ⟨p', hfind, by rw [hw.columnas]⟩
    · exact ⟨q, hfind.trans hq, rfl⟩
  identidades x hx := by
    obtain ⟨xs, hxs⟩ := h.identidades_rows
    change x ∈ v.identidades.rows
    rw [hxs]
    exact List.mem_append_left _ hx

/-- The identities after a commit: those of before, and the one of the new attempt. -/
theorem AttemptCommit.mem_identidades {v v' : VerificationWorld} {o : VerificationOutcome}
    {event : Option DomainEvent} {p p' : PasajeroRow} (h : AttemptCommit v v' o event p p')
    (hv : VerificationOK v) (hw : TxWrites v v' o p p') {x : IdentidadDigital}
    (hx : x ∈ v'.identidades.rows) :
    x ∈ v.identidades.rows ∨ insertIdentidadError v.identidades x = none ∧
      x.createdAt = v.out.clock ∧ x.intentoOrigenId = o.intento.id ∧
      x.pasajeroId = o.intento.pasajeroId := by
  rcases hw.identidad x hx with hold | ⟨hins, hclock⟩
  · exact .inl hold
  · by_cases hex : o.intento.resultado = .exitoso
    · obtain ⟨y, ev, hyp, hyi, -, hrows, -⟩ := h.created hv hex
      rw [hrows, List.mem_append, List.mem_singleton] at hx
      rcases hx with hold | rfl
      · exact .inl hold
      · exact .inr ⟨hins, hclock, hyi, hyp⟩
    · rw [(h.sigue hex).1] at hx
      exact .inl hx

/-- The id of a new attempt is free. -/
theorem TxWrites.intento_free {v v' : VerificationWorld} {o : VerificationOutcome}
    {p p' : PasajeroRow} (hw : TxWrites v v' o p p') {a : IntentoVerificacionRow}
    (ha : a ∈ v.intentos.rows) : a.id ≠ o.intento.id := by
  intro hid
  have hins := hw.intento
  have hsome : (v.intentos.find? o.intento.row.id).isSome := by
    change (v.intentos.find? o.intento.id).isSome
    rw [← hid, Rows.find?_of_mem ha]
    rfl
  unfold insertIntentoError at hins
  simp only [hsome, if_true] at hins
  repeat' split at hins
  all_goals cases hins

/-- What `record_attempt` reads is between the last write of the row and now. -/
theorem PasajeroRow.DatedBy.recordedAt {clock : Instant} {p : PasajeroRow} (h : p.DatedBy clock)
    (demora : Nat) : ∃ t, p.createdAt = some t ∧ t ≤ recordedAt clock p demora ∧
      recordedAt clock p demora ≤ clock := by
  obtain ⟨t, u, ht, hu, htu, hnow⟩ := h
  refine ⟨t, ht, ?_, ?_⟩
  · rw [Aeropass.recordedAt, hu, Option.getD_some]
    exact Int.le_trans htu (Int.le_max_right _ _)
  · rw [Aeropass.recordedAt, hu, Option.getD_some]
    exact max_le (Int.sub_le_self clock (Int.natCast_nonneg demora)) hnow

/-- A commit of an attempt dates the attempt first, then its identity. -/
theorem CustodyOK.commit (hc : CustodyOK w) (hv : VerificationOK w.verification)
    {v : VerificationWorld} {o : VerificationOutcome} {event : Option DomainEvent}
    {p p' : PasajeroRow} (h : AttemptCommit w.verification v o event p p')
    (hw : TxWrites w.verification v o p p') : CustodyOK (w.withVerification v) := by
  have hclock : v.out.clock = w.out.clock := hw.clock
  obtain ⟨demora, hfecha⟩ := hw.fecha
  have hfecha : o.intento.row.createdAt = recordedAt w.out.clock p demora := hfecha
  obtain ⟨d, hd, hafter, hbefore⟩ := (hc.pasajeros h.found).recordedAt demora
  rw [← hfecha] at hafter hbefore
  -- the passenger of the attempt was written when the attempt was made
  have hdate : ∀ {id q}, v.pasajeros.find? id = some q →
      ∃ q₀, w.pasajeros.find? id = some q₀ ∧ q.createdAt = q₀.createdAt ∧
        (q = q₀ ∨ q₀ = p ∧ q.updatedAt = some o.intento.row.createdAt) := by
    intro id q hq
    rw [h.find?] at hq
    split at hq
    · next hid =>
      cases hq
      subst hid
      exact ⟨p, h.found, by rw [hw.columnas], .inr ⟨rfl, by rw [hw.columnas]; rfl⟩⟩
    · exact ⟨q, hq, rfl, .inl rfl⟩
  have hattempt : ∀ a ∈ v.intentos.rows, a ∈ w.intentos.rows ∨ a = o.intento.row := by
    intro a ha
    rw [h.intentos, List.mem_append, List.mem_singleton] at ha
    exact ha
  constructor
  · intro id q hq
    change q.DatedBy v.out.clock
    rw [hclock]
    obtain ⟨q₀, hq₀, hcreated, rfl | ⟨rfl, hupdated⟩⟩ := hdate hq
    · exact hc.pasajeros hq₀
    · exact ⟨d, _, hcreated.trans hd, hupdated, hafter, hbefore⟩
  · intro a ha
    change a.createdAt ≤ v.out.clock ∧ ∀ q, v.pasajeros.find? a.pasajeroId = some q → _
    rw [hclock]
    rcases hattempt a ha with ha | rfl
    · obtain ⟨hle, hown⟩ := hc.intentos a ha
      refine ⟨hle, fun q hq => ?_⟩
      obtain ⟨q₀, hq₀, hcreated, -⟩ := hdate hq
      rw [hcreated]
      exact hown q₀ hq₀
    · refine ⟨hbefore, fun q hq => ?_⟩
      obtain ⟨q₀, hq₀, hcreated, -⟩ := hdate hq
      have hq₀ : w.verification.pasajeros.find? o.intento.pasajeroId = some q₀ := hq₀
      rw [h.found] at hq₀
      cases hq₀
      exact ⟨d, hcreated.trans hd, hafter⟩
  · intro x hx
    change x.createdAt ≤ v.out.clock ∧ ∀ a ∈ v.intentos.rows, _
    rw [hclock]
    rcases h.mem_identidades hv hw hx with hold | ⟨-, hnow, hori, -⟩
    · obtain ⟨hle, horigin⟩ := hc.identidades x hold
      refine ⟨hle, fun a ha hid => ?_⟩
      rcases hattempt a ha with ha | rfl
      · exact horigin a ha hid
      · -- the attempt of an old identity is an old one
        obtain ⟨a₀, ha₀, -, -, hid₀⟩ := hv.attempt_of_identity hold
        exact absurd (hid₀.trans hid.symm) (hw.intento_free ha₀)
    · refine ⟨Int.le_of_eq hnow, fun a ha hid => ?_⟩
      rcases hattempt a ha with ha | rfl
      · exact absurd (hid.trans hori) (hw.intento_free ha)
      · rw [show x.createdAt = w.out.clock from hnow]
        exact hbefore
  · intro id r hr
    exact (hc.credenciales hr).stable (h.sourcesKept hw)

/-- A step that leaves the rows of the verification leaves the chain. -/
theorem CustodyOK.quiet (hc : CustodyOK w) {v : VerificationWorld} (h : Unmoved w.verification v)
    (hclock : v.out.clock = w.out.clock) : CustodyOK (w.withVerification v) := by
  obtain ⟨hp, hi, hx, -⟩ := h
  have hp : v.pasajeros = w.pasajeros := hp
  have hi : v.intentos = w.intentos := hi
  have hx : v.identidades = w.identidades := hx
  constructor
  · simp only [BackendWorld.withVerification, hp, hclock]
    exact hc.pasajeros
  · simp only [BackendWorld.withVerification, hp, hi, hclock]
    exact hc.intentos
  · simp only [BackendWorld.withVerification, hx, hi, hclock]
    exact hc.identidades
  · intro id r hr
    have hk : SourcesKept w.credentials (w.withVerification v).credentials :=
      .of_eq hp (congrArg Rows.rows hx)
    exact (hc.credenciales hr).stable hk

/-- A step of the credential services inserts credentials with their sources. -/
theorem CustodyOK.pass {cfg : PassSettings} {i : Nat} (hc : CustodyOK w) {l : Call} {a : CallAct}
    {r : World × Call} (hok : l.OK cfg i w.credentials) (hl : l.Sourced w.credentials)
    (h : callStep cfg i w.credentials l a = some r) : CustodyOK (w.withCredentials r.1) := by
  refine ⟨hc.pasajeros, hc.intentos, hc.identidades, fun {id row} hrow => ?_⟩
  have hsourced : ∀ {r₀ : CredencialAccesoRow}, SameIssue r₀ row →
      Sourced w.credentials r₀.pasajeroId r₀.identidadId r₀.emitidaAt →
      Sourced (w.withCredentials r.1).credentials row.pasajeroId row.identidadId row.emitidaAt := by
    intro r₀ hs hr₀
    have hk : SourcesKept w.credentials (w.withCredentials r.1).credentials := .of_eq rfl rfl
    rw [← hs]
    exact hr₀.stable hk
  rcases callStep_rows hok h hrow with ⟨r₀, hr₀, hs⟩ |
    ⟨user, codigo, tx, c, c', ph, rfl, hph, hadd, hs⟩
  · exact hsourced hs (hc.credenciales hr₀)
  · refine hsourced hs ?_
    rcases hph with ⟨token, rfl⟩ | rfl
    · exact IssueTx.Sourced.adds hl c hadd
    · exact IssueTx.Sourced.adds hl c hadd

/-- Time passing keeps the chain. -/
theorem CustodyOK.tick {d : Nat} (hc : CustodyOK w) (h : backendEnvStep w d = some w') :
    CustodyOK w' := by
  cases h
  have hle : w.out.clock ≤ w.out.clock + d := by
    simp only [Instant]
    omega
  constructor
  · intro id p hp
    exact (hc.pasajeros hp).mono hle
  · intro a ha
    obtain ⟨hd, hown⟩ := hc.intentos a ha
    exact ⟨Int.le_trans hd hle, hown⟩
  · intro x hx
    obtain ⟨hd, horigin⟩ := hc.identidades x hx
    exact ⟨Int.le_trans hd hle, horigin⟩
  · intro id r hr
    have hk : SourcesKept w.credentials
        { w with out := { w.out with clock := w.out.clock + d } }.credentials := .of_eq rfl rfl
    exact (hc.credenciales hr).stable hk

/-! ## Reachable states -/

/-- What is dated before an instant is dated before later ones. -/
theorem Registrar.Dated.mono {l : Registrar} {t t' : Instant} (hle : t ≤ t') (h : l.Dated t) :
    l.Dated t' := by
  cases l with
  | idle => trivial
  | register q ph =>
    cases ph with
    | adding datos p => exact PasajeroRow.DatedBy.mono hle h
    | start | readingUser | readingDocument | storing | resolving | withIdentity | done => trivial

/-- A step of a service that is not the registration and leaves time keeps its calls dated. -/
theorem BackendOK.dated_of (hs : BackendOK s) (hclock : s.shared.out.clock ≤ t.shared.out.clock)
    (hl : ∀ j, (t.locals j).registrar = (s.locals j).registrar) (i : Nat) :
    (t.registration.locals i).Dated t.shared.out.clock := by
  have hi : t.registration.locals i = s.registration.locals i := hl i
  rw [hi]
  exact (hs.registrars i).mono hclock

/-- A step of another service that keeps the sources keeps what the credential services know. -/
theorem BackendOK.calls_of (hs : BackendOK s)
    (hk : SourcesKept s.shared.credentials t.shared.credentials)
    (hl : ∀ j, (t.locals j).call = (s.locals j).call) (i : Nat) :
    (t.credentials.locals i).Sourced t.shared.credentials := by
  have hi : t.credentials.locals i = s.credentials.locals i := hl i
  rw [hi]
  exact (hs.calls i).stable hk

/-- Every step keeps the chain. -/
theorem BackendOK.step (hr : RegistrarsOK s.registration)
    (hcr : CredentialsOK cfg.pases s.credentials)
    (hs : BackendOK s) {a : Act ServiceAct Nat} (h : backendStep cfg s a = some t) :
    BackendOK t := by
  cases backendStep_cases h with
  | @registration i l a r hsl hreg hsh ht hother =>
    have hl : s.registration.locals i = l := congrArg Service.registrar hsl
    have hcalls : ∀ j, (t.locals j).call = (s.locals j).call :=
      Sys.forall_locals (fun j l => l.call = (s.locals j).call) (by rw [ht, hsl]; rfl) hother
        fun _ _ => rfl
    have hdated : ∀ j, (t.registration.locals j).Dated t.shared.out.clock := by
      have hclock : t.shared.out.clock = s.shared.out.clock := by rw [hsh]; rfl
      rw [hclock]
      refine Sys.forall_locals (t := t) (fun j l => l.registrar.Dated s.shared.out.clock) ?_ hother
        fun j _ => hs.registrars j
      rw [ht]
      exact registrarStep_dated (hl ▸ hs.registrars i) hreg
    rcases registrarStep_inserts hr.1 (hl ▸ hr.2 i) (hl ▸ hs.registrars i) hreg with
      hsame | ⟨p, hprog, hd, -, hins⟩
    · have hsame : t.shared = s.shared := by
        rw [hsh, BackendWorld.withRegistration, hsame]
        rfl
      exact ⟨hsame ▸ hs.verification, hsame ▸ hs.custody, hdated,
        hs.calls_of (hsame ▸ .of_eq rfl rfl) hcalls⟩
    · have hsh : t.shared = { s.shared with pasajeros := r.1.pasajeros } := hsh
      refine ⟨?_, ?_, hdated, hs.calls_of ?_ hcalls⟩
      · rw [hsh]
        exact (hs.verification.register hprog hins).1
      · rw [hsh]
        exact hs.custody.register hs.verification hd hins
      · rw [hsh]
        exact sourcesKept_insert? hins
  | @verification i l a r hsl _ hver hsh ht hother =>
    have hcalls : ∀ j, (t.locals j).call = (s.locals j).call :=
      Sys.forall_locals (fun j l => l.call = (s.locals j).call) (by rw [ht, hsl]; rfl) hother
        fun _ _ => rfl
    have hregs : ∀ j, (t.locals j).registrar = (s.locals j).registrar :=
      Sys.forall_locals (fun j l => l.registrar = (s.locals j).registrar) (by rw [ht, hsl]; rfl)
        hother fun _ _ => rfl
    obtain ⟨hclock, hq | ⟨o, event, p, p', -, hc, hw⟩⟩ := verifierStep_writes hver
    · have hk : SourcesKept s.shared.credentials t.shared.credentials := by
        rw [hsh]
        exact .of_eq hq.pasajeros (congrArg Rows.rows hq.identidades)
      refine ⟨?_, ?_, hs.dated_of ?_ hregs, hs.calls_of hk hcalls⟩
      · rw [hsh]
        exact (hq.ok hs.verification).1
      · rw [hsh]
        exact hs.custody.quiet hq hclock
      · rw [hsh]
        exact Int.le_of_eq hclock.symm
    · refine ⟨?_, ?_, hs.dated_of ?_ hregs, hs.calls_of ?_ hcalls⟩
      · rw [hsh]
        exact (hc.ok hs.verification).1
      · rw [hsh]
        exact hs.custody.commit hs.verification hc hw
      · rw [hsh]
        exact Int.le_of_eq hclock.symm
      · rw [hsh]
        exact hc.sourcesKept hw
  | @credentials i l a r hsl hcall hsh ht hother =>
    have hl : s.credentials.locals i = l := congrArg Service.call hsl
    have hregs : ∀ j, (t.locals j).registrar = (s.locals j).registrar :=
      Sys.forall_locals (fun j l => l.registrar = (s.locals j).registrar) (by rw [ht, hsl]; rfl)
        hother fun _ _ => rfl
    obtain ⟨h1, h2, -⟩ := callStep_reads hcall
    have hx : ∀ x ∈ s.shared.credentials.identidades, x.createdAt ≤ s.shared.credentials.clock :=
      fun x hx => (hs.custody.identidades x hx).1
    have hown := callStep_sourced hx (hl ▸ hs.calls i) hcall
    refine ⟨?_, ?_, hs.dated_of ?_ hregs, ?_⟩
    · rw [hsh]
      exact hs.verification
    · rw [hsh]
      exact hs.custody.pass (hl ▸ hcr.2 i) (hl ▸ hs.calls i) hcall
    · rw [hsh]
      exact Int.le_refl _
    · have hk : SourcesKept s.shared.credentials t.shared.credentials := by
        rw [hsh]
        exact .of_eq rfl rfl
      have hk' : SourcesKept r.1 t.shared.credentials := by
        rw [hsh]
        exact .of_eq h1.symm h2.symm
      refine Sys.forall_locals (t := t) (fun j l => l.call.Sourced t.shared.credentials) ?_ hother
        fun j _ => (hs.calls j).stable hk
      rw [ht]
      exact hown.stable hk'
  | @tick d he hl =>
    have hclock : s.shared.out.clock ≤ t.shared.out.clock := by
      rw [← Option.some.inj he]
      simp only [Instant]
      omega
    have hq : Unmoved s.shared.verification t.shared.verification := by
      rw [← Option.some.inj he]
      exact ⟨rfl, rfl, rfl, rfl⟩
    refine ⟨(hq.ok hs.verification).1, hs.custody.tick he,
      hs.dated_of hclock fun j => by rw [hl], hs.calls_of ?_ fun j => by rw [hl]⟩
    rw [← Option.some.inj he]
    exact .of_eq rfl rfl

/-- The invariant holds of an empty backend. -/
theorem BackendSystem.Initial.ok (h : s.Initial) : BackendOK s := by
  have hv : VerificationSystem.Initial ⟨s.shared.verification, fun _ => .idle⟩ :=
    ⟨h.pasajeros, h.intentos, h.identidades, h.outbox, rfl⟩
  have hregs : s.registration.locals = fun _ => .idle := h.registration.2
  have hcalls : s.credentials.locals = fun _ => .idle := h.credentials.2.2.2.2
  refine ⟨hv.ok.1, ⟨fun hp => ?_, fun a ha => ?_, fun x hx => ?_, fun hr => ?_⟩, fun i => ?_,
    fun i => ?_⟩
  · rw [h.pasajeros] at hp
    cases hp
  · rw [h.intentos] at ha
    cases ha
  · rw [h.identidades] at hx
    cases hx
  · rw [h.tables] at hr
    cases hr
  · rw [hregs]
    trivial
  · rw [hcalls]
    trivial

/-- **The invariant of the backend.** -/
theorem backend_inv (hs : Reachable BackendSystem.Initial (backendStep cfg) s) : BackendOK s :=
  hs.invariant_of (fun _ h => h.ok) fun _ _ _ hs hok hst =>
    hok.step (backend_registration hs) (backend_credentials hs) hst

/-- The origin of a credential: its passenger, the identity and the attempt. -/
structure CustodyOf (w : BackendWorld) (r : CredencialAccesoRow) (p : PasajeroRow)
    (x : IdentidadDigital) (a : IntentoVerificacionRow) : Prop where
  pasajero : w.pasajeros.find? r.pasajeroId = some p
  verificado : p.estado = .verificado
  documento : p.documento.vigenteEn r.emitidaAt.date = true
  identidad : w.identidades.find? r.identidadId = some x
  activa : getActive w.identidades.rows p.id = some x
  intento : w.intentos.find? x.intentoOrigenId = some a
  exitoso : a.pasajeroId = p.id ∧ a.resultado = .exitoso
  evento : ∃! e, e ∈ w.out.outbox.rows ∧ Names e.event x
  registrado : ∃ t, p.createdAt = some t ∧ t ≤ a.createdAt
  creada : a.createdAt ≤ x.createdAt
  emitida : x.createdAt ≤ r.emitidaAt

/-- **The chain of custody.** In every reachable state of the backend every credential has its
verified passenger with a document valid on the day of its emission, the ACTIVA identity of that
passenger with its event, and the successful attempt of that identity, in their order of time. -/
theorem backend_custody (hs : Reachable BackendSystem.Initial (backendStep cfg) s) {id : UUID}
    {r : CredencialAccesoRow} (hr : s.shared.tables.row? id = some r) :
    ∃ p x a, CustodyOf s.shared r p x a := by
  obtain ⟨hv, hc, -, -⟩ := backend_inv hs
  obtain ⟨⟨p, hp, hvig⟩, x, hx, hxid, hxp, hxt⟩ := hc.credenciales hr
  have hp : s.shared.pasajeros.find? r.pasajeroId = some p := hp
  have hx : x ∈ s.shared.identidades.rows := hx
  have hpid : p.id = r.pasajeroId := Rows.find?_key hp
  obtain ⟨a, ha, hex, hap, hai⟩ := hv.attempt_of_identity hx
  have hmem : x ∈ s.shared.verification.identitiesOf r.pasajeroId :=
    List.mem_filter.2 ⟨hx, decide_eq_true hxp⟩
  obtain ⟨y, b, hy, hyact, -⟩ := hv.only_identity hp (List.ne_nil_of_mem hmem)
  have hactive : getActive s.shared.identidades.rows p.id = some x := by
    cases hg : getActive s.shared.identidades.rows p.id with
    | none =>
      have hno := List.find?_eq_none.1 hg x hx
      rw [hpid, hxp, hv.activa hx] at hno
      simp at hno
    | some z =>
      have hz := List.find?_some hg
      simp only [Bool.and_eq_true, decide_eq_true_eq] at hz
      have hzmem : z ∈ s.shared.verification.identitiesOf r.pasajeroId :=
        List.mem_filter.2 ⟨List.mem_of_find?_eq_some hg, decide_eq_true (hz.1.trans hpid)⟩
      rw [hy, List.mem_singleton] at hmem hzmem
      rw [hmem, hzmem]
  obtain ⟨hle, hori⟩ := hc.identidades x hx
  have hdate : a.createdAt ≤ x.createdAt := hori a ha hai
  refine ⟨p, x, a, ?_⟩
  exact {
    pasajero := hp
    verificado := (hv.verificado_iff hp).2 (List.ne_nil_of_mem hmem)
    documento := hvig
    identidad := hxid ▸ Rows.find?_of_mem hx
    activa := hactive
    intento := hai ▸ Rows.find?_of_mem ha
    exitoso := ⟨hap.trans (hxp.trans hpid.symm), hex⟩
    evento := hv.event_of_identity hx
    registrado := (hc.intentos a ha).2 p (by rw [hap, hxp]; exact hp)
    creada := hdate
    emitida := hxt }

/-- The credential of the journey, with its origin. -/
theorem backend_custody_journey :
    ∃ t, run (backendStep sampleBackendSettings) sampleBackend sampleJourney = some t ∧
      ∃ r, t.shared.tables.row? 20 = some r ∧ ∃ p x a, CustodyOf t.shared r p x a := by
  have hrow : (run (backendStep sampleBackendSettings) sampleBackend sampleJourney).map
      (fun t => (t.shared.tables.row? 20).isSome) = some true := by
    decide +kernel
  obtain ⟨t, ht, hr⟩ := Option.map_eq_some_iff.1 hrow
  obtain ⟨r, hr⟩ := Option.isSome_iff_exists.1 hr
  exact ⟨t, ht, r, hr, backend_custody (Reachable.run (.start sampleBackend_initial) ht) hr⟩

end Aeropass
