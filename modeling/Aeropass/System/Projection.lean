import Aeropass.Credentials.Reach
import Aeropass.Registration.Answers
import Aeropass.System.World
import Aeropass.Verification.Attempts

/-!
# The services' own models are sound for the whole

Seen by the credential services, whatever the backend does is a run of their own model: the steps of
the other services are steps of its environment. The same holds of the registration. So what was
proved of every reachable state of the two models holds in every reachable state of the whole.
-/

namespace Aeropass

open Runs Threads

variable {cfg : BackendSettings} {s t : BackendSystem}

/-! ## The parts -/

/-- The calls of the credential services, every other call idle. -/
def Service.call : Service → Call
  | .credentials l => l
  | .registration _ | .verification _ => .idle

/-- The calls of the registration, every other call idle. -/
def Service.registrar : Service → Registrar
  | .registration l => l
  | .verification _ | .credentials _ => .idle

/-- The credential services in the backend. -/
def BackendSystem.credentials (s : BackendSystem) : CredentialSystem :=
  ⟨s.shared.credentials, fun i => (s.locals i).call⟩

/-- The registration in the backend. -/
def BackendSystem.registration (s : BackendSystem) : RegistrationSystem :=
  ⟨s.shared.registration, fun i => (s.locals i).registrar⟩

/-- The acts of the calls of the credential services. -/
def credentialAct : Act ServiceAct Nat → Option (Nat × CallAct)
  | .call i (.credentials a) => some (i, a)
  | _ => none

/-- The acts of the calls of the registration. -/
def registrarAct : Act ServiceAct Nat → Option (Nat × RegistrarAct)
  | .call i (.registration a) => some (i, a)
  | _ => none

/-- The credential services of an empty backend are empty. -/
theorem BackendSystem.Initial.credentials (h : s.Initial) : s.credentials.Initial := by
  refine ⟨h.tables, h.redis, h.locks, h.issuer, funext fun i => ?_⟩
  have := h.locals i
  unfold BackendSystem.credentials Service.call
  dsimp only
  split
  · next hl => rw [hl] at this; exact this
  · rfl
  · rfl

/-- So is its registration. -/
theorem BackendSystem.Initial.registration (h : s.Initial) : s.registration.Initial := by
  refine ⟨h.pasajeros, funext fun i => ?_⟩
  have := h.locals i
  unfold BackendSystem.registration Service.registrar
  dsimp only
  split
  · next hl => rw [hl] at this; exact this
  · rfl
  · rfl

/-! ## What a step is -/

/-- What a step of the backend is: of a call of one of the services on its view, or of the
clock. -/
inductive BackendStep (cfg : BackendSettings) (s t : BackendSystem) :
    Act ServiceAct Nat → Prop
  | registration {i l a r} : s.locals i = .registration l →
    registrarStep s.shared.registration l a = some r →
    t.shared = s.shared.withRegistration r.1 → t.locals i = .registration r.2 →
    (∀ j, j ≠ i → t.locals j = s.locals j) → BackendStep cfg s t (.call i (.registration a))
  | verification {i l a r} : s.locals i = .verification l →
    (∀ id, l.locksNext = some id → s.shared.locks (.pasajero id) = none) →
    verifierStep cfg.verificacion s.shared.verification l a = some r →
    t.shared = s.shared.withVerification r.1 → t.locals i = .verification r.2 →
    (∀ j, j ≠ i → t.locals j = s.locals j) → BackendStep cfg s t (.call i (.verification a))
  | credentials {i l a r} : s.locals i = .credentials l →
    callStep cfg.pases i s.shared.credentials l a = some r →
    t.shared = s.shared.withCredentials r.1 → t.locals i = .credentials r.2 →
    (∀ j, j ≠ i → t.locals j = s.locals j) → BackendStep cfg s t (.call i (.credentials a))
  | tick {d} : backendEnvStep s.shared d = some t.shared → t.locals = s.locals →
    BackendStep cfg s t (.env d)

/-- The steps of the backend, by the service that moves. -/
theorem backendStep_cases {a : Act ServiceAct Nat} (h : backendStep cfg s a = some t) :
    BackendStep cfg s t a := by
  rcases Program.step_cases h with ⟨i, b, r, rfl, hc, hsh, hi, hother⟩ | ⟨d, rfl, he, hl⟩
  · have hc : serviceStep cfg i s.shared (s.locals i) b = some r := hc
    generalize hloc : s.locals i = l at hc
    unfold serviceStep at hc
    split at hc
    · obtain ⟨r', hr', rfl⟩ := Option.map_eq_some_iff.1 hc
      exact .registration hloc hr' hsh hi hother
    · split at hc
      · cases hc
      next hfree =>
      obtain ⟨r', hr', rfl⟩ := Option.map_eq_some_iff.1 hc
      refine .verification hloc (fun id hid => ?_) hr' hsh hi hother
      rw [hid] at hfree
      exact Classical.not_not.1 hfree
    · obtain ⟨r', hr', rfl⟩ := Option.map_eq_some_iff.1 hc
      exact .credentials hloc hr' hsh hi hother
    · cases hc
  · exact .tick he hl

/-! ## The credential services -/

/-- A step that leaves their own state is one of their environment. -/
theorem credentialStep_others (hcred : t.shared.credentials =
      { s.shared.credentials with
        pasajeros := t.shared.pasajeros, identidades := t.shared.identidades.rows })
    (hl : ∀ j, (t.locals j).call = (s.locals j).call) :
    credentialStep cfg.pases s.credentials
      (.env (.others t.shared.pasajeros t.shared.identidades.rows)) = some t.credentials := by
  have hloc : t.credentials.locals = s.credentials.locals := funext hl
  change some (⟨_, s.credentials.locals⟩ : CredentialSystem) = some ⟨t.shared.credentials, _⟩
  rw [hcred, ← hloc]
  rfl

/-- What a step of the backend is for the credential services. -/
theorem backendStep_credentials {a : Act ServiceAct Nat} (h : backendStep cfg s a = some t) :
    ∃ b, credentialStep cfg.pases s.credentials b = some t.credentials ∧
      b.call? = credentialAct a := by
  cases backendStep_cases h with
  | @registration i l a r hs hr hsh ht hother =>
    refine ⟨_, credentialStep_others ?_ ?_, rfl⟩
    · rw [hsh]
      rfl
    · exact Sys.forall_locals (fun j l => l.call = (s.locals j).call) (by rw [ht, hs]; rfl) hother
        fun _ _ => rfl
  | @verification i l a r hs _ hr hsh ht hother =>
    refine ⟨_, credentialStep_others ?_ ?_, rfl⟩
    · have hc := (verifierStep_writes hr).1
      rw [hsh]
      simp only [BackendWorld.credentials, BackendWorld.withVerification, hc]
      rfl
    · exact Sys.forall_locals (fun j l => l.call = (s.locals j).call) (by rw [ht, hs]; rfl) hother
        fun _ _ => rfl
  | @credentials i l a r hs hr hsh ht hother =>
    refine ⟨.call i a, ?_, rfl⟩
    have hcall : (credentialProgram cfg.pases).call i s.credentials.shared
        (s.credentials.locals i) a = some r := by
      simp only [BackendSystem.credentials, hs, Service.call]
      exact hr
    obtain ⟨u, hu, hus, hui, huo⟩ := Program.step_of_call hcall
    rw [credentialStep, hu]
    have hshared : u.shared = t.credentials.shared := by
      obtain ⟨h1, h2, h3⟩ := callStep_reads hr
      rw [hus, BackendSystem.credentials, hsh]
      simp only [BackendWorld.credentials, BackendWorld.withCredentials] at h1 h2 h3 ⊢
      rw [← h1, ← h2, ← h3]
    have hlocals : u.locals = t.credentials.locals := by
      refine funext (Sys.forall_locals (fun j l => l = (t.locals j).call) ?_ huo fun j hj => ?_)
      · rw [hui, ht]
        rfl
      · rw [hother j hj]
        rfl
    cases u
    cases hshared
    cases hlocals
    rfl
  | @tick d he hl =>
    refine ⟨.env (.tick d), ?_, rfl⟩
    have hsh : t.shared.credentials =
        { s.shared.credentials with clock := s.shared.credentials.clock + d } := by
      rw [← Option.some.inj he]
      rfl
    change some (⟨_, s.credentials.locals⟩ : CredentialSystem) = some ⟨t.shared.credentials, _⟩
    rw [hsh, BackendSystem.credentials, hl]

/-! ## The registration -/

/-- A commit adds at most one identity. -/
theorem AttemptCommit.identidades_rows {w w' : VerificationWorld} {o : VerificationOutcome}
    {event : Option DomainEvent} {p p' : PasajeroRow} (h : AttemptCommit w w' o event p p') :
    ∃ xs, w'.identidades.rows = w.identidades.rows ++ xs := by
  by_cases hex : o.intento.resultado = .exitoso
  · have hx := h.exito hex
    split at hx
    · exact ⟨[], by rw [hx.1, List.append_nil]⟩
    · obtain ⟨x, ev, -, -, -, hrows, -⟩ := hx
      exact ⟨[x], hrows⟩
  · exact ⟨[], by rw [(h.sigue hex).1, List.append_nil]⟩

/-- New identities are steps of the environment. -/
theorem run_identify (s : RegistrationSystem) (xs : List IdentidadDigital) :
    run registrationStep s (xs.map fun x => .env (.identify x)) = some
      ⟨{ s.shared with identidades := s.shared.identidades ++ xs }, s.locals⟩ := by
  induction xs generalizing s with
  | nil => rw [List.map_nil, run_nil, List.append_nil]
  | cons x xs ih =>
    change run registrationStep
      ⟨{ s.shared with identidades := s.shared.identidades ++ [x] }, s.locals⟩ _ = _
    rw [ih]
    simp only [List.append_assoc, List.singleton_append]

/-- What `save` of a transaction does to the table is the environment's `verify`. -/
theorem savePasajero_eq_modify {w w' : VerificationWorld} {o : VerificationOutcome}
    {event : Option DomainEvent} {p p' : PasajeroRow} (h : AttemptCommit w w' o event p p')
    (hw : TxWrites w w' o p p') :
    w'.pasajeros = w.pasajeros.modify o.intento.pasajeroId (fun r => { r with
      estado := p'.estado, intentosFallidos := p'.intentosFallidos
      updatedAt := some o.intento.createdAt }) fun _ => rfl := by
  rw [h.pasajeros, savePasajero, h.id.trans (Rows.find?_key h.found)]
  refine Rows.modify_congr _ _ h.found ?_
  conv_lhs => rw [hw.columnas]

/-- What a step of the backend is for the registration: one of its own, or what its environment
does at a commit of the verification. -/
theorem backendStep_registration {a : Act ServiceAct Nat} (h : backendStep cfg s a = some t) :
    ∃ bs, run registrationStep s.registration bs = some t.registration ∧
      bs.filterMap Act.call? = (registrarAct a).toList := by
  have hstay : t.shared.registration = s.shared.registration →
      (∀ j, (t.locals j).registrar = (s.locals j).registrar) → registrarAct a = none →
      ∃ bs, run registrationStep s.registration bs = some t.registration ∧
        bs.filterMap Act.call? = (registrarAct a).toList := by
    intro hsh hl ha
    refine ⟨[], ?_, by rw [ha]; rfl⟩
    rw [run_nil, BackendSystem.registration, BackendSystem.registration, hsh]
    simp only [hl]
  cases backendStep_cases h with
  | @registration i l a r hs hr hsh ht hother =>
    refine ⟨[.call i a], ?_, rfl⟩
    have hcall : registrationProgram.call i s.registration.shared (s.registration.locals i) a =
        some r := by
      simp only [BackendSystem.registration, hs, Service.registrar]
      exact hr
    obtain ⟨u, hu, hus, hui, huo⟩ := Program.step_of_call hcall
    rw [run_singleton, registrationStep, hu]
    have hshared : u.shared = t.registration.shared := by
      rw [hus, BackendSystem.registration, hsh]
      exact registrarStep_reads hr
    have hlocals : u.locals = t.registration.locals := by
      refine funext
        (Sys.forall_locals (fun j l => l = (t.locals j).registrar) ?_ huo fun j hj => ?_)
      · rw [hui, ht]
        rfl
      · rw [hother j hj]
        rfl
    cases u
    cases hshared
    cases hlocals
    rfl
  | @verification i l a r hs _ hr hsh ht hother =>
    have hl : ∀ j, (t.locals j).registrar = (s.locals j).registrar :=
      Sys.forall_locals (fun j l => l.registrar = (s.locals j).registrar) (by rw [ht, hs]; rfl)
        hother fun _ _ => rfl
    obtain ⟨hclock, hq | ⟨o, event, p, p', -, hc, hw⟩⟩ := verifierStep_writes hr
    · refine hstay ?_ hl rfl
      rw [hsh]
      simp only [BackendWorld.registration, BackendWorld.withVerification, hq.pasajeros,
        hq.identidades, hclock]
      rfl
    · obtain ⟨xs, hxs⟩ := hc.identidades_rows
      refine ⟨.env (.verify o.intento.pasajeroId p'.estado p'.intentosFallidos
        o.intento.createdAt) :: xs.map fun x => .env (.identify x), ?_, ?_⟩
      · change run registrationStep ⟨{ s.shared.registration with
          pasajeros := s.shared.pasajeros.modify _ _ _ }, s.registration.locals⟩ _ = _
        rw [run_identify]
        have hp := savePasajero_eq_modify hc hw
        simp only [BackendSystem.registration, hsh, BackendWorld.registration,
          BackendWorld.withVerification, hl, hclock, hxs, hp]
        rfl
      · rw [List.filterMap_cons_none rfl, List.filterMap_map]
        simp [Function.comp_def, Act.call?, registrarAct]
  | @credentials i l a r hs hr hsh ht hother =>
    refine hstay (by rw [hsh]; rfl) ?_ rfl
    exact Sys.forall_locals (fun j l => l.registrar = (s.locals j).registrar)
      (by rw [ht, hs]; rfl) hother fun _ _ => rfl
  | @tick d he hl =>
    refine ⟨[.env (.tick d)], ?_, rfl⟩
    have hsh : t.shared.registration =
        { s.shared.registration with clock := s.shared.registration.clock + d } := by
      rw [← Option.some.inj he]
      rfl
    change some (⟨_, s.registration.locals⟩ : RegistrationSystem) =
      some ⟨t.shared.registration, _⟩
    rw [hsh, BackendSystem.registration, hl]

/-! ## Runs -/

/-- A run of the backend is a run of the credential services' own model, with the same acts of
their calls in the same order. -/
theorem backendRun_credentials {as : List (Act ServiceAct Nat)}
    (h : run (backendStep cfg) s as = some t) :
    ∃ bs, run (credentialStep cfg.pases) s.credentials bs = some t.credentials ∧
      bs.filterMap Act.call? = as.filterMap credentialAct := by
  refine run_project BackendSystem.credentials (fun s a t hst => ?_) h
  obtain ⟨b, hb, hv⟩ := backendStep_credentials hst
  refine ⟨[b], by rw [run_singleton]; exact hb, ?_⟩
  rw [← hv]
  cases hb' : b.call? with
  | none => rw [List.filterMap_cons_none hb']; rfl
  | some v => rw [List.filterMap_cons_some hb']; rfl

/-- And one of the registration's. -/
theorem backendRun_registration {as : List (Act ServiceAct Nat)}
    (h : run (backendStep cfg) s as = some t) :
    ∃ bs, run registrationStep s.registration bs = some t.registration ∧
      bs.filterMap Act.call? = as.filterMap registrarAct :=
  run_project BackendSystem.registration (fun _ _ _ hst => backendStep_registration hst) h

/-- The invariant of the credential services holds in every reachable state of the backend. -/
theorem backend_credentials (hs : Reachable BackendSystem.Initial (backendStep cfg) s) :
    CredentialsOK cfg.pases s.credentials := by
  refine credential_inv (hs.project _ (fun _ h => h.credentials) fun h => ?_)
  obtain ⟨bs, hbs, -⟩ := backendRun_credentials h
  exact ⟨bs, hbs⟩

/-- So does that of the registration. -/
theorem backend_registration (hs : Reachable BackendSystem.Initial (backendStep cfg) s) :
    RegistrarsOK s.registration := by
  refine registration_relyGuarantee.reachable (fun _ h => h.ok)
    (hs.project _ (fun _ h => h.registration) fun h => ?_)
  obtain ⟨bs, hbs, -⟩ := backendRun_registration h
  exact ⟨bs, hbs⟩

/-! ## A journey -/

/-- The empty backend: call 1 is of the registration, call 2 of the verification, the others are of
the credential services. -/
def sampleBackend : BackendSystem where
  shared :=
    { pasajeros := .empty, intentos := .empty, identidades := .empty
      out := ⟨.empty, 0, []⟩
      tables := .empty
      redis := fun _ => none
      locks := fun _ => none
      issuer := fun _ => none }
  locals := fun i =>
    if i = 1 then .registration .idle else if i = 2 then .verification .idle else .credentials .idle

/-- The sample starts empty. -/
theorem sampleBackend_initial : sampleBackend.Initial where
  pasajeros := rfl
  intentos := rfl
  identidades := rfl
  outbox := rfl
  accepted := rfl
  tables := rfl
  redis := rfl
  locks := rfl
  issuer := rfl
  locals i := by
    unfold sampleBackend
    dsimp only
    split
    · rfl
    · split <;> rfl

def sampleBackendSettings : BackendSettings := ⟨sampleSettings, sampleUmbrales⟩

/-- Call 1 registers passenger 1, call 2 verifies it with identity 12, and call 3 issues the
credential 20. -/
def sampleJourney : List (Act ServiceAct Nat) :=
  .call 1 (.registration (.register sampleRequest)) ::
    List.replicate 5 (.call 1 (.registration (.next
      { pasajeroId := 1, media := some ⟨"url", "foto"⟩ }))) ++
    .env 7 :: .call 2 (.verification (.verify samplePasajero sampleSelfie)) ::
    List.replicate 4 (.call 2 (.verification (.next
      { intentoId := 11, identidadId := 12, eventId := 13, verdict := some ⟨1, 1, "biometria"⟩
        media := some (⟨"url", "selfie"⟩, sampleSelfie) }))) ++
    .env 9 :: .call 3 (.credentials (.invoke (.issue "ana" " av9380"))) ::
    List.replicate 10 (.call 3 (.credentials (.next { jti := 20 })))

/-- **The services' own models are sound for the whole.** Every run of the backend is, seen by the
credential services and by the registration, a run of their own models with the same acts of their
calls, from an initial state when the backend's is one. -/
theorem backend_projects {as : List (Act ServiceAct Nat)}
    (h : run (backendStep cfg) s as = some t) :
    (s.Initial → s.credentials.Initial ∧ s.registration.Initial) ∧
    (∃ bs, run (credentialStep cfg.pases) s.credentials bs = some t.credentials ∧
      bs.filterMap Act.call? = as.filterMap credentialAct) ∧
    ∃ bs, run registrationStep s.registration bs = some t.registration ∧
      bs.filterMap Act.call? = as.filterMap registrarAct :=
  ⟨fun h0 => ⟨h0.credentials, h0.registration⟩, backendRun_credentials h,
    backendRun_registration h⟩

/-- The journey, as the credential services see it, issues credential 20 of identity 12. -/
theorem backend_projects_journey :
    ∃ t, run (backendStep sampleBackendSettings) sampleBackend sampleJourney = some t ∧
      t.credentials.shared.tables.credenciales.rows.map (fun r => (r.id, r.identidadId)) =
        [(20, 12)] ∧
      ∃ bs, run (credentialStep sampleSettings) sampleBackend.credentials bs =
        some t.credentials := by
  have hrows : (run (backendStep sampleBackendSettings) sampleBackend sampleJourney).map
      (fun t => t.credentials.shared.tables.credenciales.rows.map fun r =>
        (r.id, r.identidadId)) = some [(20, 12)] := by
    decide +kernel
  obtain ⟨t, ht, hr⟩ := Option.map_eq_some_iff.1 hrows
  obtain ⟨-, ⟨bs, hbs, -⟩, -⟩ := backend_projects ht
  exact ⟨t, ht, hr, bs, hbs⟩

end Aeropass
