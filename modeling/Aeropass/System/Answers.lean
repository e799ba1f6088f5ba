import Aeropass.Credentials.Owners
import Aeropass.System.Custody
import Aeropass.Verification.Counted

/-!
# What the answers of the services tell

Rows keep what identifies them and whom they belong to (`BackendLater`), so an answer stays true.
Every call of the backend answers about the passenger it was made for (`Service.About`): a
registration about the passenger of its account, a verification about an attempt of the passenger
it was given, and the credential services about credentials of the caller's passenger.
-/

namespace Aeropass

open CredentialTables CredencialAcceso Runs Threads

/-- What every step of the backend leaves. -/
structure BackendLater (w w' : BackendWorld) : Prop where
  pasajeros : PasajerosKept w.pasajeros w'.pasajeros
  verification : VerificationLater w.verification w'.verification
  tables : Evolves w.tables w'.tables

/-- The passenger that an answer tells of is the one of the account, in the state that its attempts
had led to, with an identity of its own. -/
structure PasajeroOf (w : BackendWorld) (user : String) (p : Pasajero) : Prop where
  row : ∃ r, w.pasajeros.find? p.id = some r ∧ r.clerkUserId = user ∧ r.documento = p.documento
  progreso : Reached w.verification p.id p.progress
  identidad : ∀ x ∈ p.identidadId, ∃ y ∈ w.identidades.rows, y.id = x ∧ y.pasajeroId = p.id

/-- What `register` knows of the passenger of the account that called it. -/
def RegisterPhase.About (w : BackendWorld) (user : String) : RegisterPhase → Prop
  | .withIdentity p | .done (.ok (p, _)) => PasajeroOf w user p
  | _ => True

/-- What a call knows of whom it tells. -/
def Service.About (cfg : BackendSettings) (w : BackendWorld) : Service → Prop
  | .registration .idle => True
  | .registration (.register q ph) => ph.About w q.clerkUserId
  | .verification l => l.Given cfg.verificacion ∧ ∀ id o, l.outcome? = some (id, o) →
    Answered w.verification id o ∧ Counted w.verification o
  | .credentials l => l.About cfg.pases w.credentials

variable {cfg : BackendSettings} {s t : BackendSystem} {w w' : BackendWorld} {user : String}
  {p : Pasajero}

/-! ## Stability -/

theorem BackendLater.refl (w : BackendWorld) : BackendLater w w :=
  ⟨.refl _, .refl _, .refl _⟩

theorem BackendLater.trans {w'' : BackendWorld} (h : BackendLater w w')
    (h' : BackendLater w' w'') : BackendLater w w'' where
  pasajeros := ⟨fun hp => by
    obtain ⟨p', hp', hu, hd⟩ := h.pasajeros.row hp
    obtain ⟨p'', hp'', hu', hd'⟩ := h'.pasajeros.row hp'
    exact ⟨p'', hp'', hu'.trans hu, hd'.trans hd⟩⟩
  verification := h.verification.trans h'.verification
  tables := h.tables.trans h'.tables

theorem PasajeroOf.stable (h : BackendLater w w') (hp : PasajeroOf w user p) :
    PasajeroOf w' user p := by
  obtain ⟨⟨r, hr, hu, hd⟩, hpro, hid⟩ := hp
  obtain ⟨r', hr', hu', hd'⟩ := h.pasajeros.row hr
  refine ⟨⟨r', hr', hu'.trans hu, hd'.trans hd⟩, hpro.stable h.verification, fun x hx => ?_⟩
  obtain ⟨y, hy, hyx⟩ := hid x hx
  exact ⟨y, h.verification.identidades.subset hy, hyx⟩

/-- What a call knows survives every step. -/
theorem Service.About.stable (h : BackendLater w w') {l : Service} (hl : l.About cfg w) :
    l.About cfg w' := by
  cases l with
  | registration l =>
    cases l with
    | idle => trivial
    | register q ph =>
      cases ph with
      | withIdentity p => exact PasajeroOf.stable h hl
      | done r =>
        cases r with
        | ok a => exact PasajeroOf.stable h hl
        | error e => trivial
      | start | readingUser | readingDocument | storing | adding | resolving => trivial
  | verification l =>
    refine ⟨hl.1, fun id o ho => ?_⟩
    obtain ⟨ha, hc⟩ := hl.2 id o ho
    exact ⟨ha.stable h.verification, hc.stable h.verification⟩
  | credentials l => exact Call.About.stable h.pasajeros h.tables hl

/-! ## The registration -/

/-- The passenger of the account, as it was read. -/
theorem pasajeroOf_read (hv : VerificationOK w.verification) {r : PasajeroRow}
    (h : w.registration.pasajeros.getByClerkUser user = some r) : PasajeroOf w user { r with } := by
  obtain ⟨hmem, hu⟩ := PasajerosTable.getByClerkUser_some h
  have hfind : w.pasajeros.find? r.id = some r := Rows.find?_of_mem hmem
  exact ⟨⟨r, hfind, hu, rfl⟩, hv.reached hfind, fun x hx => by cases hx⟩

/-- With the identity read after it. -/
theorem PasajeroOf.withIdentity (h : PasajeroOf w user p) :
    PasajeroOf w user (p.conIdentidad ((getActive w.identidades.rows p.id).map (·.id))) := by
  refine ⟨h.row, h.progreso, fun x hx => ?_⟩
  obtain ⟨y, hy, rfl⟩ := Option.map_eq_some_iff.1 (show _ = some x from hx)
  have hpas := List.find?_some hy
  simp only [Bool.and_eq_true, decide_eq_true_eq] at hpas
  exact ⟨y, List.mem_of_find?_eq_some hy, rfl, hpas.1⟩

/-- A registration leaves the accounts, the verification and the credentials. -/
theorem backendLater_insert (hv : VerificationOK w.verification) {r : PasajeroRow}
    {t : Rows PasajeroRow.id} (hp : r.progress = {}) (ht : w.pasajeros.insert? r = some t) :
    BackendLater w { w with pasajeros := t } where
  pasajeros := ⟨fun hq => ⟨_, find?_of_insert? ht hq, rfl, rfl⟩⟩
  verification := (hv.register hp ht).2
  tables := .refl _

/-- One step of `register` answers about the passenger of the account. -/
theorem registerStep_about (hv : VerificationOK w.verification)
    (hu : w.registration.pasajeros.UniqueRows) {q : RegisterRequest} {ph : RegisterPhase}
    {ch : RegisterChoice} {r : RegistrationWorld × RegisterPhase} (hok : ph.OK w.registration q)
    (hl : ph.About w q.clerkUserId) (h : registerStep w.registration q ch ph = some r) :
    r.2.About (w.withRegistration r.1) q.clerkUserId := by
  cases ph with
  | start | readingDocument | storing =>
    simp only [registerStep] at h
    repeat' split at h
    all_goals (cases h; trivial)
  | readingUser | resolving =>
    simp only [registerStep] at h
    split at h
    · cases h; trivial
    split at h
    · cases h; trivial
    split at h
    · next propio hget =>
      split at h <;> cases h
      · exact pasajeroOf_read hv hget
      · trivial
    · cases h; trivial
  | adding datos p =>
    obtain ⟨-, id, foto, ahora, rfl⟩ := hok
    simp only [registerStep] at h
    split at h
    · cases h; trivial
    split at h
    · cases h; trivial
    split at h
    · cases h; trivial
    · next hins =>
      obtain ⟨t, ht, -⟩ := PasajerosTable.insertError_none hins hu
      rw [ht] at h
      cases h
      exact ⟨⟨_, (Rows.find?_insert? ht _).trans (if_pos rfl), rfl, rfl⟩, .initial,
        fun x hx => by cases hx⟩
  | withIdentity p =>
    simp only [registerStep] at h
    split at h <;> cases h
    · trivial
    · exact PasajeroOf.withIdentity hl
  | done => cases h

/-! ## Steps -/

/-- A commit of an attempt leaves the accounts. -/
theorem AttemptCommit.pasajerosKept {v v' : VerificationWorld} {o : VerificationOutcome}
    {event : Option DomainEvent} {r r' : PasajeroRow} (h : AttemptCommit v v' o event r r')
    (hw : TxWrites v v' o r r') : PasajerosKept v.pasajeros v'.pasajeros := by
  constructor
  intro id q hq
  have hfind := h.find? id
  split at hfind
  · next hid =>
    subst hid
    rw [h.found] at hq
    cases hq
    exact ⟨r', hfind, by rw [hw.columnas], by rw [hw.columnas]⟩
  · exact ⟨q, hfind.trans hq, rfl, rfl⟩

/-- What a step of the backend leaves. -/
theorem backendStep_later (hr : RegistrarsOK s.registration)
    (hcr : CredentialsOK cfg.pases s.credentials) (hs : BackendOK s) {a : Act ServiceAct Nat}
    (h : backendStep cfg s a = some t) : BackendLater s.shared t.shared := by
  cases backendStep_cases h with
  | @registration i l a r hsl hreg hsh ht hother =>
    have hl : s.registration.locals i = l := congrArg Service.registrar hsl
    rcases registrarStep_inserts hr.1 (hl ▸ hr.2 i) (hl ▸ hs.registrars i) hreg with
      hsame | ⟨p, hprog, -, -, hins⟩
    · rw [hsh, BackendWorld.withRegistration, hsame]
      exact .refl s.shared
    · rw [hsh]
      exact backendLater_insert hs.verification hprog hins
  | @verification i l a r hsl _ hver hsh ht hother =>
    rw [hsh]
    obtain ⟨-, hq | ⟨o, event, p, p', -, hc, hw⟩⟩ := verifierStep_writes hver
    · refine ⟨?_, (hq.ok hs.verification).2, .refl _⟩
      have hp : r.1.pasajeros = s.shared.pasajeros := hq.pasajeros
      simp only [BackendWorld.withVerification, hp]
      exact .refl _
    · exact ⟨hc.pasajerosKept hw, (hc.ok hs.verification).2.1, .refl _⟩
  | @credentials i l a r hsl hcall hsh ht hother =>
    have hl : s.credentials.locals i = l := congrArg Service.call hsl
    rw [hsh]
    obtain ⟨-, -, hguar⟩ := callStep_ok hcr.1 (hl ▸ hcr.2 i) hcall
    exact ⟨.refl _, .refl _, (hguar (i + 1) (by omega)).evolves⟩
  | @tick d he hl =>
    rw [← Option.some.inj he]
    exact ⟨.refl _, ⟨fun hp => ⟨_, hp⟩, List.prefix_rfl, List.prefix_rfl⟩, .refl _⟩

/-- What a run of the backend leaves. -/
theorem backendRun_later (hs : Reachable BackendSystem.Initial (backendStep cfg) s)
    {as : List (Act ServiceAct Nat)} (h : run (backendStep cfg) s as = some t) :
    BackendLater s.shared t.shared :=
  run_rel (I := Reachable BackendSystem.Initial (backendStep cfg)) (fun _ _ _ hu hst => hu.next hst)
    (fun _ => .refl _) .trans
    (fun _ _ _ hu hst => backendStep_later (backend_registration hu) (backend_credentials hu)
      (backend_inv hu) hst) h hs

/-- Every step keeps what the calls know. -/
theorem backendStep_about (hr : RegistrarsOK s.registration)
    (hcr : CredentialsOK cfg.pases s.credentials) (hs : BackendOK s)
    (hl : ∀ i, (s.locals i).About cfg s.shared) {a : Act ServiceAct Nat}
    (h : backendStep cfg s a = some t) (i : Nat) : (t.locals i).About cfg t.shared := by
  have hlater := backendStep_later hr hcr hs h
  cases backendStep_cases h with
  | @registration j l a r hsl hreg hsh ht hother =>
    refine Sys.forall_locals (t := t) (fun _ l => l.About cfg t.shared) ?_ hother
      (fun k _ => (hl k).stable hlater) i
    have hown := hl j
    have hok := hr.2 j
    simp only [BackendSystem.registration, hsl, Service.registrar] at hok
    rw [hsl] at hown
    rw [ht, hsh]
    unfold registrarStep at hreg
    split at hreg
    · cases hreg; trivial
    · obtain ⟨r', hr', rfl⟩ := Option.map_eq_some_iff.1 hreg
      exact registerStep_about hs.verification hr.1 hok hown hr'
    · cases hreg
  | @verification j l a r hsl _ hver hsh ht hother =>
    refine Sys.forall_locals (t := t) (fun _ l => l.About cfg t.shared) ?_ hother
      (fun k _ => (hl k).stable hlater) i
    have hown := hl j
    rw [hsl] at hown
    rw [ht, hsh]
    refine ⟨verifierStep_given hown.1 hver, fun id o ho => ⟨?_, ?_⟩⟩
    · exact (verifierStep_ok hs.verification (fun id o ho => (hown.2 id o ho).1) hver).2.1 id o ho
    · exact verifierStep_counted hs.verification (fun id o ho => (hown.2 id o ho).2) hver id o ho
  | @credentials j l a r hsl hcall hsh ht hother =>
    refine Sys.forall_locals (t := t) (fun _ l => l.About cfg t.shared) ?_ hother
      (fun k _ => (hl k).stable hlater) i
    have hown := hl j
    have hok := hcr.2 j
    simp only [BackendSystem.credentials, hsl, Service.call] at hok
    rw [hsl] at hown
    rw [ht]
    obtain ⟨hp, -, -⟩ := callStep_reads hcall
    refine (callStep_about hcr.1 hok hown hcall).stable ?_ ?_
    · rw [hsh, hp]
      exact .refl _
    · rw [hsh]
      exact .refl _
  | @tick d he hlocals =>
    rw [hlocals]
    exact (hl i).stable hlater

theorem Service.Idle.about {l : Service} (h : l.Idle) : l.About cfg w := by
  cases l with
  | registration l => cases h; trivial
  | verification l => cases h; exact ⟨trivial, fun _ _ ho => by cases ho⟩
  | credentials l => cases h; trivial

/-- **The answers of the backend.** In every reachable state each call answers about the passenger
it was made for. -/
theorem backend_about (hs : Reachable BackendSystem.Initial (backendStep cfg) s) (i : Nat) :
    (s.locals i).About cfg s.shared :=
  Reachable.invariant_of (I := fun s : BackendSystem => ∀ i, (s.locals i).About cfg s.shared)
    (fun _ h j => (h.locals j).about)
    (fun _ _ _ hu hl hst => backendStep_about (backend_registration hu) (backend_credentials hu)
      (backend_inv hu) hl hst) hs i

end Aeropass
