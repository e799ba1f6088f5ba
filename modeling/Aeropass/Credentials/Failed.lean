import Aeropass.Credentials.Forget

/-!
# Renewals that fail

An `issue` call that raises rolls back what it wrote (`issueStep_rollback`), with one exception: it
commits when the token store has failed to register the new token, and then the previous credential
of its passenger and flight is final. The call runs alone: only it takes steps, and time passes.
-/

namespace Aeropass

open CredentialTables CredencialAcceso Runs Threads

variable {cfg : PassSettings} {i : Nat} {w w' : World} {ch : Choice} {id pid : UUID}
  {user codigoVuelo codigo : String} {s t u v : CredentialSystem} {ph : IssuePhase}

/-- Only call `i` steps, and time passes. -/
def Alone (i : Nat) (as : List (Act CallAct EnvAct)) : Prop :=
  ∀ a ∈ as, (∃ ch, a = .call i (.next ch)) ∨ ∃ d, a = .env (.tick d)

/-- The tables are as before, and so are the Redis keys of all committed credentials. -/
def Kept (w w' : World) : Prop :=
  w'.tables = w.tables ∧ ∀ id, (w.tables.row? id).isSome → w'.redis id = w.redis id

theorem Kept.refl (w : World) : Kept w w := ⟨rfl, fun _ _ => rfl⟩

theorem Kept.trans {w'' : World} (h : Kept w w') (h' : Kept w' w'') : Kept w w'' :=
  ⟨h'.1.trans h.1, fun id hid => (h'.2 id (by rw [h.1]; exact hid)).trans (h.2 id hid)⟩

/-! ## One step -/

/-- The call has committed an ACTIVA credential. -/
def IssuePhase.Succeeds : IssuePhase → Prop
  | .committed _ _ | .done (.ok _) => True
  | _ => False

/-- A step of `issue` after which it still may fail leaves the tables and the Redis keys of the
committed credentials alone, unless it commits without a token. -/
theorem issueStep_rollback (hm : ph.OK cfg i w) {r : World × IssuePhase}
    (h : issueStep cfg i w user codigoVuelo ch ph = some r) :
    r.2.Succeeds ∨ Kept w r.1 ∨
      ∃ tx c e, ph = .unregistered tx c ∧ ch.commits = true ∧ r.2 = .done (.error e) := by
  obtain ⟨htables, hredis, -⟩ := issueStep_wrote h
  have hkept : (Call.issue user codigoVuelo ph).commits w ch = [] →
      (Call.issue user codigoVuelo ph).keys cfg w ch = w.redis → Kept w r.1 := by
    intro hcom hkeys
    rw [hcom, applyAll_nil] at htables
    exact ⟨htables, fun id _ => by rw [hredis, hkeys]⟩
  cases ph with
  | start | validated | found | admitted | locked | dated | renewing | ready | built =>
    exact .inr (.inl (hkept rfl rfl))
  | added tx c token =>
    obtain ⟨old, c₀, -, hb, rfl, -⟩ := hm
    refine .inr (.inl ⟨htables, fun id hid => ?_⟩)
    have hne : id ≠ c₀.id := by
      rintro rfl
      rw [hb.row] at hid
      cases hid
    rw [hredis]
    exact redis_register_other hne
  | registered tx c token =>
    simp only [issueStep] at h
    split at h
    · split at h <;> cases h <;> exact .inl trivial
    · next hc => exact .inr (.inl (hkept (by simp [Call.commits, hc]) rfl))
  | unregistered tx c =>
    simp only [issueStep] at h
    split at h
    · next hc =>
      cases h
      exact .inr (.inr ⟨tx, c, _, rfl, hc, rfl⟩)
    · next hc => exact .inr (.inl (hkept (by simp [Call.commits, hc]) rfl))
  | committed => cases h; exact .inl trivial
  | done => cases h

theorem IssuePhase.Succeeds.step (hs : ph.Succeeds) {r : World × IssuePhase}
    (h : issueStep cfg i w user codigoVuelo ch ph = some r) : r.2.Succeeds := by
  unfold IssuePhase.Succeeds at hs
  split at hs
  · cases h; trivial
  · cases h
  · exact hs.elim

/-- The passenger and the flight that an `issue` call has looked up. -/
def IssuePhase.Asks (pid : UUID) (codigo : String) : IssuePhase → Prop
  | .start | .committed _ _ | .done _ => True
  | .validated c => c = codigo
  | .found c p | .admitted c p | .locked c p _ => c = codigo ∧ p.id = pid
  | .dated tx | .renewing tx _ | .ready tx | .built tx _ _ | .added tx _ _ | .registered tx _ _
  | .unregistered tx _ => tx.pasajeroId = pid ∧ tx.codigo = codigo

/-- A step of `issue` keeps what the call has looked up and changes no passenger. -/
theorem issueStep_asks
    (hp : ∀ p, (w.pasajeros.rows.find? fun p => p.clerkUserId = user) = some p → p.id = pid)
    (hcod : ∀ c, normalizarCodigoVuelo (some codigoVuelo) = .ok c → c = codigo)
    (ha : ph.Asks pid codigo) {r : World × IssuePhase}
    (h : issueStep cfg i w user codigoVuelo ch ph = some r) :
    r.1.pasajeros = w.pasajeros ∧ r.2.Asks pid codigo := by
  cases ph with
  | start =>
    simp only [issueStep] at h
    split at h
    · next c hc => cases h; exact ⟨rfl, hcod c hc⟩
    · cases h; exact ⟨rfl, trivial⟩
  | validated c =>
    simp only [issueStep] at h
    split at h
    · next p _ hf => cases h; exact ⟨rfl, ha, hp p hf⟩
    · cases h; exact ⟨rfl, trivial⟩
    · cases h; exact ⟨rfl, trivial⟩
  | found c p =>
    simp only [issueStep] at h
    split at h <;> cases h
    · exact ⟨rfl, ha⟩
    · exact ⟨rfl, trivial⟩
  | admitted c p =>
    simp only [issueStep] at h
    split at h
    · cases h; exact ⟨rfl, trivial⟩
    next p' hp' =>
    split at h
    · cases h
    split at h <;> cases h
    · exact ⟨rfl, trivial⟩
    · exact ⟨rfl, ha.1, (Rows.find?_key hp').trans ha.2⟩
  | locked c p identidad =>
    simp only [issueStep] at h
    split at h <;> cases h
    · exact ⟨rfl, ha.2, ha.1⟩
    · exact ⟨rfl, trivial⟩
  | dated tx =>
    simp only [issueStep] at h
    split at h
    · cases h; exact ⟨rfl, ha⟩
    split at h
    · cases h
    split at h <;> cases h <;> exact ⟨rfl, ha⟩
  | renewing tx a => cases h; exact ⟨rfl, ha⟩
  | ready tx =>
    simp only [issueStep] at h
    split at h
    · cases h
    split at h <;> cases h
    · exact ⟨rfl, ha⟩
    · exact ⟨rfl, trivial⟩
  | built tx c token =>
    simp only [issueStep] at h
    split at h <;> cases h
    · exact ⟨rfl, trivial⟩
    · exact ⟨rfl, ha⟩
  | added tx c token =>
    simp only [issueStep] at h
    split at h <;> cases h <;> exact ⟨rfl, ha⟩
  | registered tx c token =>
    simp only [issueStep] at h
    split at h
    · split at h <;> cases h <;> exact ⟨rfl, trivial⟩
    · cases h; exact ⟨rfl, trivial⟩
  | unregistered tx c =>
    simp only [issueStep] at h
    split at h <;> cases h <;> exact ⟨rfl, trivial⟩
  | committed => cases h; exact ⟨rfl, trivial⟩
  | done => cases h

/-- An ACTIVA credential that a transaction made final, but did not consume, is REVOCADA or
EXPIRADA. -/
theorem Held.revocada_or_expirada (hw : WorldOK w) {a : CredencialAcceso} (h : Held i w a)
    {r : CredencialAccesoRow} (hr : w.tables.row? a.id = some r) (hact : r.estado = .activa)
    (hdead : a.estado.live = false) : a.estado = .revocada ∨ a.estado = .expirada := by
  have hne : a.estado ≠ .consumida := by
    intro hcons
    have hrep := h.continues.history.replay
    rw [hcons] at hrep
    obtain ⟨e, he, hacc, hreq⟩ := AuditLog.exists_of_replay hrep
    have hreq : e.estadoSolicitado = .consumida := hreq
    rcases List.mem_append.1 he with he | he
    · have := (hw.tables.history hr).estado_of_final he hacc (by rw [hreq]; rfl)
      rw [hact, hreq] at this
      cases this
    · exact h.spares e he hreq
  revert hdead hne
  cases a.estado <;> simp [EstadoCredencial.live]

/-- Committing without a token makes the ACTIVA credential of the passenger and flight final. -/
theorem issueStep_commitsWithoutToken (hw : WorldOK w) {tx : IssueTx} {c : CredencialAcceso}
    (hm : (IssuePhase.unregistered tx c).OK cfg i w) (hc : ch.commits = true)
    {r : World × IssuePhase}
    (h : issueStep cfg i w user codigoVuelo ch (.unregistered tx c) = some r)
    {x : CredencialAccesoRow} (hx : w.tables.row? id = some x) (hact : x.estado = .activa)
    (hp : x.pasajeroId = tx.pasajeroId) (hcod : x.codigoVuelo = tx.codigo) :
    ∃ y, r.1.tables.row? id = some y ∧ (y.estado = .revocada ∨ y.estado = .expirada) := by
  obtain ⟨old, c₀, hready, hb, hwr⟩ := hm
  obtain ⟨a, ha, rfl⟩ := hready.only hx (by rw [hact]; rfl) hp hcod
  have hrev := (revocar_spec c₀.flushed motivoTokenNoRegistrado tx.now).2.2
    (by show c₀.estado.live = true; rw [hb.estado]; rfl)
  obtain ⟨-, -, hold⟩ := issue_commits hw hready hb
    (c₀.flushed.revocar motivoTokenNoRegistrado tx.now).2 rfl
    ((inserted_spec hw hready hb).2.2.1.revocar _ _) (by rw [hrev]; simp)
    (fun h => by rw [hrev] at h; cases h)
  refine ⟨a.toCredencialAccesoRow, ?_,
    (hready.held a ha).revocada_or_expirada hw hx hact (hready.dead a ha)⟩
  rw [(issueStep_wrote h).1, Call.commits, if_pos hc, hwr]
  exact hold a ha

/-! ## Runs -/

/-- A step of the call alone: one of its own, or time. -/
theorem alone_step (hi : s.locals i = .issue user codigoVuelo ph) {a : Act CallAct EnvAct}
    (ha : (∃ ch, a = .call i (.next ch)) ∨ ∃ d, a = .env (.tick d))
    (hst : credentialStep cfg s a = some t) :
    (∃ ch r, a = .call i (.next ch) ∧
      issueStep cfg i s.shared user codigoVuelo ch ph = some r ∧ t.shared = r.1 ∧
      t.locals i = .issue user codigoVuelo r.2) ∨
    t.locals i = s.locals i ∧ t.shared.tables = s.shared.tables ∧
      t.shared.redis = s.shared.redis ∧ t.shared.pasajeros = s.shared.pasajeros := by
  rcases ha with ⟨ch, rfl⟩ | ⟨d, rfl⟩
  · obtain ⟨r, hc, hsh, hl, -⟩ := Program.step_call hst
    rw [hi] at hc
    obtain ⟨r', hr', rfl⟩ := Option.map_eq_some_iff.1 hc
    exact .inl ⟨ch, r', rfl, hr', hsh, hl⟩
  · cases hst
    exact .inr ⟨rfl, rfl, rfl, rfl⟩

/-- The call has not failed yet, and nothing was written for good; or it is past its commit. -/
def Unfailed (user codigoVuelo : String) (pid : UUID) (codigo : String) (i : Nat)
    (s u : CredentialSystem) : Prop :=
  ∃ ph, u.locals i = .issue user codigoVuelo ph ∧ ph.Asks pid codigo ∧
    u.shared.pasajeros = s.shared.pasajeros ∧
    (Kept s.shared u.shared ∨ ph.Succeeds ∨ ∃ e, ph = .done (.error e))

/-- Up to its failure an `issue` call has left the tables as they were. -/
theorem Unfailed.step
    (hp : ∀ p, (s.shared.pasajeros.rows.find? fun p => p.clerkUserId = user) = some p → p.id = pid)
    (hcod : ∀ c, normalizarCodigoVuelo (some codigoVuelo) = .ok c → c = codigo)
    (hok : CredentialsOK cfg u) (h : Unfailed user codigoVuelo pid codigo i s u)
    {a : Act CallAct EnvAct} (ha : (∃ ch, a = .call i (.next ch)) ∨ ∃ d, a = .env (.tick d))
    (hst : credentialStep cfg u a = some v) : Unfailed user codigoVuelo pid codigo i s v := by
  obtain ⟨ph, hi, hasks, hpas, hcase⟩ := h
  rcases alone_step hi ha hst with ⟨ch, r, -, hr, hsh, hl⟩ | ⟨hl, htab, hred, hpas'⟩
  · have hm := hok.2 i
    rw [hi] at hm
    obtain ⟨hpas', hasks'⟩ := issueStep_asks (by rw [hpas]; exact hp) hcod hasks hr
    refine ⟨r.2, hl, hasks', by rw [hsh, hpas', hpas], ?_⟩
    rw [hsh]
    rcases hcase with hk | hs | ⟨e, rfl⟩
    · rcases issueStep_rollback hm hr with hs | hk' | ⟨_, _, e, -, -, he⟩
      · exact .inr (.inl hs)
      · exact .inl (hk.trans hk')
      · exact .inr (.inr ⟨e, he⟩)
    · exact .inr (.inl (hs.step hr))
    · cases hr
  · refine ⟨ph, hl.trans hi, hasks, hpas'.trans hpas, hcase.imp_left fun hk => hk.trans ?_⟩
    exact ⟨htab, fun id _ => by rw [hred]⟩

/-- Nothing was written for good, or the call has committed an ACTIVA credential. -/
def RolledBack (user codigoVuelo : String) (i : Nat) (s u : CredentialSystem) : Prop :=
  ∃ ph, u.locals i = .issue user codigoVuelo ph ∧ (Kept s.shared u.shared ∨ ph.Succeeds)

/-- A call that commits nothing without a token has rolled back what it wrote. -/
theorem RolledBack.step (hok : CredentialsOK cfg u) (h : RolledBack user codigoVuelo i s u)
    {a : Act CallAct EnvAct} (ha : (∃ ch, a = .call i (.next ch)) ∨ ∃ d, a = .env (.tick d))
    (hno : ¬ CommitsWithoutToken i u a) (hst : credentialStep cfg u a = some v) :
    RolledBack user codigoVuelo i s v := by
  obtain ⟨ph, hi, hcase⟩ := h
  rcases alone_step hi ha hst with ⟨ch, r, rfl, hr, hsh, hl⟩ | ⟨hl, htab, hred, -⟩
  · have hm := hok.2 i
    rw [hi] at hm
    refine ⟨r.2, hl, ?_⟩
    rw [hsh]
    rcases hcase with hk | hs
    · rcases issueStep_rollback hm hr with hs | hk' | ⟨tx, c, e, rfl, hc, -⟩
      · exact .inr hs
      · exact .inl (hk.trans hk')
      · exact absurd ⟨ch, user, codigoVuelo, tx, c, rfl, hi, hc⟩ hno
    · exact .inr (hs.step hr)
  · exact ⟨ph, hl.trans hi, hcase.imp_left fun hk => hk.trans ⟨htab, fun id _ => by rw [hred]⟩⟩

/-- After it has ended the call takes no step: the tables stay. -/
theorem alone_after_done {as : List (Act CallAct EnvAct)} (halone : Alone i as)
    {q : Except Failure IssuedPass} (hi : s.locals i = .issue user codigoVuelo (.done q))
    (hrun : run (credentialStep cfg) s as = some t) : t.shared.tables = s.shared.tables := by
  induction as generalizing s with
  | nil => cases hrun; rfl
  | cons a as ih =>
    obtain ⟨u, hst, hrun⟩ := Option.bind_eq_some_iff.1 hrun
    rcases alone_step hi (halone a (by simp)) hst with ⟨ch, r, -, hr, -⟩ | ⟨hl, htab, -⟩
    · cases hr
    · rw [ih (fun b hb => halone b (by simp [hb])) (hl.trans hi) hrun, htab]

/-- **A renewal that raises takes nothing away**, unless it commits after its `register` of the new
token has raised; then the credential that was ACTIVA for its passenger and flight is REVOCADA or
EXPIRADA. -/
theorem failed_issue {cfg : PassSettings} {s t : CredentialSystem} {i : Nat}
    {user codigoVuelo : String} {e : Failure} {as : List (Act CallAct EnvAct)}
    (hs : Reachable CredentialSystem.Initial (credentialStep cfg) s)
    (hstart : s.locals i = .issue user codigoVuelo .start) (halone : Alone i as)
    (hrun : run (credentialStep cfg) s as = some t)
    (hraise : t.locals i = .issue user codigoVuelo (.done (.error e))) :
    (EachStep (credentialStep cfg) (fun u a _ => ¬ CommitsWithoutToken i u a) s as →
      ∀ id r, s.shared.tables.row? id = some r →
        t.shared.tables.row? id = some r ∧
        t.shared.tables.history id = s.shared.tables.history id ∧
        t.shared.redis id = s.shared.redis id) ∧
    (¬ EachStep (credentialStep cfg) (fun u a _ => ¬ CommitsWithoutToken i u a) s as →
      ∀ p codigo id r,
        (s.shared.pasajeros.rows.find? fun p => p.clerkUserId = user) = some p →
        normalizarCodigoVuelo (some codigoVuelo) = .ok codigo →
        s.shared.tables.row? id = some r → r.estado = .activa → r.pasajeroId = p.id →
        r.codigoVuelo = codigo →
        ∃ r', t.shared.tables.row? id = some r' ∧
          (r'.estado = .revocada ∨ r'.estado = .expirada)) := by
  have hrg := credential_relyGuarantee cfg
  have hok := credential_inv hs
  constructor
  · intro hno id r hr
    have hend := EachStep.invariant
      (I := fun u => CredentialsOK cfg u ∧ RolledBack user codigoVuelo i s u)
      (P := fun u a _ => ¬ CommitsWithoutToken i u a ∧
        ((∃ ch, a = .call i (.next ch)) ∨ ∃ d, a = .env (.tick d)))
      (fun u a v hu hP hst => ⟨hrg.step hu.1 hst, hu.2.step hu.1 hP.2 hP.1 hst⟩)
      (hno.and fun pre a post u v has _ _ => halone a (by rw [has]; simp)) hrun
      ⟨hok, .start, hstart, .inl (.refl _)⟩
    obtain ⟨-, ph, hi, hk | hsuc⟩ := hend
    · rw [hk.1]
      exact ⟨hr, rfl, hk.2 id (by rw [hr]; rfl)⟩
    · rw [hraise] at hi
      cases hi
      exact hsuc.elim
  · intro hcom p codigo id r hp hcod hr hact hpas hvuelo
    -- the run splits at the step at which the call commits without a token
    obtain ⟨pre, a, post, u, v, rfl, hpre, hst, hnot⟩ := not_eachStep.1 hcom
    obtain ⟨ch, user', codigo', tx, c, rfl, hi, hc⟩ := not_not.1 hnot
    have hpend := EachStep.invariant
      (I := fun u => CredentialsOK cfg u ∧ Unfailed user codigoVuelo p.id codigo i s u)
      (P := fun _ a _ => (∃ ch, a = .call i (.next ch)) ∨ ∃ d, a = .env (.tick d))
      (fun u a v hu hP hst => ⟨hrg.step hu.1 hst, hu.2.step
        (fun q hq => by rw [hp] at hq; cases hq; rfl)
        (fun c hc => by rw [hcod] at hc; cases hc; rfl) hu.1 hP hst⟩)
      (fun pre' b post' _ _ hpre' _ _ => halone b (by rw [hpre']; simp)) hpre
      ⟨hok, .start, hstart, trivial, rfl, .inl (.refl _)⟩
    obtain ⟨huok, ph, hi', hasks, -, hcase⟩ := hpend
    rw [hi] at hi'
    cases hi'
    have hk : Kept s.shared u.shared := by
      rcases hcase with hk | hs | ⟨_, he⟩
      · exact hk
      · exact hs.elim
      · cases he
    have hm := huok.2 i
    rw [hi] at hm
    obtain ⟨q, hq, hvsh, hvl, -⟩ := Program.step_call hst
    rw [hi] at hq
    obtain ⟨q', hq', rfl⟩ := Option.map_eq_some_iff.1 hq
    obtain ⟨y, hy, hfin⟩ := issueStep_commitsWithoutToken huok.1 hm hc hq'
      (by rw [hk.1]; exact hr) hact (hpas.trans hasks.1.symm) (hvuelo.trans hasks.2.symm)
    have hdone : v.locals i = .issue user codigoVuelo (.done (fail .almacenamientoNoDisponible
        (some 1))) := by
      rw [hvl]
      simp only [issueStep, hc, if_true] at hq'
      cases hq'
      rfl
    obtain ⟨u', v', hu', hv', hrest⟩ := run_split hrun
    rw [hpre, Option.some.injEq] at hu'
    subst hu'
    rw [hst, Option.some.injEq] at hv'
    subst hv'
    refine ⟨y, ?_, hfin⟩
    rw [alone_after_done (fun b hb => halone b (by simp [hb])) hdone hrest, hvsh]
    exact hy

/-- The pass 7 and a renewal that has started. -/
def renewalStart : List (Act CallAct EnvAct) :=
  sampleIssue 0 7 ++ [.call 1 (.invoke (.issue "user" "AV9380"))]

/-- The state in which the renewal starts. -/
theorem renewalStart_run : ∃ s, run (credentialStep sampleSettings) sampleStart renewalStart =
    some s ∧ s.locals 1 = .issue "user" "AV9380" .start := by
  obtain ⟨s, hs⟩ := Option.isSome_iff_exists.1 (by decide +kernel :
    (run (credentialStep sampleSettings) sampleStart renewalStart).isSome = true)
  refine ⟨s, hs, ?_⟩
  cases hs
  rfl

theorem alone_replicate (i n : Nat) (ch : Choice) :
    Alone i (List.replicate n (.call i (.next ch))) := by
  intro a ha
  exact .inl ⟨ch, List.eq_of_mem_replicate ha⟩

/-- The signer fails at a renewal: the previous pass stays. -/
theorem failed_issue_unsigned : ∃ s t, run (credentialStep sampleSettings) sampleStart
      renewalStart = some s ∧
    run (credentialStep sampleSettings) s
      (List.replicate 8 (.call 1 (.next { signs := false }))) = some t ∧
    ∀ id r, s.shared.tables.row? id = some r →
      t.shared.tables.row? id = some r ∧
      t.shared.tables.history id = s.shared.tables.history id ∧
      t.shared.redis id = s.shared.redis id := by
  obtain ⟨s, hs, hstart⟩ := renewalStart_run
  have hr := Reachable.run (.start sampleStart_initial) hs
  obtain ⟨t, ht⟩ := Option.isSome_iff_exists.1 (by cases hs; decide +kernel :
    (run (credentialStep sampleSettings) s
      (List.replicate 8 (.call 1 (.next { signs := false })))).isSome = true)
  have hraise : ∃ e, t.locals 1 = .issue "user" "AV9380" (.done (.error e)) := by
    cases hs
    cases ht
    exact ⟨_, rfl⟩
  obtain ⟨e, hraise⟩ := hraise
  refine ⟨s, t, hs, ht, (failed_issue hr hstart (alone_replicate 1 8 _) ht hraise).1
    (sinToken_mem_eventsOf.1 ?_)⟩
  cases hs
  decide +kernel

/-- Redis is down at a renewal: the call raises, and the previous pass, ACTIVA and not due, is
REVOCADA. -/
theorem failed_issue_loses : ¬ ∀ (cfg : PassSettings) (s t : CredentialSystem) (i : Nat)
    (user codigoVuelo : String) (e : Failure) (as : List (Act CallAct EnvAct)),
    Reachable CredentialSystem.Initial (credentialStep cfg) s →
    s.locals i = .issue user codigoVuelo .start → Alone i as →
    run (credentialStep cfg) s as = some t →
    t.locals i = .issue user codigoVuelo (.done (.error e)) →
    ∀ p codigo id r, (s.shared.pasajeros.rows.find? fun p => p.clerkUserId = user) = some p →
      normalizarCodigoVuelo (some codigoVuelo) = .ok codigo →
      s.shared.tables.row? id = some r → r.estado = .activa → s.shared.clock < r.expiraAt →
      r.pasajeroId = p.id → r.codigoVuelo = codigo →
      (∃ r', t.shared.tables.row? id = some r' ∧ r'.estado = .activa) ∧
        t.shared.tables.history id = s.shared.tables.history id ∧
        t.shared.redis id = s.shared.redis id := by
  intro h
  obtain ⟨s, hs, hstart⟩ := renewalStart_run
  have hr := Reachable.run (.start sampleStart_initial) hs
  obtain ⟨t, ht⟩ := Option.isSome_iff_exists.1 (by cases hs; decide +kernel :
    (run (credentialStep sampleSettings) s
      (List.replicate 11 (.call 1 (.next { jti := 8, fault := .lost })))).isSome = true)
  have hclaim := h sampleSettings s t 1 "user" "AV9380"
    (.domain { clase := .almacenamientoNoDisponible, retryAfter := some 1 }) _ hr hstart
    (alone_replicate 1 11 _) ht
  cases hs
  cases ht
  obtain ⟨⟨r', hr', hact⟩, -⟩ := hclaim rfl _ "AV9380" 7 _ rfl (by decide +kernel) rfl rfl
    (by decide) rfl rfl
  cases hr'
  cases hact

end Aeropass
