import Aeropass.Credentials.Office

/-!
# The credential services are linearizable

Any interleaving of the calls is a log of atomic operations of the ticket office, one at the commit
of each call, with an instant that the call has read and the answer that it gives
(`credentials_linearize`). What the office says of a pass that ended, every later call says
(`told_agree`).
-/

namespace Aeropass

open CredentialTables CredencialAcceso Runs Threads Tickets

variable {cfg : PassSettings} {since : Instant → Prop} {i : Nat} {w w' : World} {ch : Choice}
  {c : CredencialAcceso} {t : CredentialTables} {now ahora : Instant} {jti : UUID}

/-! ## Errors without a trace -/

theorem normalizarCodigoVuelo_error {codigo : Option String} {e : DomainError}
    (h : normalizarCodigoVuelo codigo = .error e) : e.clase = .datosInvalidos := by
  simp only [normalizarCodigoVuelo] at h
  split at h <;> cases h
  rfl

/-- The builder refuses with `DatosInvalidos`. -/
theorem CredencialAccesoBuilder.build_error_clase {b : CredencialAccesoBuilder} {jti : UUID}
    {e : DomainError} (h : b.build jti = .error (.domain e)) : e.clase = .datosInvalidos := by
  unfold build at h
  split at h
  case h_2 => cases h; rfl
  next codigo _ _ _ _ _ _ _ _ _ =>
  simp only [bind, Except.bind, pure, Except.pure, throw, throwThe, MonadExceptOf.throw] at h
  split at h
  · cases h; rfl
  split at h
  · cases h; rfl
  split at h
  · next hn =>
    cases h
    cases hn' : normalizarCodigoVuelo (some codigo) with
    | error e' =>
      rw [hn'] at hn
      cases hn
      exact normalizarCodigoVuelo_error hn'
    | ok v => rw [hn'] at hn; cases hn
  split at h
  case h_2 => cases h
  split at h
  · next hs => cases h; unfold CredentialSigner.signatureOf at hs; split at hs <;> cases hs
  cases h

/-! ## Steps -/

/-- The entries that a step of call `i` makes: the office moves by them, the call has logged them,
and they have instants that it read. -/
def Logs (since : Instant → Prop) (i : Nat) (w : World) (l : Call) (r : World × Call) : Prop :=
  ∃ es, run Office.step w.tables.office es = some r.1.tables.office ∧
    (∀ log, l.Logged i log → r.2.Logged i (log ++ es)) ∧ r.2.Dated since r.1 ∧
    ∀ e ∈ es, e.caller = i ∧ Read since w e.now

/-- A step that makes no entry. -/
theorem Logs.silent {l : Call} {r : World × Call} (ht : r.1.tables = w.tables)
    (hlog : ∀ log, l.Logged i log → r.2.Logged i log) (hd : r.2.Dated since r.1) :
    Logs since i w l r := by
  refine ⟨[], by rw [ht]; rfl, fun log hl => ?_, hd, by simp⟩
  rw [List.append_nil]
  exact hlog log hl

/-- A step that makes one. -/
theorem Logs.entry {l : Call} {r : World × Call} {e : PassEntry}
    (hst : w.tables.office.step e = some r.1.tables.office)
    (hbefore : ∀ log, l.Logged i log → log = []) (hafter : r.2.Logged i [e])
    (hd : r.2.Dated since r.1) (hi : e.caller = i) (hread : Read since w e.now) :
    Logs since i w l r := by
  refine ⟨[e], by rw [run_singleton]; exact hst, fun log hl => ?_, hd, ?_⟩
  · rw [hbefore log hl]
    exact hafter
  · intro e' he'
    rw [List.mem_singleton.1 he']
    exact ⟨hi, hread⟩

/-- An instant that was read stays read. -/
theorem Read.mono (h : Read since w now) (hc : w.clock ≤ w'.clock) : Read since w' now :=
  ⟨h.1, Int.le_trans h.2 hc⟩

/-- A transaction that saves one more pass. -/
theorem IssueTx.Dated.save {tx : IssueTx} (h : tx.Dated since w) {a : CredencialAcceso}
    (ha : a.estado = .activa ∨ tx.Ends a) (hc : w.clock ≤ w'.clock) (f : Option UUID) :
    IssueTx.Dated since w' { tx with writes := tx.writes ++ [.save a], forget := f } := by
  refine ⟨h.1.mono hc, fun b hb => ?_⟩
  rcases List.mem_append.1 hb with hb | hb
  · exact h.2 b hb
  · cases List.mem_singleton.1 hb
    exact ha

theorem IssueTx.Dated.mono {tx : IssueTx} (h : tx.Dated since w) (hc : w.clock ≤ w'.clock) :
    tx.Dated since w' := ⟨h.1.mono hc, h.2⟩

/-- A step of `consume` logs what the office does, at its commit. -/
theorem consumeStep_logs (hw : WorldOK w) {actor : String} {ph : ConsumePhase}
    {r : World × ConsumePhase} (hd : (Call.consume jti actor ph).Dated since w)
    (hs : since w.clock) (h : consumeStep i w jti actor ch ph = some r) :
    Logs since i w (.consume jti actor ph) (r.1, .consume jti actor r.2) := by
  cases ph with
  | start => cases h; exact .silent rfl (fun _ hl => hl) ⟨hs, Int.le_refl _⟩
  | read now =>
    obtain ⟨hl, ⟨hg, rfl⟩ | ⟨c, -, rfl⟩ | ⟨c, hg, hr1, hr2⟩⟩ := consumeStep_read h
    · have hnone : w.tables.office jti = none := by
        rw [office, getForUpdate_eq_none.1 hg]
        rfl
      refine .entry (e := ⟨i, now, .use jti, .absent⟩) ?_ (fun _ hl => hl) ⟨now, rfl⟩ trivial rfl hd
      refine Office.step_eq_some.2 (congrArg some ?_)
      rw [Office.visit, hnone]
    · exact .silent rfl (fun _ hl => hl) trivial
    · have hlog := consume_logged (i := i) hw hg now actor
      obtain ⟨hr, -, -⟩ := getForUpdate_eq_some hg
      rcases hr2 with ⟨ha, hph⟩ | ⟨hrej, answer, hans, hph⟩
      · rw [consumed_answer now actor ha] at hlog
        refine .entry (e := ⟨i, now, .use jti, .found .live⟩) ?_ (fun _ hl => hl) ?_ ?_ rfl hd
        · rw [hr1]
          exact hlog
        · rw [hph]
          exact ⟨now, rfl⟩
        · rw [hph]
          trivial
      · rcases consumed_cases c now actor with ⟨-, -, ha, -⟩ | ⟨-, -, he⟩
        · rw [hrej] at ha
          cases ha
        · rw [he] at hans
          have hne := refreshExpiry_ne_emitida (hw.noEmitida hr) now
          rw [← rejection_answer hne hans] at hlog
          refine .entry (e := ⟨i, now, .use jti, answer.answer⟩) ?_ (fun _ hl => hl) ?_ ?_ rfl hd
          · rw [hr1]
            exact hlog
          · rw [hph]
            exact ⟨now, rfl⟩
          · rw [hph]
            trivial
  | marking => cases h; exact .silent rfl (fun _ hl => hl) trivial
  | done => cases h

/-- A visit for a pass that is not there. -/
theorem absent_logged {mine : UUID × String → Bool}
    {change : Ticket (UUID × String) Instant → Ticket (UUID × String) Instant}
    (h : ∀ c, t.getForUpdate jti = some c → mine c.ticket.key = false) :
    t.office.visit now jti mine change = (.absent, t.office) := by
  unfold Office.visit office
  split
  · rfl
  · next k hk =>
    obtain ⟨r, hr, rfl⟩ := Option.map_eq_some_iff.1 hk
    have hg : t.getForUpdate jti = some { r with } := by
      unfold getForUpdate
      exact congrArg (Option.map _) hr
    rw [if_neg]
    rw [Bool.not_eq_true]
    exact h _ hg

/-- A step of `revoke_by_id` logs what the office does, at its commit. -/
theorem revokeStep_logs {motivo : String} {ph : RevokePhase}
    {r : World × RevokePhase} (hph : ph.OK i w jti)
    (hd : (Call.revokeById jti motivo ph).Dated since w)
    (hs : since w.clock) (h : revokeStep i w jti motivo ch ph = some r) :
    Logs since i w (.revokeById jti motivo ph) (r.1, .revokeById jti motivo r.2) := by
  cases ph with
  | start =>
    simp only [revokeStep] at h
    split at h
    · cases h
    split at h
    · next hg =>
      cases h
      refine .entry (e := ⟨i, w.clock, .withdraw jti, .absent⟩) ?_ (fun _ hl => hl)
        ⟨w.clock, rfl⟩ trivial rfl ⟨hs, Int.le_refl _⟩
      refine Office.step_eq_some.2 (congrArg some (absent_logged fun c hc => ?_))
      rw [hg] at hc
      cases hc
    · next c hg =>
      cases h
      obtain ⟨hrow, -, rfl⟩ := getForUpdate_eq_some hg
      exact .silent rfl (fun _ hl => hl) hrow
  | locked c =>
    cases h
    exact .silent rfl (fun _ hl => hl) ⟨w.clock, c, ⟨hs, Int.le_refl _⟩, hd, rfl⟩
  | refreshed c =>
    cases h
    obtain ⟨now, c₀, hread, hrow, rfl⟩ := hd
    exact .silent rfl (fun _ hl => hl) ⟨now, w.clock, c₀, hread, hrow, rfl⟩
  | revoked c res =>
    obtain ⟨now, ahora, c₀, hread, hrow, hrev⟩ := hd
    obtain ⟨hheld, hid, -⟩ := hph
    have hid' : c₀.id = jti := by
      have hc : c = ((c₀.refreshExpiry now).2.revocar motivo ahora).2 := congrArg Prod.snd hrev
      rw [← hid, hc]
      exact (refreshExpiry_id c₀ now).symm
    have hlog := revoke_logged (i := i) hheld.continues hrow hrev
    rw [hid'] at hlog
    simp only [revokeStep] at h
    split at h
    · split at h <;> cases h
      · exact .entry hlog (fun _ hl => hl) ⟨now, rfl⟩ trivial rfl hread
      · exact .entry hlog (fun _ hl => hl) ⟨now, rfl⟩ trivial rfl hread
    · cases h
      rcases writeError_cases motivo with he | ⟨-, he⟩
      · rw [he]; exact .silent rfl (fun _ hl => hl) trivial
      · rw [he]; exact .silent rfl (fun _ hl => hl) trivial
  | forgetting res => cases h; exact .silent rfl (fun _ hl => hl) trivial
  | done => cases h

/-- A step of `detail_for_owner` logs what the office does, at its commit. -/
theorem detailStep_logs {pasajeroId : UUID} {ph : DetailPhase} {r : World × DetailPhase}
    (hph : ph.OK i w jti) (hd : (Call.detail jti pasajeroId ph).Dated since w)
    (hs : since w.clock) (h : detailStep i w jti pasajeroId ch ph = some r) :
    Logs since i w (.detail jti pasajeroId ph) (r.1, .detail jti pasajeroId r.2) := by
  cases ph with
  | start =>
    have habsent : (∀ c, w.tables.getForUpdate jti = some c → c.pasajeroId ≠ pasajeroId) →
        Logs since i w (.detail jti pasajeroId .start)
          (w, .detail jti pasajeroId (.done w.clock (fail .credencialNoEncontrada))) := by
      intro hno
      refine .entry (e := ⟨i, w.clock, .look jti fun k => k.1 = pasajeroId, .absent⟩) ?_
        (fun _ hl => hl) rfl trivial rfl ⟨hs, Int.le_refl _⟩
      refine Office.step_eq_some.2 (congrArg some (absent_logged fun c hc => ?_))
      exact decide_eq_false (hno c hc)
    simp only [detailStep] at h
    split at h
    · cases h
    split at h
    · next hg =>
      cases h
      exact habsent fun c hc => by rw [hg] at hc; cases hc
    · next c hg =>
      split at h <;> cases h
      · next hown =>
        refine habsent fun c' hc' => ?_
        rw [hg] at hc'
        cases hc'
        exact hown
      · next hown =>
        obtain ⟨hrow, -, rfl⟩ := getForUpdate_eq_some hg
        exact .silent rfl (fun _ hl => hl) ⟨hrow, Decidable.not_not.1 hown⟩
  | locked c =>
    obtain ⟨hrow, hown⟩ := hd
    simp only [detailStep] at h
    rcases refreshExpiry_cases c w.clock with ⟨-, -, hr, -⟩ | ⟨-, hr⟩
    · rw [hr] at h
      cases h
      exact .silent rfl (fun _ hl => hl)
        ⟨c, ⟨hs, Int.le_refl _⟩, hrow, hown, by rw [hr], .inl rfl⟩
    · rw [hr] at h
      cases h
      exact .silent rfl (fun _ hl => hl)
        ⟨c, ⟨hs, Int.le_refl _⟩, hrow, hown, by rw [hr], .inr ⟨rfl, rfl⟩⟩
  | refreshed now c writes =>
    obtain ⟨c₀, hread, hrow, hown, href, hwr⟩ := hd
    obtain ⟨hheld, hid, -⟩ := hph
    have hid' : c₀.id = jti := by rw [← hid, href, refreshExpiry_id]
    have hlog := detail_logged (i := i) hheld.continues hrow hown href hwr
    rw [hid'] at hlog
    simp only [detailStep] at h
    split at h <;> cases h
    · exact .entry hlog (fun _ hl => hl) rfl trivial rfl hread
    · exact .silent rfl (fun _ hl => hl) trivial
  | done => cases h

/-- A step of `sweep_expired` logs what the office does, at its commit. -/
theorem sweepStep_logs (hw : WorldOK w) {limit : Nat} {ph : SweepPhase} {r : World × SweepPhase}
    (hd : (Call.sweep limit ph).Dated since w) (hs : since w.clock)
    (h : sweepStep i w limit ch ph = some r) :
    Logs since i w (.sweep limit ph) (r.1, .sweep limit r.2) := by
  cases ph with
  | start => cases h; exact .silent rfl (fun _ hl => hl) ⟨hs, Int.le_refl _⟩
  | read now =>
    simp only [sweepStep] at h
    split at h <;> cases h
    · refine .entry (sweep_logged hw now limit _) (fun _ hl => hl) ⟨now, _, ?_, rfl⟩ trivial rfl hd
      rw [expiredLiveForUpdate, List.length_map]
      exact List.length_take_le _ _
    · exact .silent rfl (fun _ hl => hl) trivial
  | done => cases h

theorem mem_insertWrites {old : Option CredencialAcceso} {a c₀ : CredencialAcceso}
    {ws : List Write} (ha : a ∈ old) : .save a ∈ insertWrites old c₀ ++ ws :=
  List.mem_append_left _ (List.mem_append_left _ (List.mem_map_of_mem (Option.mem_toList.2 ha)))

/-- The previous pass of the key, as the transaction saves it. -/
theorem IssueTx.Dated.ends {tx : IssueTx} {old : Option CredencialAcceso} (h : tx.Dated since w)
    (hready : TxReady i w tx old) (hwr : ∀ a ∈ old, .save a ∈ tx.writes) :
    ∀ a ∈ old, tx.Ends a := by
  intro a ha
  rcases h.2 a (hwr a ha) with hact | hends
  · have hdead := hready.dead a ha
    rw [hact] at hdead
    cases hdead
  · exact hends

/-- The new credential as the transaction leaves it. -/
theorem Built.flushed_ticket {tx : IssueTx} {c₀ : CredencialAcceso} (target : EstadoCredencial)
    (hb : Built cfg i w tx c₀) (motivo : String) (ahora : Instant)
    (hcan : (stateFor .emitida).canTransitionTo target = true) :
    (c₀.flushed.transition target motivo sistema ahora).2.estado = target ∧
      (c₀.flushed.transition target motivo sistema ahora).2.ticket =
        { c₀.ticket with fate := target.fate } := by
  have hest : (c₀.flushed.transition target motivo sistema ahora).2.estado = target :=
    transition_estado_of_accepted (by
      rw [show c₀.flushed.estado = .emitida from hb.estado]
      exact hcan)
  refine ⟨hest, ?_⟩
  simp only [CredencialAccesoRow.ticket, hest]
  rfl

/-- The transaction of `issue` looks for the live pass of its key. -/
theorem issueStep_logs_dated {user codigoVuelo : String} {tx : IssueTx} {r : World × IssuePhase}
    (hd : tx.Dated since w)
    (h : issueStep cfg i w user codigoVuelo ch (.dated tx) = some r) :
    Logs since i w (.issue user codigoVuelo (.dated tx)) (r.1, .issue user codigoVuelo r.2) := by
  simp only [issueStep] at h
  split at h
  · cases h
    exact .silent rfl (fun _ hl => hl) hd
  next a hg =>
  split at h
  · cases h
  obtain ⟨-, -, hp, hcod, hlive⟩ := getLiveForUpdate_eq_some hg
  rcases refreshExpiry_cases a tx.now with ⟨-, hdue, hr, hest⟩ | ⟨hlt, hr⟩
  · rw [hr] at h
    cases h
    have hends : tx.Ends (a.expirar tx.now).2 := ⟨hp, hcod, hest.trans (if_pos hdue).symm⟩
    exact .silent rfl (fun _ hl => hl) (hd.save (.inr hends) (Int.le_refl _) tx.forget)
  · rw [hr] at h
    cases h
    exact .silent rfl (fun _ hl => hl) ⟨hd, hlt hlive⟩

/-- The token is registered, or not. -/
theorem issueStep_logs_added {user codigoVuelo token : String} {tx : IssueTx}
    {c : CredencialAcceso} {r : World × IssuePhase} (hd : tx.Dated since w)
    (hph : (IssuePhase.added tx c token).OK cfg i w)
    (h : issueStep cfg i w user codigoVuelo ch (.added tx c token) = some r) :
    Logs since i w (.issue user codigoVuelo (.added tx c token))
      (r.1, .issue user codigoVuelo r.2) := by
  obtain ⟨old, c₀, hready, hb, rfl, hwr⟩ := hph
  simp only [issueStep] at h
  split at h <;> cases h
  · obtain ⟨hest, -⟩ := hb.flushed_ticket .activa motivoActivacion tx.now rfl
    exact .silent rfl (fun _ hl => hl) (hd.save (.inl hest) (Int.le_refl _) tx.forget)
  · obtain ⟨hest, -⟩ := hb.flushed_ticket .revocada motivoTokenNoRegistrado tx.now rfl
    have hlt : ¬ c₀.expiraAt ≤ tx.now := by
      have httl : 30 ≤ cfg.ttl ∧ cfg.ttl ≤ 60 := hb.ttl
      rw [hb.expira]
      simp only [seconds, Instant]
      omega
    have hends : tx.Ends (c₀.flushed.revocar motivoTokenNoRegistrado tx.now).2 :=
      ⟨hb.pasajero, hb.codigo, hest.trans (if_neg hlt).symm⟩
    exact .silent rfl (fun _ hl => hl) (hd.save (.inr hends) (Int.le_refl _) tx.forget)

/-- The commit of a pass. -/
theorem issueStep_logs_registered (hw : WorldOK w) {user codigoVuelo token : String}
    {tx : IssueTx} {c : CredencialAcceso} {r : World × IssuePhase} (hd : tx.Dated since w)
    (hph : (IssuePhase.registered tx c token).OK cfg i w)
    (h : issueStep cfg i w user codigoVuelo ch (.registered tx c token) = some r) :
    Logs since i w (.issue user codigoVuelo (.registered tx c token))
      (r.1, .issue user codigoVuelo r.2) := by
  obtain ⟨old, c₀, hready, hb, rfl, hwr, -⟩ := hph
  obtain ⟨hest, htick⟩ :=
    hb.flushed_ticket .activa motivoActivacion tx.now rfl
  have hends := hd.ends hready fun a ha => by
    rw [hwr]
    exact mem_insertWrites ha
  have hlog := issue_logged hw hready hb hends
    (show (c₀.flushed.activar tx.now).2.id = c₀.id from rfl)
    ((inserted_spec hw hready hb).2.2.1.transition (fun h => by cases h) (fun h => by cases h))
    (htick.trans (by rw [activar, hest]))
  rw [← hwr, activar, htick] at hlog
  have hstep : w.tables.office.step ⟨i, tx.now, .issue c₀.id (c₀.pasajeroId, c₀.codigoVuelo)
      c₀.expiraAt, .done⟩ = some (w.tables.applyAll tx.writes).office :=
    Office.step_eq_some.2 hlog
  simp only [issueStep] at h
  split at h
  · have hafter : ∀ ph, (ph = .done (.ok ⟨(c₀.flushed.activar tx.now).2.flushed, token,
        cfg.ttl - renewalMarginSeconds⟩) ∨ ∃ jti, ph = .committed jti
          ⟨(c₀.flushed.activar tx.now).2.flushed, token, cfg.ttl - renewalMarginSeconds⟩) →
        Logs since i w (.issue user codigoVuelo (.registered tx
          (c₀.flushed.activar tx.now).2.flushed token))
          (w.commit i tx.writes, .issue user codigoVuelo ph) := by
      rintro ph (rfl | ⟨jti, rfl⟩)
      · refine .entry hstep (fun _ hl => hl) ?_ trivial rfl hd.1
        rw [← hb.emitida]
        rfl
      · refine .entry hstep (fun _ hl => hl) ?_ trivial rfl hd.1
        rw [← hb.emitida]
        rfl
    split at h <;> cases h
    · exact hafter _ (.inr ⟨_, rfl⟩)
    · exact hafter _ (.inl rfl)
  · cases h
    exact .silent rfl (fun _ hl => hl) trivial

/-- The commit of a pass whose token was not registered. -/
theorem issueStep_logs_unregistered (hw : WorldOK w) {user codigoVuelo : String}
    {tx : IssueTx} {c : CredencialAcceso} {r : World × IssuePhase} (hd : tx.Dated since w)
    (hph : (IssuePhase.unregistered tx c).OK cfg i w)
    (h : issueStep cfg i w user codigoVuelo ch (.unregistered tx c) = some r) :
    Logs since i w (.issue user codigoVuelo (.unregistered tx c))
      (r.1, .issue user codigoVuelo r.2) := by
  obtain ⟨old, c₀, hready, hb, hwr⟩ := hph
  obtain ⟨hest, htick⟩ :=
    hb.flushed_ticket .revocada motivoTokenNoRegistrado tx.now rfl
  have hends := hd.ends hready fun a ha => by
    rw [hwr]
    exact mem_insertWrites ha
  have hlog := issue_logged hw hready hb hends
    (show (c₀.flushed.revocar motivoTokenNoRegistrado tx.now).2.id = c₀.id from rfl)
    ((inserted_spec hw hready hb).2.2.1.revocar _ _) (htick.trans (by rw [revocar, hest]))
  rw [← hwr, revocar, htick] at hlog
  have hstep : w.tables.office.step ⟨i, tx.now, .void c₀.id (c₀.pasajeroId, c₀.codigoVuelo)
      c₀.expiraAt, .done⟩ = some (w.tables.applyAll tx.writes).office :=
    Office.step_eq_some.2 hlog
  simp only [issueStep] at h
  split at h <;> cases h
  · exact .entry hstep (fun _ hl => hl) ⟨_, _, _, _, rfl⟩ trivial rfl hd.1
  · exact .silent rfl (fun _ hl => hl) trivial

/-- A step of `issue` logs what the office does, at its commit. -/
theorem issueStep_logs (hw : WorldOK w) {user codigoVuelo : String} {ph : IssuePhase}
    {r : World × IssuePhase} (hph : ph.OK cfg i w)
    (hd : (Call.issue user codigoVuelo ph).Dated since w) (hs : since w.clock)
    (h : issueStep cfg i w user codigoVuelo ch ph = some r) :
    Logs since i w (.issue user codigoVuelo ph) (r.1, .issue user codigoVuelo r.2) := by
  -- an error of another class than the 503 leaves no entry
  have hsilent : ∀ {e : DomainError} {w' : World}, w'.tables = w.tables →
      (∀ log, (Call.issue user codigoVuelo ph).Logged i log → log = []) →
      e.clase ≠ .almacenamientoNoDisponible →
      Logs since i w (.issue user codigoVuelo ph)
        (w', .issue user codigoVuelo (.done (.error (.domain e)))) := by
    intro e w' ht hlog he
    refine .silent ht (fun log hl => ?_) trivial
    exact (if_neg he).mpr (hlog log hl)
  cases ph with
  | start =>
    simp only [issueStep] at h
    split at h
    · cases h
      exact .silent rfl (fun _ hl => hl) trivial
    · next e hn =>
      cases h
      exact hsilent rfl (fun _ hl => hl) (by rw [normalizarCodigoVuelo_error hn]; decide)
  | validated codigo =>
    simp only [issueStep] at h
    split at h
    · cases h; exact .silent rfl (fun _ hl => hl) trivial
    · cases h; exact hsilent rfl (fun _ hl => hl) (by decide)
    · next htext =>
      cases h
      obtain ⟨texto, -, -, rfl⟩ := textError?_eq_some htext
      exact .silent rfl (fun _ hl => hl) trivial
  | found codigo p =>
    simp only [issueStep] at h
    split at h <;> cases h
    · exact .silent rfl (fun _ hl => hl) trivial
    · exact hsilent rfl (fun _ hl => hl) (by simp)
  | admitted codigo p =>
    simp only [issueStep] at h
    split at h
    · cases h
      exact hsilent rfl (fun _ hl => hl) (by decide)
    split at h
    · cases h
    split at h <;> cases h
    · exact hsilent rfl (fun _ hl => hl) (by decide)
    · exact .silent rfl (fun _ hl => hl) trivial
  | locked codigo p identidad =>
    simp only [issueStep] at h
    split at h <;> cases h
    · refine .silent rfl (fun _ hl => hl) ⟨⟨hs, Int.le_refl _⟩, fun a ha => ?_⟩
      cases ha
    · exact hsilent rfl (fun _ hl => hl) (by decide)
  | dated tx => exact issueStep_logs_dated hd h
  | renewing tx a =>
    obtain ⟨hd, hlt⟩ := hd
    obtain ⟨-, -, -, hlive, hp, hcod, -⟩ := hph
    cases h
    have hends : tx.Ends (a.revocar motivoRenovacion w.clock).2 :=
      ⟨hp, hcod, ((revocar_spec a motivoRenovacion w.clock).2.2 hlive).trans
        (if_neg (Int.not_le.2 hlt)).symm⟩
    exact .silent rfl (fun _ hl => hl) (hd.save (.inr hends) (Int.le_refl _) _)
  | ready tx =>
    simp only [issueStep] at h
    split at h
    · cases h
    split at h <;> cases h
    · exact .silent rfl (fun _ hl => hl) (IssueTx.Dated.mono hd (Int.le_refl _))
    · next e he =>
      cases e with
      | domain e =>
        exact hsilent rfl (fun _ hl => hl)
          (by rw [CredencialAccesoBuilder.build_error_clase he]; decide)
      | _ => exact .silent rfl (fun _ hl => hl) trivial
  | built tx c token =>
    simp only [issueStep] at h
    split at h <;> cases h
    · exact .silent rfl (fun _ hl => hl) trivial
    · refine .silent rfl (fun _ hl => hl) ⟨hd.1, fun a ha => ?_⟩
      rcases List.mem_append.1 ha with ha | ha
      · exact hd.2 a ha
      · cases List.mem_singleton.1 ha
  | added tx c token => exact issueStep_logs_added hd hph h
  | registered tx c token => exact issueStep_logs_registered hw hd hph h
  | unregistered tx c => exact issueStep_logs_unregistered hw hd hph h
  | committed jti pass => cases h; exact .silent rfl (fun _ hl => hl) trivial
  | done => cases h

/-- **A step of a call** makes at most one entry of the log, the one it answers with. -/
theorem callStep_logs (hw : WorldOK w) {l : Call} {a : CallAct} {r : World × Call}
    (hl : l.OK cfg i w) (hd : l.Dated since w) (hs : since w.clock)
    (h : callStep cfg i w l a = some r) : Logs since i w l r := by
  unfold callStep at h
  split at h
  · next q =>
    cases h
    refine .silent rfl (fun _ hlog => ?_) ?_
    · cases q <;> exact hlog
    · cases q <;> trivial
  · obtain ⟨r', hr', rfl⟩ := Option.map_eq_some_iff.1 h
    exact issueStep_logs hw hl hd hs hr'
  · obtain ⟨r', hr', rfl⟩ := Option.map_eq_some_iff.1 h
    exact consumeStep_logs hw hd hs hr'
  · obtain ⟨r', hr', rfl⟩ := Option.map_eq_some_iff.1 h
    exact revokeStep_logs hl hd hs hr'
  · obtain ⟨r', hr', rfl⟩ := Option.map_eq_some_iff.1 h
    exact detailStep_logs hl hd hs hr'
  · obtain ⟨r', hr', rfl⟩ := Option.map_eq_some_iff.1 h
    exact sweepStep_logs hw hd hs hr'
  · cases h
    exact .silent rfl (fun _ hlog => hlog) trivial
  · cases h

/-- What a call has read and made of its pass survives the steps of the others: it holds the
row. -/
theorem Call.Dated.stable {l : Call} (hk : Rely i w w') (hl : l.OK cfg i w)
    (hd : l.Dated since w) : l.Dated since w' := by
  have hheld : ∀ {c c₀ : CredencialAcceso}, Held i w c → c.id = c₀.id →
      w.tables.row? c₀.id = some c₀.toCredencialAccesoRow →
      w'.tables.row? c₀.id = some c₀.toCredencialAccesoRow := by
    intro c c₀ hh hid hrow
    exact (hk.held (hid ▸ hh.lock) hrow).1
  cases l with
  | issue user codigoVuelo ph =>
    cases ph with
    | dated | ready | built | added | registered | unregistered => exact hd.mono hk.clock
    | renewing => exact ⟨hd.1.mono hk.clock, hd.2⟩
    | start | validated | found | admitted | locked | committed | done => trivial
  | consume jti actor ph =>
    cases ph with
    | read => exact hd.mono hk.clock
    | start | marking | done => trivial
  | revokeById jti motivo ph =>
    cases ph with
    | locked c => exact hheld hl.1 rfl hd
    | refreshed c =>
      obtain ⟨now, c₀, hread, hrow, rfl⟩ := hd
      exact ⟨now, c₀, hread.mono hk.clock, hheld hl.1 (refreshExpiry_id c₀ now) hrow, rfl⟩
    | revoked c r =>
      obtain ⟨now, ahora, c₀, hread, hrow, hrev⟩ := hd
      have hc : c = ((c₀.refreshExpiry now).2.revocar motivo ahora).2 := congrArg Prod.snd hrev
      have hid : c.id = c₀.id := by
        rw [hc]
        exact refreshExpiry_id c₀ now
      exact ⟨now, ahora, c₀, hread.mono hk.clock, hheld hl.1 hid hrow, hrev⟩
    | start | forgetting | done => trivial
  | detail jti pasajeroId ph =>
    cases ph with
    | locked c => exact ⟨hheld hl.1 rfl hd.1, hd.2⟩
    | refreshed now c writes =>
      obtain ⟨c₀, hread, hrow, hown, href, hwr⟩ := hd
      have hid : c.id = c₀.id := by rw [href, refreshExpiry_id]
      exact ⟨c₀, hread.mono hk.clock, hheld hl.1 hid hrow, hown, href, hwr⟩
    | start | done => trivial
  | sweep limit ph =>
    cases ph with
    | read => exact hd.mono hk.clock
    | start | done => trivial
  | idle | mayBeUsable => trivial

/-! ## What calls tell of a pass -/

/-- What the answer of a finished call tells of a pass: whether the call has ended it, and what
became of it. -/
def Call.told : Call → Option (UUID × Bool × Fate)
  | .consume jti _ (.done (.ok .consumida)) => some (jti, true, .used)
  | .consume jti _ (.done (.ok .yaConsumida)) => some (jti, false, .used)
  | .consume jti _ (.done (.ok .expirada)) => some (jti, false, .lapsed)
  | .consume jti _ (.done (.ok .revocada)) => some (jti, false, .withdrawn)
  | .revokeById jti _ (.done (.ok r)) =>
    some (jti, r.aceptada, if r.aceptada then .withdrawn else r.estadoActual.fate)
  | .detail jti _ (.done _ (.ok (c, _))) => some (jti, false, c.estado.fate)
  | _ => none

/-- Its entry says the same. -/
theorem Call.Logged.told {l : Call} {es : List PassEntry} {b : Bool} {f : Fate}
    (hl : l.Logged i es) (ht : l.told = some (jti, b, f)) :
    ∃ e, es = [e] ∧ e.op.About jti ∧ e.answer = .found (if b then .live else f) ∧
      (f ≠ .live → e.Says jti f) := by
  unfold Call.told at ht
  split at ht
  · cases ht
    obtain ⟨now, rfl⟩ := hl
    exact ⟨_, rfl, rfl, rfl, fun _ => ⟨rfl, rfl⟩⟩
  · cases ht
    obtain ⟨now, rfl⟩ := hl
    exact ⟨_, rfl, rfl, rfl, fun h => ⟨rfl, rfl, h⟩⟩
  · cases ht
    obtain ⟨now, rfl⟩ := hl
    exact ⟨_, rfl, rfl, rfl, fun h => ⟨rfl, rfl, h⟩⟩
  · cases ht
    obtain ⟨now, rfl⟩ := hl
    exact ⟨_, rfl, rfl, rfl, fun h => ⟨rfl, rfl, h⟩⟩
  · next r =>
    cases ht
    obtain ⟨now, rfl⟩ := hl
    obtain ⟨aceptada, estado⟩ := r
    cases aceptada with
    | true => exact ⟨_, rfl, rfl, rfl, fun _ => ⟨rfl, rfl⟩⟩
    | false =>
      refine ⟨_, rfl, rfl, rfl, fun hf => ?_⟩
      cases estado with
      | emitida | activa => exact absurd rfl hf
      | consumida | expirada | revocada => exact ⟨rfl, rfl, hf⟩
  · cases ht
    cases hl
    exact ⟨_, rfl, rfl, rfl, fun h => ⟨rfl, rfl, h⟩⟩
  · cases ht

/-! ## Runs -/

/-- An instant that the call can have read after the state `s`. -/
def Since (s : CredentialSystem) (i : Nat) (now : Instant) : Prop :=
  s.locals i = .idle → s.shared.clock ≤ now

/-- The log of an office that holds the passes of `s`: each call has made the entries it answers
with. -/
structure Linearizes (s : CredentialSystem) (log : List PassEntry) : Prop where
  office : run Office.step (fun _ => none) log = some s.shared.tables.office
  calls : ∀ i, (s.locals i).Logged i (log.filter fun e => e.caller = i)

variable {s s' u : CredentialSystem} {log : List PassEntry}

theorem CredentialSystem.Initial.linearizes (h : s.Initial) : Linearizes s [] where
  office := by
    rw [h.1]
    rfl
  calls i := by
    rw [h.2.2.2.2]
    rfl

/-- A step of the whole prolongs the log. -/
theorem step_linearizes (hs : CredentialsOK cfg u) (hlog : Linearizes u log)
    (hd : ∀ i, (u.locals i).Dated (Since s i) u.shared) (hlater : s.shared.clock ≤ u.shared.clock)
    {a : Act CallAct EnvAct} (h : credentialStep cfg u a = some s') :
    ∃ es, Linearizes s' (log ++ es) ∧ (∀ i, (s'.locals i).Dated (Since s i) s'.shared) ∧
      ∀ e ∈ es, Read (Since s e.caller) u.shared e.now := by
  rcases Program.step_cases h with ⟨i, b, r, rfl, hc, hsh, hl, hother⟩ | ⟨e, rfl, he, hloc⟩
  · obtain ⟨es, hrun, hlogged, hdated, hread⟩ :=
      callStep_logs hs.1 (hs.2 i) (hd i) (fun _ => hlater) hc
    refine ⟨es, ⟨?_, ?_⟩, ?_, fun e he => (hread e he).1 ▸ (hread e he).2⟩
    · rw [run_append, hlog.office, hsh]
      exact hrun
    · have hown : es.filter (fun e => e.caller = i) = es :=
        List.filter_eq_self.2 fun e he => decide_eq_true (hread e he).1
      refine Sys.forall_locals (fun j l => l.Logged j ((log ++ es).filter fun e => e.caller = j))
        ?_ hother fun j hj => ?_
      · rw [hl, List.filter_append, hown]
        exact hlogged _ (hlog.calls i)
      · have hnone : es.filter (fun e => e.caller = j) = [] :=
          List.filter_eq_nil_iff.2 fun e he hej =>
            hj ((of_decide_eq_true hej).symm.trans (hread e he).1)
        rw [List.filter_append, hnone, List.append_nil]
        exact hlog.calls j
    · refine Sys.forall_locals (fun j l => l.Dated (Since s j) s'.shared) ?_ hother fun j hj => ?_
      · rw [hl, hsh]
        exact hdated
      · rw [hsh]
        exact (hd j).stable ((callStep_ok hs.1 (hs.2 i) hc).2.2 j hj) (hs.2 j)
  · obtain ⟨-, hrely⟩ := envStep_ok hs.1 he
    have htables : s'.shared.tables = u.shared.tables := by
      cases e <;> (rw [← Option.some.inj he])
    refine ⟨[], ⟨?_, fun j => ?_⟩, fun j => ?_, by simp⟩
    · rw [List.append_nil, htables]
      exact hlog.office
    · rw [List.append_nil, hloc]
      exact hlog.calls j
    · rw [hloc]
      exact (hd j).stable (hrely j) (hs.2 j)

/-- So does a run. -/
theorem run_linearizes (hs : CredentialsOK cfg s) (hlog : Linearizes s log)
    (hd : ∀ i, (s.locals i).Dated (Since s i) s.shared) {as : List (Act CallAct EnvAct)}
    (h : run (credentialStep cfg) s as = some s') :
    ∃ es, Linearizes s' (log ++ es) ∧ (∀ i, (s'.locals i).Dated (Since s i) s'.shared) ∧
      ∀ e ∈ es, Read (Since s e.caller) s'.shared e.now := by
  refine run_induction (P := fun _ s' => ∃ es, Linearizes s' (log ++ es) ∧
    (∀ i, (s'.locals i).Dated (Since s i) s'.shared) ∧
      ∀ e ∈ es, Read (Since s e.caller) s'.shared e.now) ?_ ?_ h
  · exact ⟨[], by rw [List.append_nil]; exact hlog, hd, by simp⟩
  · rintro as u a v hrun ⟨es, hlog, hd, hread⟩ hst
    have hu := (credential_relyGuarantee cfg).run hs hrun
    obtain ⟨es', hlog', hd', hread'⟩ := step_linearizes hu hlog hd (run_later hs hrun).1 hst
    have hclock : u.shared.clock ≤ v.shared.clock := (step_later hu hst).1
    refine ⟨es ++ es', by rw [← List.append_assoc]; exact hlog', hd', fun e he => ?_⟩
    rcases List.mem_append.1 he with he | he
    · exact (hread e he).mono hclock
    · exact (hread' e he).mono hclock

/-- What a call under way has read, it can have read after any state that it is under way in. -/
theorem Call.Dated.rebase (hd : (s.locals i).Dated since w) : (s.locals i).Dated (Since s i) w := by
  by_cases hidle : s.locals i = .idle
  · rw [hidle]
    trivial
  have hread : ∀ {now}, Read since w now → Read (Since s i) w now :=
    fun h => ⟨fun h0 => absurd h0 hidle, h.2⟩
  generalize s.locals i = l at hd
  cases l with
  | issue user codigoVuelo ph =>
    cases ph with
    | dated | ready | built | added | registered | unregistered => exact ⟨hread hd.1, hd.2⟩
    | renewing => exact ⟨⟨hread hd.1.1, hd.1.2⟩, hd.2⟩
    | start | validated | found | admitted | locked | committed | done => trivial
  | consume jti actor ph =>
    cases ph with
    | read => exact hread hd
    | start | marking | done => trivial
  | revokeById jti motivo ph =>
    cases ph with
    | locked c => exact hd
    | refreshed c =>
      obtain ⟨now, c₀, hnow, hrest⟩ := hd
      exact ⟨now, c₀, hread hnow, hrest⟩
    | revoked c r =>
      obtain ⟨now, ahora, c₀, hnow, hrest⟩ := hd
      exact ⟨now, ahora, c₀, hread hnow, hrest⟩
    | start | forgetting | done => trivial
  | detail jti pasajeroId ph =>
    cases ph with
    | locked c => exact hd
    | refreshed now c writes =>
      obtain ⟨c₀, hnow, hrest⟩ := hd
      exact ⟨c₀, hread hnow, hrest⟩
    | start | done => trivial
  | sweep limit ph =>
    cases ph with
    | read => exact hread hd
    | start | done => trivial
  | idle | mayBeUsable => trivial

/-- What a run from an initial state has logged. -/
theorem exists_log (h0 : s.Initial) {as : List (Act CallAct EnvAct)}
    (h : run (credentialStep cfg) s as = some s') :
    ∃ log, Linearizes s' log ∧ (∀ i, (s'.locals i).Dated (Since s' i) s'.shared) ∧
      ∀ e ∈ log, e.now ≤ s'.shared.clock := by
  have hidle : ∀ i, (s.locals i).Dated (Since s i) s.shared := by
    intro i
    rw [h0.2.2.2.2]
    trivial
  obtain ⟨log, hlog, hd, hread⟩ := run_linearizes h0.ok h0.linearizes hidle h
  exact ⟨log, hlog, fun i => (hd i).rebase, fun e he => (hread e he).2⟩

/-- **Linearizability.** A run of the credential services is a log of atomic operations of the
office that their tables hold at its end. Each call has made the entries it answers with, at an
instant that it read, and a longer run prolongs the log. -/
theorem credentials_linearize (h0 : s.Initial) {as bs : List (Act CallAct EnvAct)}
    (h : run (credentialStep cfg) s as = some s') (h' : run (credentialStep cfg) s' bs = some u) :
    ∃ log es, Linearizes s' log ∧ Linearizes u (log ++ es) ∧
      (∀ e ∈ log, e.now ≤ s'.shared.clock) ∧
      ∀ e ∈ es, e.now ≤ u.shared.clock ∧
        (s'.locals e.caller = .idle → s'.shared.clock ≤ e.now) := by
  obtain ⟨log, hlog, hd, hpast⟩ := exists_log h0 h
  obtain ⟨es, hlog', -, hread⟩ :=
    run_linearizes ((credential_relyGuarantee cfg).run h0.ok h) hlog hd h'
  exact ⟨log, es, hlog, hlog', hpast, fun e he => ⟨(hread e he).2, (hread e he).1⟩⟩

theorem Call.eq_idle {l : Call} (h : (l matches .idle) = true) : l = .idle := by
  cases l with
  | idle => rfl
  | issue | consume | revokeById | detail | sweep | mayBeUsable => cases h

/-- Calls 2 and 3 consume the credential 20 at the same time, and call 3 commits first. -/
def sampleRace : List (Act CallAct EnvAct) :=
  [.call 2 (.invoke (.consume 20 "a")), .call 3 (.invoke (.consume 20 "b")), .call 2 (.next {}),
    .env (.tick 5), .call 3 (.next {}), .call 3 (.next {}), .call 2 (.next {})]

/-- The log of the issue is prolonged by an entry of call 2, which finds the pass used. -/
theorem credentials_linearize_race :
    ∃ t u log es, run (credentialStep sampleSettings) sampleStart (sampleIssue 1 20) = some t ∧
      run (credentialStep sampleSettings) t sampleRace = some u ∧
      Linearizes t log ∧ Linearizes u (log ++ es) ∧
      ∃ e ∈ es, e.caller = 2 ∧ 0 ≤ e.now ∧ e.answer = .found .used := by
  have hrun : (run (credentialStep sampleSettings) sampleStart (sampleIssue 1 20)).bind
      (fun t => (run (credentialStep sampleSettings) t sampleRace).map fun u =>
        (t.shared.clock, t.locals 2 matches .idle, (u.locals 2).told)) =
        some (0, true, some (20, false, .used)) := by
    decide +kernel
  obtain ⟨t, ht, hu⟩ := Option.bind_eq_some_iff.1 hrun
  obtain ⟨u, hu, hres⟩ := Option.map_eq_some_iff.1 hu
  simp only [Prod.mk.injEq] at hres
  obtain ⟨hclock, hmatch, htold⟩ := hres
  have hidle := Call.eq_idle hmatch
  obtain ⟨log, es, hlog, hlog', -, hes⟩ := credentials_linearize sampleStart_initial ht hu
  obtain ⟨e, hown, -, hans, -⟩ := (hlog'.calls 2).told htold
  have hnone : log.filter (fun e => e.caller = 2) = [] := by
    have hcall := hlog.calls 2
    rwa [hidle] at hcall
  rw [List.filter_append, hnone, List.nil_append] at hown
  obtain ⟨hmem, hcaller⟩ := List.mem_filter.1 (hown ▸ List.mem_singleton_self e)
  have hcaller := of_decide_eq_true hcaller
  have hnow := (hes e hmem).2 (hcaller ▸ hidle)
  rw [hclock] at hnow
  exact ⟨t, u, log, es, ht, hu, hlog, hlog', e, hmem, hcaller, hnow, hans⟩

/-- **Answers agree.** Once a call has told that a pass ended, whatever ended it, every call that
starts later and tells of the pass tells the same, and has not ended it. -/
theorem told_agree (h0 : s.Initial) {as bs : List (Act CallAct EnvAct)}
    (h : run (credentialStep cfg) s as = some s') (h' : run (credentialStep cfg) s' bs = some u)
    {j : Nat} {b b' : Bool} {f f' : Fate} (hi : (s'.locals i).told = some (jti, b, f))
    (hf : f ≠ .live) (hj : s'.locals j = .idle) (hj' : (u.locals j).told = some (jti, b', f')) :
    b' = false ∧ f' = f := by
  obtain ⟨log, hlog, hd, -⟩ := exists_log h0 h
  obtain ⟨es, hlog', -⟩ := run_linearizes ((credential_relyGuarantee cfg).run h0.ok h) hlog hd h'
  obtain ⟨e, hown, -, -, htells⟩ := (hlog.calls i).told hi
  obtain ⟨e', hown', habout, hans, -⟩ := (hlog'.calls j).told hj'
  -- the entry of `i` is in the log of the first run, that of `j` in what the second one adds
  have hnone : log.filter (fun e => e.caller = j) = [] := by
    have := hlog.calls j
    rwa [hj] at this
  have he : e ∈ log := List.mem_of_mem_filter (hown ▸ List.mem_singleton_self e)
  have he' : e' ∈ es := by
    rw [List.filter_append, hnone, List.nil_append] at hown'
    exact List.mem_of_mem_filter (hown' ▸ List.mem_singleton_self e')
  obtain ⟨l₁, l₂, rfl⟩ := List.append_of_mem he
  obtain ⟨m₁, m₂, rfl⟩ := List.append_of_mem he'
  have hrun := hlog'.office
  rw [List.append_assoc, List.cons_append, ← List.append_assoc l₂] at hrun
  rcases Office.found_of_ended (htells hf) habout hrun with hab | hfound
  · rw [hab] at hans
    cases hans
  · rw [hfound] at hans
    cases b' with
    | true => cases hans; exact absurd rfl hf
    | false => cases hans; exact ⟨rfl, rfl⟩

/-- After call 3 has consumed the pass, a revocation by call 4 is refused: it was used. -/
theorem told_agree_race :
    ∃ t u, run (credentialStep sampleSettings) sampleStart (sampleIssue 1 20 ++ sampleRace ++
        [.call 3 (.next {})]) = some t ∧
      run (credentialStep sampleSettings) t (callThrough 4 (.revokeById 20 "motivo") 4) = some u ∧
      ∃ b f, (u.locals 4).told = some (20, b, f) ∧ b = false ∧ f = .used := by
  have hrun : (run (credentialStep sampleSettings) sampleStart (sampleIssue 1 20 ++ sampleRace ++
      [.call 3 (.next {})])).bind (fun t => (run (credentialStep sampleSettings) t
        (callThrough 4 (.revokeById 20 "motivo") 4)).map fun u =>
          ((t.locals 3).told, t.locals 4 matches .idle, (u.locals 4).told.map Prod.fst)) =
        some (some (20, true, .used), true, some 20) := by
    decide +kernel
  obtain ⟨t, ht, hu⟩ := Option.bind_eq_some_iff.1 hrun
  obtain ⟨u, hu, hres⟩ := Option.map_eq_some_iff.1 hu
  simp only [Prod.mk.injEq] at hres
  obtain ⟨htold, hmatch, htold'⟩ := hres
  obtain ⟨⟨id, b, f⟩, hres, rfl⟩ := Option.map_eq_some_iff.1 htold'
  exact ⟨t, u, ht, hu, b, f, hres,
    told_agree sampleStart_initial ht hu htold (by decide) (Call.eq_idle hmatch) hres⟩

end Aeropass
