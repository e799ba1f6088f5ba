import Aeropass.Credentials.Alike

/-!
# Lazy and swept expiry agree, step by step

Each service takes its step over tables that look the same, with the same outcome: one lemma a
service, and `callStep_sim` for all of them. `sweep_view` says that a sweep leaves the view.
-/

namespace Aeropass

open CredentialTables CredencialAcceso Runs Threads

variable {cfg : PassSettings} {i j : Nat} {w w' : World} {ch : Choice} {id jti : UUID}
  {n m : Instant}

/-! ## `consume` -/

/-- A step of `consume` has its like in the other run. -/
theorem consumeStep_sim {actor : String} {ph ph' : ConsumePhase} {r : World × ConsumePhase}
    (hw : WorldOK w) (hw' : WorldOK w') (ha : Alike w w') (hp : ph.Alike w w' ph')
    (hfree : ∀ k, ¬ (Call.consume jti actor ph').MayHold k → w'.locks k = none)
    (h : consumeStep i w jti actor ch ph = some r) :
    ∃ r', consumeStep i w' jti actor ch ph' = some r' ∧ Alike r.1 r'.1 ∧
      r.2.Alike r.1 r'.1 r'.2 := by
  cases hp with
  | start =>
    cases h
    exact ⟨(w', _), by rw [consumeStep, ha.clock], ha, .read ha.view⟩
  | @read now hnow =>
    have hlock : w'.locks (.credencial jti) = none := hfree _ id
    simp only [consumeStep] at h
    split at h
    · cases h
    split at h
    · next hg =>
      cases h
      exact ⟨(w', _), by simp [consumeStep, hlock, hnow.find_none hg], ha, .done _⟩
    next c hg =>
    obtain ⟨c', hg', hs⟩ := hnow.find hg
    split at h
    · next hcom =>
      obtain ⟨hrow, hpend, hid⟩ := getForUpdate_eq_some hg
      obtain ⟨hrow', hpend', hid'⟩ := getForUpdate_eq_some hg'
      rw [← hid] at hrow
      rw [← hid'] at hrow'
      obtain ⟨hres, hseen⟩ := seen_transition hs .consumida motivoConsumo actor now
      have hres : ((c.refreshExpiry now).2.consumir now actor).1 =
        ((c'.refreshExpiry now).2.consumir now actor).1 := hres
      have hview : SameView w.clock (w.tables.applyAll [.save (consumed c now actor).2])
          (w'.tables.applyAll [.save (consumed c' now actor).2]) := by
        refine ha.view.save ((Continues.of_row hw.tables hrow hpend).consumir now actor)
          ((Continues.of_row hw'.tables hrow' hpend').consumir now actor) ?_
        rw [consumed_id, consumed_id, hid, hid']
        exact hseen
      have hcommit := ha.commit hview i
      split at h
      · next hacc =>
        cases h
        exact ⟨(w'.commit i [.save (consumed c' now actor).2], _),
          by simp [consumeStep, hlock, hg', hcom, ← hres, hacc]; rfl, hcommit, .marking⟩
      · next hacc =>
        split at h
        · next answer hans =>
          cases h
          exact ⟨(w'.commit i [.save (consumed c' now actor).2], _),
            by simp [consumeStep, hlock, hg', hcom, ← hres, hacc, hans]; rfl, hcommit, .done _⟩
        · next hans =>
          cases h
          exact ⟨(w'.commit i [.save (consumed c' now actor).2], _),
            by simp [consumeStep, hlock, hg', hcom, ← hres, hacc, hans]; rfl, hcommit, .done _⟩
    · next hcom =>
      cases h
      exact ⟨(w', _), by simp [consumeStep, hlock, hg', hcom], ha, .done _⟩
  | marking =>
    cases h
    exact ⟨(_, _), by rw [consumeStep, ha.redis, ha.clock], ha.setRedis _, .done _⟩
  | done q => cases h

/-! ## `revoke_by_id` -/

/-- A step of `revoke_by_id` has its like in the other run. -/
theorem revokeStep_sim {motivo : String} {ph ph' : RevokePhase} {r : World × RevokePhase}
    (hl : ph.OK i w jti) (hl' : ph'.OK i w' jti) (ha : Alike w w') (hp : ph.Alike w w' jti ph')
    (hfree : ∀ k, ¬ (Call.revokeById jti motivo ph').MayHold k → w'.locks k = none)
    (h : revokeStep i w jti motivo ch ph = some r) :
    ∃ r', revokeStep i w' jti motivo ch ph' = some r' ∧ Alike r.1 r'.1 ∧
      r.2.Alike r.1 r'.1 jti r'.2 := by
  cases hp with
  | start =>
    have hlock : w'.locks (.credencial jti) = none := hfree _ id
    simp only [revokeStep] at h
    split at h
    · cases h
    split at h
    · next hg =>
      cases h
      exact ⟨(w', _), by simp [revokeStep, hlock, ha.view.find_none hg], ha, .done _⟩
    · next c hg =>
      cases h
      obtain ⟨c', hg', -⟩ := ha.view.find hg
      exact ⟨(_, _), by simp [revokeStep, hlock, hg']; rfl, ha.acquire i _,
        .locked hg hg'⟩
  | @locked c c' hc hc' =>
    cases h
    obtain ⟨d', hd', hs⟩ := ha.view.find hc
    rw [hc', Option.some.injEq] at hd'
    subst hd'
    exact ⟨(w', _), by rw [revokeStep, ha.clock], ha, .refreshed hs⟩
  | @refreshed c c' hs =>
    obtain ⟨hres, hseen⟩ := seen_transition hs .revocada motivo sistema w.clock
    have hstep : revokeStep i w' jti motivo ch (.refreshed c') =
        some (w', .revoked (c'.revocar motivo w.clock).2 (c'.revocar motivo w.clock).1) := by
      rw [← ha.clock]
      rfl
    have h : some (w, RevokePhase.revoked (c.revocar motivo w.clock).2
      (c.revocar motivo w.clock).1) = some r := h
    obtain rfl := Option.some.inj h
    refine ⟨_, hstep, ha, ?_⟩
    rw [show (c'.revocar motivo w.clock).1 = (c.revocar motivo w.clock).1 from hres.symm]
    exact .revoked _ hseen
  | @revoked c c' res hs =>
    obtain ⟨hheld, hid, -⟩ := hl
    obtain ⟨hheld', hid', -⟩ := hl'
    have hview : SameView w.clock (w.tables.applyAll [.save c]) (w'.tables.applyAll [.save c']) :=
      ha.view.save hheld.continues hheld'.continues (by rw [hid, hid']; exact hs)
    simp only [revokeStep] at h
    split at h
    · next hcom =>
      split at h
      · next hacc =>
        cases h
        exact ⟨(_, _), by simp [revokeStep, hcom, hacc]; rfl, ha.commit hview i,
          .forgetting res⟩
      · next hacc =>
        cases h
        exact ⟨(_, _), by simp [revokeStep, hcom, hacc]; rfl, ha.commit hview i,
          .done _⟩
    · next hcom =>
      cases h
      exact ⟨(w'.release i, _), by simp [revokeStep, hcom], ha.release i, .done _⟩
  | forgetting res =>
    cases h
    exact ⟨(_, _), by rw [revokeStep, ha.redis], ha.setRedis _, .done _⟩
  | done q => cases h

/-! ## `detail_for_owner` -/

/-- Lazy expiry in `detail_for_owner`: what its transaction reads of the credential then. -/
theorem detailStep_locked {pasajeroId : UUID} {c : CredencialAcceso} (hw : WorldOK w)
    (hc : w.tables.getForUpdate jti = some c) :
    ∃ ws, detailStep i w jti pasajeroId ch (.locked c) =
        some (w, .refreshed w.clock (c.refreshExpiry w.clock).2 ws) ∧
      SameView w.clock (w.tables.applyAll ws) w.tables ∧
      (w.tables.applyAll ws).history jti =
        w.tables.history jti ++ (c.refreshExpiry w.clock).2.pendingTransitions := by
  obtain ⟨hrow, hpend, hid⟩ := getForUpdate_eq_some hc
  rw [← hid] at hrow
  have hcont := Continues.of_row hw.tables hrow hpend
  rcases refreshExpiry_cases c w.clock with ⟨-, -, hr, -⟩ | ⟨-, hr⟩
  · refine ⟨[.save (c.refreshExpiry w.clock).2], ?_, view_save_expired (Int.le_refl _) hc hcont,
      ?_⟩
    · simp only [detailStep, hr]
      rfl
    · change (w.tables.write (.save (c.refreshExpiry w.clock).2)).history jti = _
      rw [history_write, Write.credencial, if_pos (by rw [refreshExpiry_id, hid])]
  · refine ⟨[], ?_, .refl _ _, ?_⟩
    · simp only [detailStep, hr]
      rfl
    · rw [hr]
      simp [hpend]

/-- A step of `detail_for_owner` has its like in the other run. -/
theorem detailStep_sim {pasajeroId : UUID} {ph ph' : DetailPhase} {r : World × DetailPhase}
    (hw : WorldOK w) (hw' : WorldOK w') (ha : Alike w w') (hp : ph.Alike w w' jti ph')
    (hfree : ∀ k, ¬ (Call.detail jti pasajeroId ph').MayHold k → w'.locks k = none)
    (h : detailStep i w jti pasajeroId ch ph = some r) :
    ∃ r', detailStep i w' jti pasajeroId ch ph' = some r' ∧ Alike r.1 r'.1 ∧
      r.2.Alike r.1 r'.1 jti r'.2 := by
  cases hp with
  | start =>
    have hlock : w'.locks (.credencial jti) = none := hfree _ id
    simp only [detailStep] at h
    split at h
    · cases h
    split at h
    · next hg =>
      cases h
      exact ⟨(w', _), by simp [detailStep, hlock, ha.view.find_none hg, ha.clock], ha, .done rfl⟩
    next c hg =>
    obtain ⟨c', hg', hs⟩ := ha.view.find hg
    have hown : c'.pasajeroId = c.pasajeroId := (seen_pasajeroId hs).symm
    split at h
    · next hne =>
      cases h
      exact ⟨(w', _), by simp [detailStep, hlock, hg', hown, hne, ha.clock], ha, .done rfl⟩
    · next heq =>
      cases h
      exact ⟨(_, _), by simp [detailStep, hlock, hg', hown, not_not.1 heq]; rfl,
        ha.acquire i _, .locked hg hg'⟩
  | @locked c c' hc hc' =>
    obtain ⟨d', hd', hs⟩ := ha.view.find hc
    rw [hc', Option.some.injEq] at hd'
    subst hd'
    obtain ⟨ws, hst, hv, hh⟩ := detailStep_locked hw hc
    obtain ⟨ws', hst', hv', hh'⟩ := detailStep_locked hw' hc'
    rw [h, Option.some.injEq] at hst
    subst hst
    rw [ha.clock] at hst' hv' hh'
    refine ⟨_, hst', ha, .refreshed (Int.le_refl _) (hv.trans (ha.view.trans hv'.symm)) ?_ ?_⟩
    · exact (Prod.mk.inj hs).1
    · rw [hh, hh']
      exact (Prod.mk.inj hs).2
  | @refreshed now c c' ws ws' hn hv hr hh =>
    have hview : SameView w.clock (w.tables.applyAll ws) (w'.tables.applyAll ws') := hv.later hn
    simp only [detailStep] at h
    split at h
    · next hcom =>
      cases h
      refine ⟨(_, .done now (.ok (c'.flushed, (w'.tables.applyAll ws').history jti))),
        by simp [detailStep, hcom]; rfl, ha.commit hview i, .done ?_⟩
      exact congrArg Except.ok (Prod.ext hr hh)
    · next hcom =>
      cases h
      exact ⟨(w'.release i, _), by simp [detailStep, hcom], ha.release i, .done rfl⟩
  | done hr => cases h

/-! ## `sweep_expired` -/

/-- **A sweep leaves the view** from the instant it has read. -/
theorem sweep_view {t : CredentialTables} (ht : TablesOK t) (hnm : n ≤ m) (limit : Nat)
    (skip : UUID → Bool) :
    SameView m (t.applyAll ((t.expiredLiveForUpdate n limit skip).map fun c =>
      .save (c.expirar n).2)) t := by
  obtain ⟨hs, hcont⟩ := swept_saved ht n limit skip
  intro k
  by_cases hk : ∃ c ∈ t.expiredLiveForUpdate n limit skip, c.id = k
  · obtain ⟨c, hc, rfl⟩ := hk
    have hmem := List.mem_map_of_mem (f := fun c => (c.expirar n).2) hc
    obtain ⟨hrow, hpend, hlive, hdue, -⟩ := (expiredLiveForUpdate_spec t n limit skip).1 c hc
    have hmoved : (c.expirar n).2 = (c.refreshExpiry n).2 := by
      rcases refreshExpiry_cases c n with ⟨-, -, hr, -⟩ | ⟨hlt, -⟩
      · rw [hr]
      · exact absurd hdue (Int.not_le.2 (hlt hlive))
    have hfound : t.getForUpdate c.id = some c := by
      rw [getForUpdate_of_row hrow]
      cases c
      simp_all [flushed]
    have hrow' := hs.row _ hmem
    have hhist' := hs.history _ hmem
    have hid : (c.expirar n).2.id = c.id := rfl
    unfold CredentialTables.view
    rw [← hid, getForUpdate_of_row hrow', hhist', hid, hfound, Option.map_some, Option.map_some,
      seen_flushed, hmoved, seen_refreshExpiry_refreshExpiry hnm]
  · obtain ⟨h1, h2⟩ := hs.other k fun c hc he => by
      obtain ⟨a, ha, rfl⟩ := List.mem_map.1 hc
      exact hk ⟨a, ha, he⟩
    unfold CredentialTables.view getForUpdate
    rw [h2, show (t.applyAll _).credenciales.find? k = t.credenciales.find? k from h1]

/-- A sweep on its own changes nothing that the calls see. -/
theorem sweepStep_view (hw : WorldOK w) {limit : Nat} {ph : SweepPhase} {r : World × SweepPhase}
    (hp : ph.Alike w ph) (h : sweepStep i w limit ch ph = some r) :
    r.1 = { w with tables := r.1.tables, locks := r.1.locks } ∧
      SameView w.clock r.1.tables w.tables ∧ r.2.Alike r.1 r.2 := by
  cases hp with
  | start =>
    cases h
    exact ⟨rfl, .refl _ _, .read (Int.le_refl _)⟩
  | @read now hn =>
    simp only [sweepStep] at h
    split at h <;> cases h
    · exact ⟨rfl, sweep_view hw.tables hn limit _, .done _ _⟩
    · exact ⟨rfl, .refl _ _, .done _ _⟩
  | done q q' => cases h

/-- A step of `sweep_expired` has its like in the other run. -/
theorem sweepStep_sim {limit : Nat} {ph ph' : SweepPhase} {r : World × SweepPhase}
    (hw : WorldOK w) (hw' : WorldOK w') (ha : Alike w w') (hp : ph.Alike w ph')
    (h : sweepStep i w limit ch ph = some r) :
    ∃ r', sweepStep i w' limit ch ph' = some r' ∧ Alike r.1 r'.1 ∧ r.2.Alike r.1 r'.2 := by
  cases hp with
  | start =>
    cases h
    exact ⟨(w', _), by rw [sweepStep, ha.clock], ha, .read (Int.le_refl _)⟩
  | @read now hn =>
    have hn' : now ≤ w'.clock := by rw [ha.clock]; exact hn
    simp only [sweepStep] at h
    split at h
    · next hcom =>
      cases h
      refine ⟨(_, _), by simp only [sweepStep, hcom, if_true]; rfl, ha.commit ?_ i, .done _ _⟩
      refine (sweep_view hw.tables hn limit _).trans (ha.view.trans ?_)
      rw [← ha.clock]
      exact (sweep_view hw'.tables hn' limit _).symm
    · next hcom =>
      cases h
      exact ⟨(w', .done (.error .database)), by simp [sweepStep, hcom], ha, .done _ _⟩
  | done q q' => cases h

/-! ## `issue` -/

theorem flushed_of_nil {c : CredencialAcceso} (h : c.pendingTransitions = []) : c.flushed = c := by
  cases c
  simp_all [flushed]

/-- The live credential of a key is the same, if it is not due. -/
theorem SameView.getLive (hw' : WorldOK w') {t : CredentialTables}
    (hv : SameView n t w'.tables) {p : UUID} {codigo : String} {a : CredencialAcceso}
    (hg : t.getLiveForUpdate p codigo = some a) (hn : n < a.expiraAt) :
    w'.tables.getLiveForUpdate p codigo = some a ∧
      (t.history a.id).map Transicion.undated =
        (w'.tables.history a.id).map Transicion.undated := by
  obtain ⟨hrow, hpend, hpas, hcod, hlive⟩ := getLiveForUpdate_eq_some hg
  have hfound : t.getForUpdate a.id = some a := by
    rw [getForUpdate_of_row hrow, flushed_of_nil hpend]
  obtain ⟨hfound', hh⟩ := hv.live hfound hlive hn
  obtain ⟨hrow', -, -⟩ := getForUpdate_eq_some hfound'
  refine ⟨?_, hh⟩
  cases hg' : w'.tables.getLiveForUpdate p codigo with
  | none =>
    have := getLiveForUpdate_eq_none hg' hrow' hpas hcod
    rw [hlive] at this
    cases this
  | some b =>
    obtain ⟨hrowb, hpendb, hpasb, hcodb, hliveb⟩ := getLiveForUpdate_eq_some hg'
    have hid : b.id = a.id := hw'.unaViva hrowb hrow' hliveb hlive (hpasb.trans hpas.symm)
      (hcodb.trans hcod.symm)
    have hfoundb := getForUpdate_of_row hrowb
    rw [flushed_of_nil hpendb, hid, hfound'] at hfoundb
    exact hfoundb.symm

/-- The lookup of the previous credential: it is held to be revoked when it is not due, and
otherwise expired, which leaves the view. -/
theorem issueStep_lookup {tx : IssueTx} (cfg : PassSettings) (i : Nat) (ch : Choice)
    (user codigoVuelo : String) (hw : WorldOK w) (hwr : tx.writes = [])
    (hfree : ∀ id, w.locks (.credencial id) = none) :
    (∃ ws w₁, issueStep cfg i w user codigoVuelo ch (.dated tx) =
        some (w₁, .ready { tx with writes := ws }) ∧ (w₁ = w ∨ ∃ k, w₁ = w.acquire i k) ∧
      SameView tx.now (w.tables.applyAll ws) w.tables ∧
      ∀ a, w.tables.getLiveForUpdate tx.pasajeroId tx.codigo = some a → a.expiraAt ≤ tx.now) ∨
    ∃ a, w.tables.getLiveForUpdate tx.pasajeroId tx.codigo = some a ∧ tx.now < a.expiraAt ∧
      issueStep cfg i w user codigoVuelo ch (.dated tx) =
        some (w.acquire i (.credencial a.id), .renewing tx a) := by
  cases hg : w.tables.getLiveForUpdate tx.pasajeroId tx.codigo with
  | none =>
    refine .inl ⟨[], w, ?_, .inl rfl, .refl _ _, fun a ha => by cases ha⟩
    simp only [issueStep, hg]
    rw [← hwr]
  | some a =>
    obtain ⟨hrow, hpend, -, -, hlive⟩ := getLiveForUpdate_eq_some hg
    have hfound : w.tables.getForUpdate a.id = some a := by
      rw [getForUpdate_of_row hrow, flushed_of_nil hpend]
    rcases refreshExpiry_cases a tx.now with ⟨-, hdue, hr, -⟩ | ⟨hlt, hr⟩
    · refine .inl ⟨[.save (a.refreshExpiry tx.now).2], w.acquire i (.credencial a.id), ?_,
        .inr ⟨_, rfl⟩, view_save_expired (Int.le_refl _) hfound (.of_row hw.tables hrow hpend),
        fun b hb => ?_⟩
      · simp [issueStep, hg, hfree, hr, hwr]
      · cases hb
        exact hdue
    · refine .inr ⟨a, rfl, hlt hlive, ?_⟩
      simp [issueStep, hg, hfree, hr]

/-- The credential that a transaction has inserted is what it finds under its id. -/
theorem inserted_found {tx : IssueTx} {old : Option CredencialAcceso} {c₀ : CredencialAcceso}
    (hw : WorldOK w) (h : TxReady i w tx old) (hb : Built cfg i w tx c₀) :
    (w.tables.applyAll (insertWrites old c₀)).getForUpdate c₀.id = some c₀.flushed := by
  have hid := h.row?_built hw hb
  have heq : w.tables.applyAll (insertWrites old c₀) =
      (w.tables.applyAll (old.toList.map .save)).write (.add c₀) := by
    simp [applyAll, insertWrites]
  have hrow := row?_add hid c₀.id
  rw [if_pos rfl, ← heq] at hrow
  exact getForUpdate_of_row hrow

/-- The new credential is not due at the instant it was issued. -/
theorem Built.not_due {tx : IssueTx} {c₀ : CredencialAcceso} (hb : Built cfg i w tx c₀) :
    tx.now < c₀.expiraAt := by
  have httl : 30 ≤ cfg.ttl ∧ cfg.ttl ≤ 60 := hb.ttl
  rw [hb.expira]
  simp only [seconds, Instant]
  omega

/-- After the insert the transaction saves what a transition makes of the new credential. -/
theorem SameView.saveInserted {tx : IssueTx} {ws : List Write} {old old' : Option CredencialAcceso}
    {c₀ c₁ : CredencialAcceso} (hw : WorldOK w) (hw' : WorldOK w')
    (h : TxReady i w tx old) (hb : Built cfg i w tx c₀)
    (h' : TxReady i w' { tx with writes := ws } old')
    (hb' : Built cfg i w' { tx with writes := ws } c₁) (hc : c₁.flushed = c₀.flushed)
    (hv : SameView tx.now (w.tables.applyAll (insertWrites old c₀))
      (w'.tables.applyAll (insertWrites old' c₁)))
    {target : EstadoCredencial} (motivo : String) (ht : target ≠ .consumida ∧ target ≠ .expirada) :
    SameView tx.now
      ((w.tables.applyAll (insertWrites old c₀)).write
        (.save (c₀.flushed.transition target motivo sistema tx.now).2))
      ((w'.tables.applyAll (insertWrites old' c₁)).write
        (.save (c₀.flushed.transition target motivo sistema tx.now).2)) := by
  have hlive : c₀.flushed.estado.live = true := by
    show c₀.estado.live = true
    rw [hb.estado]
    rfl
  have hseen : c₀.flushed.seen ((w.tables.applyAll (insertWrites old c₀)).history c₀.id) =
      c₀.flushed.seen ((w'.tables.applyAll (insertWrites old' c₁)).history c₀.id) := by
    obtain ⟨-, hh⟩ := hv.live (inserted_found hw h hb) hlive hb.not_due
    unfold seen
    rw [List.map_append, List.map_append, hh]
  have hcont : ∀ {t : CredentialTables}, Continues t c₀.flushed →
      Continues t (c₀.flushed.transition target motivo sistema tx.now).2 := fun hk =>
    hk.transition (fun he => absurd he ht.1) (fun he => absurd he ht.2)
  refine hv.save (hcont (inserted_spec hw h hb).2.2.1)
    (hcont (hc ▸ (inserted_spec hw' h' hb').2.2.1)) ?_
  exact (seen_transition hseen target motivo sistema tx.now).2

theorem applyAll_snoc (t : CredentialTables) (ws : List Write) (x : Write) :
    t.applyAll (ws ++ [x]) = (t.applyAll ws).write x := by
  simp [applyAll]

/-- Registering the token. -/
theorem issueStep_sim_added {tx : IssueTx} {c : CredencialAcceso} {token : String}
    {ws : List Write} {user codigoVuelo : String} {r : World × IssuePhase}
    (hw : WorldOK w) (hw' : WorldOK w') (hl : (IssuePhase.added tx c token).OK cfg i w)
    (hl' : (IssuePhase.added { tx with writes := ws } c token).OK cfg i w') (ha : Alike w w')
    (hv : SameView tx.now (w.tables.applyAll tx.writes) (w'.tables.applyAll ws))
    (h : issueStep cfg i w user codigoVuelo ch (.added tx c token) = some r) :
    ∃ r', issueStep cfg i w' user codigoVuelo ch (.added { tx with writes := ws } c token) =
      some r' ∧ Alike r.1 r'.1 ∧ r.2.Alike r.1 r'.1 r'.2 := by
  obtain ⟨old, c₀, hready, hb, rfl, hwr⟩ := hl
  obtain ⟨old', c₁, hready', hb', hcc, hwr'⟩ := hl'
  have hwr' : ws = insertWrites old' c₁ := hwr'
  rw [hwr, hwr'] at hv
  have hsave := fun {target : EstadoCredencial} (motivo : String)
      (ht : target ≠ .consumida ∧ target ≠ .expirada) =>
    SameView.saveInserted hw hw' hready hb hready' hb' hcc.symm hv motivo ht
  have hredis := ha.setRedis (w.redis.register w.clock ch.fault c₀.flushed.id cfg.ttl).2
  simp only [issueStep] at h
  split at h
  · next hreg =>
    cases h
    refine ⟨(_, .registered { tx with
        writes := ws ++ [.save (c₀.flushed.activar tx.now).2] } _ token), ?_, hredis,
      @IssuePhase.Alike.registered _ _ { tx with
        writes := tx.writes ++ [.save (c₀.flushed.activar tx.now).2] } _ _ _ ?_⟩
    · simp only [issueStep, ha.redis, ha.clock, if_pos hreg]
    · dsimp only
      rw [applyAll_snoc, applyAll_snoc, hwr, hwr']
      exact hsave motivoActivacion ⟨by simp, by simp⟩
  · next hreg =>
    cases h
    refine ⟨(_, .unregistered { tx with
        writes := ws ++ [.save (c₀.flushed.revocar motivoTokenNoRegistrado tx.now).2] } _), ?_,
      hredis, @IssuePhase.Alike.unregistered _ _ { tx with
        writes := tx.writes ++ [.save (c₀.flushed.revocar motivoTokenNoRegistrado tx.now).2] }
        _ _ ?_⟩
    · simp only [issueStep, ha.redis, ha.clock, if_neg hreg]
    · dsimp only
      rw [applyAll_snoc, applyAll_snoc, hwr, hwr']
      exact hsave motivoTokenNoRegistrado ⟨by simp, by simp⟩

/-- The phases that carry nothing that was read from the credentials. -/
theorem issueStep_sim_plain {user codigoVuelo : String} {ph : IssuePhase} {r : World × IssuePhase}
    (ha : Alike w w') (hp : ph.Plain)
    (hfree' : ∀ k, ¬ (Call.issue user codigoVuelo ph).MayHold k → w'.locks k = none)
    (h : issueStep cfg i w user codigoVuelo ch ph = some r) :
    ∃ r', issueStep cfg i w' user codigoVuelo ch ph = some r' ∧ Alike r.1 r'.1 ∧
      r.2.Alike r.1 r'.1 r'.2 := by
  cases ph with
  | start =>
    simp only [issueStep] at h
    split at h
    · next codigo hn =>
      cases h
      exact ⟨(w', .validated codigo), by simp [issueStep, hn], ha, .plain trivial⟩
    · next e hn =>
      cases h
      exact ⟨(w', .done (.error (.domain e))), by simp [issueStep, hn], ha, .plain trivial⟩
  | validated codigo =>
    simp only [issueStep] at h
    split at h
    · next p htext hf =>
      cases h
      exact ⟨(w', .found codigo { p with }), by simp only [issueStep, ha.pasajeros, htext, hf], ha,
        .plain trivial⟩
    · next htext hf =>
      cases h
      exact ⟨(w', _), by simp only [issueStep, ha.pasajeros, htext, hf], ha, .plain trivial⟩
    · next htext =>
      cases h
      exact ⟨(w', _), by simp only [issueStep, htext], ha, .plain trivial⟩
  | found codigo p =>
    simp only [issueStep] at h
    split at h
    · next hadm =>
      cases h
      exact ⟨(w', .admitted codigo p), by simp [issueStep, hadm], ha, .plain trivial⟩
    · next hadm =>
      cases h
      exact ⟨(w', .done (fail .limiteEmisionExcedido (some ch.retryAfter))),
        by simp [issueStep, hadm], ha, .plain trivial⟩
  | admitted codigo p =>
    have hlock : w'.locks (.pasajero p.id) = none := hfree' _ id
    simp only [issueStep] at h
    split at h
    · next hf =>
      cases h
      exact ⟨(w', _), by simp only [issueStep, ha.pasajeros, hf], ha, .plain trivial⟩
    next p' hf =>
    split at h
    · cases h
    split at h
    · next hid =>
      cases h
      exact ⟨(w', .done (fail .identidadNoActiva)),
        by simp [issueStep, ha.pasajeros, hf, hlock, ha.identidades, hid], ha, .plain trivial⟩
    · next identidad hid =>
      cases h
      exact ⟨(w'.acquire i (.pasajero p.id), .locked codigo { p' with } identidad),
        by simp [issueStep, ha.pasajeros, hf, hlock, ha.identidades, hid], ha.acquire i _,
        .plain trivial⟩
  | locked codigo p identidad =>
    simp only [issueStep] at h
    split at h
    · next hdoc =>
      cases h
      exact ⟨(w', .dated ⟨p.id, identidad.id, codigo, w.clock, [], none⟩),
        by simp [issueStep, ha.clock, hdoc], ha, .dated ha.view⟩
    · next hdoc =>
      cases h
      exact ⟨(w'.release i, .done (fail .documentoVencidoParaPase)),
        by simp [issueStep, ha.clock, hdoc], ha.release i, .plain trivial⟩
  | committed jti pass =>
    cases h
    exact ⟨(_, _), by rw [issueStep, ha.redis], ha.setRedis _, .plain trivial⟩
  | done q => cases h
  | dated | renewing | ready | built | added | registered | unregistered => exact hp.elim

/-- The lookup of the previous credential: one that is not due is found in both states. -/
theorem issueStep_sim_dated {tx : IssueTx} {user codigoVuelo : String} {r : World × IssuePhase}
    (hw : WorldOK w) (hw' : WorldOK w') (hwr : tx.writes = []) (ha : Alike w w')
    (hv : SameView tx.now w.tables w'.tables) (hcred : ∀ id, w.locks (.credencial id) = none)
    (hcred' : ∀ id, w'.locks (.credencial id) = none)
    (h : issueStep cfg i w user codigoVuelo ch (.dated tx) = some r) :
    ∃ r', issueStep cfg i w' user codigoVuelo ch (.dated tx) = some r' ∧ Alike r.1 r'.1 ∧
      r.2.Alike r.1 r'.1 r'.2 := by
  rcases issueStep_lookup cfg i ch user codigoVuelo hw hwr hcred with
    ⟨ws, w₁, hst, hw₁, hview, hdue⟩ | ⟨a, hg, hn, hst⟩
  · rcases issueStep_lookup cfg i ch user codigoVuelo hw' hwr hcred' with
      ⟨ws', w₁', hst', hw₁', hview', -⟩ | ⟨a, hg', hn, -⟩
    · rw [h, Option.some.injEq] at hst
      subst hst
      have htables : w₁.tables = w.tables := by rcases hw₁ with rfl | ⟨k, rfl⟩ <;> rfl
      have htables' : w₁'.tables = w'.tables := by rcases hw₁' with rfl | ⟨k, rfl⟩ <;> rfl
      have ha₁ : Alike w₁ w' := by
        rcases hw₁ with rfl | ⟨k, rfl⟩
        · exact ha
        · exact ha.acquire_left i k
      have ha₂ : Alike w₁ w₁' := by
        rcases hw₁' with rfl | ⟨k, rfl⟩
        · exact ha₁
        · exact ha₁.acquire_right i k
      refine ⟨_, hst', ha₂, @IssuePhase.Alike.ready _ _ { tx with writes := ws } _ ?_⟩
      rw [htables, htables']
      exact hview.trans (hv.trans hview'.symm)
    · -- the second state has a live credential that is not due, so the first has it too
      obtain ⟨hg, -⟩ := SameView.getLive hw hv.symm hg' hn
      exact absurd (hdue a hg) (Int.not_le.2 hn)
  · obtain ⟨hg', hh⟩ := SameView.getLive hw' hv hg hn
    rcases issueStep_lookup cfg i ch user codigoVuelo hw' hwr hcred' with
      ⟨ws', w₁', -, -, -, hdue'⟩ | ⟨a', hg'', -, hst'⟩
    · exact absurd (hdue' a hg') (Int.not_le.2 hn)
    · rw [hg', Option.some.injEq] at hg''
      subst hg''
      rw [h, Option.some.injEq] at hst
      subst hst
      exact ⟨_, hst', ha.acquire i _, .renewing hv hh⟩

/-- A step of `issue` has its like in the other run, where its transaction may find the previous
credential swept. -/
theorem issueStep_sim {user codigoVuelo : String} {ph ph' : IssuePhase} {r : World × IssuePhase}
    (hw : WorldOK w) (hw' : WorldOK w') (hl : ph.OK cfg i w) (hl' : ph'.OK cfg i w')
    (ha : Alike w w') (hp : ph.Alike w w' ph')
    (hfree : ∀ k, ¬ (Call.issue user codigoVuelo ph).MayHold k → w.locks k = none)
    (hfree' : ∀ k, ¬ (Call.issue user codigoVuelo ph').MayHold k → w'.locks k = none)
    (h : issueStep cfg i w user codigoVuelo ch ph = some r) :
    ∃ r', issueStep cfg i w' user codigoVuelo ch ph' = some r' ∧ Alike r.1 r'.1 ∧
      r.2.Alike r.1 r'.1 r'.2 := by
  cases hp with
  | plain hp => exact issueStep_sim_plain ha hp hfree' h
  | @dated tx hv =>
    exact issueStep_sim_dated hw hw' hl.2.1 ha hv (fun id => hfree _ (by rintro ⟨_, hk⟩; cases hk))
      (fun id => hfree' _ (by rintro ⟨_, hk⟩; cases hk)) h
  | @renewing tx a hv hh =>
    obtain ⟨-, hwr, hheld, -⟩ := hl
    obtain ⟨-, -, hheld', -⟩ := hl'
    have hseen : a.seen (w.tables.history a.id) = a.seen (w'.tables.history a.id) := by
      unfold seen
      rw [List.map_append, List.map_append, hh]
    have hview := SameView.save hv (hheld.continues.revocar motivoRenovacion w.clock)
      (hheld'.continues.revocar motivoRenovacion w.clock)
      (seen_transition hseen .revocada motivoRenovacion sistema w.clock).2
    cases h
    refine ⟨(w', _), by simp only [issueStep, ha.clock]; rfl, ha,
      @IssuePhase.Alike.ready _ _
        { tx with
          writes := tx.writes ++ [.save (a.revocar motivoRenovacion w.clock).2]
          forget := if (a.revocar motivoRenovacion w.clock).1.aceptada then some a.id else none }
        _ ?_⟩
    dsimp only
    rw [hwr]
    exact hview
  | @ready tx ws hv =>
    simp only [issueStep] at h
    split at h
    · cases h
    next hfresh =>
    split at h
    · next c token hb =>
      cases h
      refine ⟨(_, .built { tx with writes := ws } c token), ?_, ha.setIssuer _, .built hv⟩
      simp only [issueStep, ha.issuer, hb]
      rw [if_neg hfresh]
    · next e hb =>
      cases h
      refine ⟨(w'.release i, .done (.error e)), ?_, ha.release i, .plain trivial⟩
      simp only [issueStep, ha.issuer, hb]
      rw [if_neg hfresh]
  | @built tx c token ws hv =>
    obtain ⟨old, hready, hwr, hb⟩ := hl
    obtain ⟨old', hready', hwr', hb'⟩ := hl'
    have hwr' : ws = old'.toList.map .save := hwr'
    simp only [issueStep, hwr, insertError_none hw hready hb] at h
    cases h
    refine ⟨(w', .added { tx with writes := ws ++ [.add c] } c.flushed token), ?_, ha,
      @IssuePhase.Alike.added _ _ { tx with writes := old.toList.map .save ++ [.add c] } _ _ _ ?_⟩
    · simp only [issueStep, hwr', insertError_none hw' hready' hb']
    · dsimp only
      rw [applyAll_snoc, applyAll_snoc, hwr']
      rw [hwr, hwr'] at hv
      have hrow := hready.row?_built hw hb
      have hrow' := hready'.row?_built hw' hb'
      exact hv.add hrow hrow' ((hready.saved hw).1.ok.orphan hrow)
        ((hready'.saved hw').1.ok.orphan hrow')
  | added hv => exact issueStep_sim_added hw hw' hl hl' ha hv h
  | @registered tx c token ws hv =>
    obtain ⟨old, c₀, hready, -⟩ := hl
    have hview : SameView w.clock (w.tables.applyAll tx.writes) (w'.tables.applyAll ws) :=
      hv.later hready.now
    simp only [issueStep] at h
    split at h
    · next hcom =>
      split at h
      · next jti hj =>
        cases h
        exact ⟨(w'.commit i ws, _), by simp only [issueStep, hcom, hj]; rfl, ha.commit hview i,
          .plain trivial⟩
      · next hj =>
        cases h
        exact ⟨(w'.commit i ws, _), by simp only [issueStep, hcom, hj]; rfl, ha.commit hview i,
          .plain trivial⟩
    · next hcom =>
      cases h
      exact ⟨(w'.release i, .done (.error .database)), by simp [issueStep, hcom], ha.release i,
        .plain trivial⟩
  | @unregistered tx c ws hv =>
    obtain ⟨old, c₀, hready, -⟩ := hl
    have hview : SameView w.clock (w.tables.applyAll tx.writes) (w'.tables.applyAll ws) :=
      hv.later hready.now
    simp only [issueStep] at h
    split at h
    · next hcom =>
      cases h
      exact ⟨(w'.commit i ws, .done (fail .almacenamientoNoDisponible (some 1))),
        by simp [issueStep, hcom], ha.commit hview i, .plain trivial⟩
    · next hcom =>
      cases h
      exact ⟨(w'.release i, .done (.error .database)), by simp [issueStep, hcom], ha.release i,
        .plain trivial⟩

/-! ## All services -/

/-- **A call takes its step over tables that look the same.** -/
theorem callStep_sim {l l' : Call} {r : World × Call} {a : CallAct} (hw : WorldOK w)
    (hw' : WorldOK w') (hl : l.OK cfg i w) (hl' : l'.OK cfg i w') (ha : Alike w w')
    (hp : l.Alike w w' l') (hfree : ∀ k, ¬ l.MayHold k → w.locks k = none)
    (hfree' : ∀ k, ¬ l'.MayHold k → w'.locks k = none)
    (h : callStep cfg i w l a = some r) :
    ∃ r', callStep cfg i w' l' a = some r' ∧ Alike r.1 r'.1 ∧ r.2.Alike r.1 r'.1 r'.2 := by
  cases a with
  | invoke q =>
    cases hp with
    | idle =>
      cases h
      refine ⟨(w', .start q), rfl, ha, ?_⟩
      cases q with
      | issue => exact .issue (.plain trivial)
      | consume => exact .consume .start
      | revokeById => exact .revokeById .start
      | detail => exact .detail .start
      | sweep => exact .sweep .start
      | mayBeUsable => exact .mayBeUsable _ _
    | issue | consume | revokeById | detail | sweep => cases h
    | mayBeUsable jti ans => cases ans <;> cases h
  | next ch =>
    cases hp with
    | idle => cases h
    | issue hp =>
      obtain ⟨q, hq, rfl⟩ := Option.map_eq_some_iff.1 h
      obtain ⟨q', hq', ha', hp'⟩ := issueStep_sim hw hw' hl hl' ha hp hfree hfree' hq
      exact ⟨_, Option.map_eq_some_iff.2 ⟨q', hq', rfl⟩, ha', .issue hp'⟩
    | consume hp =>
      obtain ⟨q, hq, rfl⟩ := Option.map_eq_some_iff.1 h
      obtain ⟨q', hq', ha', hp'⟩ := consumeStep_sim hw hw' ha hp hfree' hq
      exact ⟨_, Option.map_eq_some_iff.2 ⟨q', hq', rfl⟩, ha', .consume hp'⟩
    | revokeById hp =>
      obtain ⟨q, hq, rfl⟩ := Option.map_eq_some_iff.1 h
      obtain ⟨q', hq', ha', hp'⟩ := revokeStep_sim hl hl' ha hp hfree' hq
      exact ⟨_, Option.map_eq_some_iff.2 ⟨q', hq', rfl⟩, ha', .revokeById hp'⟩
    | detail hp =>
      obtain ⟨q, hq, rfl⟩ := Option.map_eq_some_iff.1 h
      obtain ⟨q', hq', ha', hp'⟩ := detailStep_sim hw hw' ha hp hfree' hq
      exact ⟨_, Option.map_eq_some_iff.2 ⟨q', hq', rfl⟩, ha', .detail hp'⟩
    | sweep hp =>
      obtain ⟨q, hq, rfl⟩ := Option.map_eq_some_iff.1 h
      obtain ⟨q', hq', ha', hp'⟩ := sweepStep_sim hw hw' ha hp hq
      exact ⟨_, Option.map_eq_some_iff.2 ⟨q', hq', rfl⟩, ha', .sweep hp'⟩
    | mayBeUsable jti ans =>
      cases ans <;> cases h
      refine ⟨(w', _), by rw [callStep, ha.redis, ha.clock], ha, .mayBeUsable _ _⟩

end Aeropass
