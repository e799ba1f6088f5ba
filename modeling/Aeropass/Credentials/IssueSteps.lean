import Aeropass.Credentials.Steps

/-!
# The steps of the issuance service

Each step of `issue` keeps the invariant, what the call knows and what the others rely on. The
transaction first makes the live credential of its key final (`IssuePhase.ready`), so the insert of
the new one violates no constraint (`insertError_none`), and its commit leaves one live credential
of the key (`issue_commits`).
-/

namespace Aeropass

open CredentialTables CredencialAcceso

variable {cfg : PassSettings} {i : Nat} {w : World} {ch : Choice} {tx : IssueTx}
  {old : Option CredencialAcceso} {c₀ c₁ : CredencialAcceso} {id : UUID}

/-! ## The open transaction -/

/-- More writes leave what the transaction knows. -/
theorem TxOpen.withWrites (h : TxOpen i w tx) (ws : List Write) (f : Option UUID) :
    TxOpen i w { tx with writes := ws, forget := f } := ⟨h.lock, h.codigo, h.now⟩

theorem TxReady.withWrites (h : TxReady i w tx old) (ws : List Write) :
    TxReady i w { tx with writes := ws } old :=
  ⟨h.toTxOpen.withWrites ws tx.forget, h.held, h.dead, h.only, h.forget⟩

theorem Built.withWrites (h : Built cfg i w tx c₀) (ws : List Write) :
    Built cfg i w { tx with writes := ws } c₀ := { h with }

/-! ## The previous credential -/

/-- What the transaction of `issue` has done to the previous credential of its key. -/
theorem TxReady.saved (hw : WorldOK w) (h : TxReady i w tx old) :
    Saved w.tables (w.tables.applyAll (old.toList.map .save)) old.toList ∧
      ∀ c ∈ old.toList, Continues w.tables c := by
  have hcont : ∀ c ∈ old.toList, Continues w.tables c := fun c hc =>
    (h.held c (Option.mem_toList.1 hc)).continues
  refine ⟨saves_spec hw.tables ?_ hcont, hcont⟩
  cases old <;> simp

theorem TxReady.aged (hw : WorldOK w) (h : TxReady i w tx old) {r : CredencialAccesoRow}
    (hr : (w.tables.applyAll (old.toList.map .save)).row? id = some r) : AgedRow w id r :=
  agedRow_of_saved hw (h.saved hw).1 (h.saved hw).2
    (fun c hc => (h.held c (Option.mem_toList.1 hc)).estado) hr

/-- No credential of the key is live after the previous one was saved. -/
theorem TxReady.none_live (hw : WorldOK w) (h : TxReady i w tx old) {r : CredencialAccesoRow}
    (hr : (w.tables.applyAll (old.toList.map .save)).row? id = some r)
    (hp : r.pasajeroId = tx.pasajeroId) (hc : r.codigoVuelo = tx.codigo) :
    r.estado.live = false := by
  by_contra hlive
  rw [Bool.not_eq_false] at hlive
  obtain ⟨-, r₀, hr₀, hs, hl⟩ := h.aged hw hr
  obtain ⟨-, e2, e3, -⟩ := hs.eqs
  obtain ⟨a, ha, rfl⟩ := h.only hr₀ (hl hlive) (e2 ▸ hp) (e3 ▸ hc)
  rw [(h.saved hw).1.row a (Option.mem_toList.2 ha), Option.some.injEq] at hr
  rw [← hr, h.dead a ha] at hlive
  cases hlive

/-! ## The new credential -/

/-- What the builder returns to the transaction of `issue`. -/
theorem built_of_build (hw : WorldOK w) (h : TxReady i w tx old) {jti : UUID} {s : CredentialSigner}
    {token : String} (hfree : w.issuer jti = none)
    (hb : (({} : CredencialAccesoBuilder).paraPasajero tx.pasajeroId |>.conIdentidad tx.identidadId
      |>.paraVuelo tx.codigo |>.conTtl cfg.ttl |>.firmadoCon s |>.emitidoEn tx.now).build jti =
        .ok (c₀, token)) :
    Built cfg i { w with issuer := Function.update w.issuer jti (some i) } tx c₀ := by
  obtain ⟨p, identidad, codigo, ttl, kid, now, codigo', firma, hp, hc, ht, hn, hbound, hperm, hcod,
    rfl⟩ := CredencialAccesoBuilder.build_ok hb
  cases hp
  cases hc
  cases ht
  cases hn
  rw [normalizarCodigoVuelo_of_match h.codigo] at hcod
  cases hcod
  exact {
    issuer := Function.update_self ..
    row := by
      rw [Option.eq_none_iff_forall_ne_some]
      intro r hr
      exact hw.issued hr hfree
    estado := rfl
    pasajero := rfl
    codigo := rfl
    permisos := hperm
    emitida := rfl
    expira := rfl
    ttl := hbound
    history := .emitir
    spares := by simp [Spares, emitir] }

/-- The id of the new credential is free, also after the previous one was saved. -/
theorem TxReady.row?_built (hw : WorldOK w) (h : TxReady i w tx old) (hb : Built cfg i w tx c₀) :
    (w.tables.applyAll (old.toList.map .save)).row? c₀.id = none := by
  rw [Option.eq_none_iff_forall_ne_some]
  intro r hr
  obtain ⟨-, r₀, hr₀, -⟩ := h.aged hw hr
  rw [hb.row] at hr₀
  cases hr₀

/-- **The insert violates no constraint.** -/
theorem insertError_none (hw : WorldOK w) (h : TxReady i w tx old) (hb : Built cfg i w tx c₀) :
    (w.tables.applyAll (old.toList.map .save)).insertError c₀ = none := by
  have hid := h.row?_built hw hb
  have hvig : seconds 30 ≤ c₀.expiraAt - c₀.emitidaAt ∧
      c₀.expiraAt - c₀.emitidaAt ≤ seconds 60 := by
    have httl : 30 ≤ cfg.ttl ∧ cfg.ttl ≤ 60 := hb.ttl
    rw [hb.emitida, hb.expira]
    simp only [seconds, Instant]
    omega
  have hviva : ((w.tables.applyAll (old.toList.map .save)).credenciales.rows.any fun r =>
      r.estado.live && r.pasajeroId = c₀.pasajeroId && r.codigoVuelo = c₀.codigoVuelo) = false := by
    rw [List.any_eq_false]
    intro r hr hlive
    simp only [Bool.and_eq_true, decide_eq_true_eq] at hlive
    have := h.none_live hw (mem_rows.1 hr) (hlive.1.2.trans hb.pasajero) (hlive.2.trans hb.codigo)
    rw [hlive.1.1] at this
    cases this
  have hid' : (w.tables.applyAll (old.toList.map .save)).credenciales.find? c₀.id = none := hid
  have hcod : matchCodigoVuelo c₀.codigoVuelo.toList = true := hb.codigo ▸ h.codigo
  simp only [insertError, hid', hvig, hb.permisos, hcod, hviva]
  simp

/-- The tables of the transaction after the insert. -/
theorem inserted_spec (hw : WorldOK w) (h : TxReady i w tx old) (hb : Built cfg i w tx c₀) :
    TablesOK (w.tables.applyAll (insertWrites old c₀)) ∧
      Evolves w.tables (w.tables.applyAll (insertWrites old c₀)) ∧
      Continues (w.tables.applyAll (insertWrites old c₀)) c₀.flushed ∧
      ∀ id, id ≠ c₀.id →
        (w.tables.applyAll (insertWrites old c₀)).row? id =
            (w.tables.applyAll (old.toList.map .save)).row? id ∧
          (w.tables.applyAll (insertWrites old c₀)).history id =
            (w.tables.applyAll (old.toList.map .save)).history id := by
  have hs := (h.saved hw).1
  have hid := h.row?_built hw hb
  have heq : w.tables.applyAll (insertWrites old c₀) =
      (w.tables.applyAll (old.toList.map .save)).write (.add c₀) := by
    simp [applyAll, insertWrites]
  obtain ⟨hok, hev⟩ := add_spec hs.ok hid hb.history
  rw [heq]
  refine ⟨hok, hs.evolves.trans hev, .of_row hok ?_ rfl, fun id hne => ⟨?_, ?_⟩⟩
  · change ((w.tables.applyAll (old.toList.map .save)).write (.add c₀)).row? c₀.id = _
    rw [row?_add hid, if_pos rfl]
    rfl
  · rw [row?_add hid, if_neg hne.symm]
  · rw [history_write, Write.credencial, if_neg hne.symm, List.append_nil]

/-- **The commit of `issue`.** It leaves the new credential as the transaction made it, the
previous one final and every other as it was. -/
theorem issue_commits (hw : WorldOK w) (h : TxReady i w tx old) (hb : Built cfg i w tx c₀)
    (c₁ : CredencialAcceso) (hid : c₁.id = c₀.id)
    (hc : Continues (w.tables.applyAll (insertWrites old c₀)) c₁)
    (hest : c₁.estado ≠ .emitida)
    (htok : c₁.estado = .activa →
      ∃ e, w.redis c₀.id = some e ∧ e.valor = .activa ∧ c₀.expiraAt ≤ e.expira) :
    Commits i w (w.tables.applyAll (insertWrites old c₀ ++ [.save c₁])) ∧
      (w.tables.applyAll (insertWrites old c₀ ++ [.save c₁])).row? c₀.id =
        some c₁.toCredencialAccesoRow ∧
      ∀ a ∈ old, (w.tables.applyAll (insertWrites old c₀ ++ [.save c₁])).row? a.id =
        some a.toCredencialAccesoRow := by
  obtain ⟨hok, hev, hnew, hother⟩ := inserted_spec hw h hb
  have heq : w.tables.applyAll (insertWrites old c₀ ++ [.save c₁]) =
      (w.tables.applyAll (insertWrites old c₀)).write (.save c₁) := by
    simp [applyAll]
  obtain ⟨hok', hev'⟩ := save_spec hok hc
  have hrow := hc.row?_save
  rw [← heq] at hok' hev' hrow
  have hkeep : ∀ id, id ≠ c₀.id →
      (w.tables.applyAll (insertWrites old c₀ ++ [.save c₁])).row? id =
          (w.tables.applyAll (old.toList.map .save)).row? id ∧
        (w.tables.applyAll (insertWrites old c₀ ++ [.save c₁])).history id =
          (w.tables.applyAll (old.toList.map .save)).history id := by
    intro id hne
    have := save_other (w.tables.applyAll (insertWrites old c₀))
      (show c₁.id ≠ id by rw [hid]; exact hne.symm)
    rw [heq]
    exact ⟨this.1.trans (hother id hne).1, this.2.trans (hother id hne).2⟩
  -- the new row is of the issue that was inserted
  have hsame : c₁.pasajeroId = c₀.pasajeroId ∧ c₁.codigoVuelo = c₀.codigoVuelo ∧
      c₁.expiraAt = c₀.expiraAt := by
    obtain ⟨r, hr, hs⟩ := hc.row
    obtain ⟨r', hr', hs'⟩ := hnew.row
    rw [hid] at hr
    rw [show c₀.flushed.id = c₀.id from rfl, hr, Option.some.injEq] at hr'
    subst hr'
    obtain ⟨-, e1, e2, e3⟩ := hs.eqs
    obtain ⟨-, e1', e2', e3'⟩ := hs'.eqs
    exact ⟨e1.trans e1'.symm, e2.trans e2'.symm, e3.trans e3'.symm⟩
  rw [hid] at hrow
  refine ⟨⟨hok', hev.trans hev', fun {id r j} hij hl hr => ?_, fun {id r} hr => ?_⟩, hrow,
    fun a ha => ?_⟩
  · have hne : id ≠ c₀.id := by rintro rfl; rw [hb.row] at hr; cases hr
    have := (h.saved hw).1.other id fun a ha he => by
      rw [← he, (h.held a (Option.mem_toList.1 ha)).lock, Option.some.injEq] at hl
      exact hij hl.symm
    rw [(hkeep id hne).1, (hkeep id hne).2]
    exact ⟨this.1.trans hr, this.2⟩
  · by_cases hne : id = c₀.id
    · subst hne
      rw [hrow, Option.some.injEq] at hr
      subst hr
      refine .inr ⟨hb.issuer, hb.row, hest, ?_, ?_, fun {id' r'} hr' _ hl hp hcod => ?_, ?_⟩
      · rw [hsame.2.1, hb.codigo]; exact h.codigo
      · rw [hsame.1, hb.pasajero]; exact h.lock
      · by_contra hne
        rw [(hkeep id' hne).1] at hr'
        have := h.none_live hw hr' (by rw [hp, hsame.1, hb.pasajero])
          (by rw [hcod, hsame.2.1, hb.codigo])
        rw [hl] at this
        cases this
      · rw [hsame.2.2]; exact htok
    · rw [(hkeep id hne).1] at hr
      exact .inl (h.aged hw hr)
  · have hne : a.id ≠ c₀.id := by
      obtain ⟨r, hr, -⟩ := (h.held a ha).continues.row
      intro he
      rw [he, hb.row] at hr
      cases hr
    rw [(hkeep a.id hne).1]
    exact (h.saved hw).1.row a (Option.mem_toList.2 ha)

/-! ## The steps -/

/-- Looking up the live credential of the key: there is none, it is made final because it is due,
or it is held to be revoked. -/
theorem issueStep_dated (hw : WorldOK w) {r : World × IssuePhase}
    (hph : (IssuePhase.dated tx).OK cfg i w) {user codigoVuelo : String}
    (h : issueStep cfg i w user codigoVuelo ch (.dated tx) = some r) :
    WorldOK r.1 ∧ r.2.OK cfg i r.1 ∧ Guar i w r.1 := by
  obtain ⟨hopen, hwr, hfor⟩ := hph
  simp only [issueStep] at h
  split at h
  · next hg =>
    cases h
    refine ⟨hw, ⟨none, ⟨hopen, by simp, by simp, fun hr hl hp hc => ?_, by simp [hfor]⟩, hwr⟩,
      .refl i w⟩
    rw [getLiveForUpdate_eq_none hg hr hp hc] at hl
    cases hl
  next a hg =>
  split at h
  · cases h
  next hl =>
  have hl : w.locks (.credencial a.id) = none := by simpa using hl
  obtain ⟨hr, hp, hpas, hcod, hlive⟩ := getLiveForUpdate_eq_some hg
  have hheld : Held i (w.acquire i (.credencial a.id)) a := .of_read hw hr hp i
  have hopen' := hopen.stable (Rely.acquire (j := i) (i := i) hl).toKeeps
  rcases refreshExpiry_cases a tx.now with ⟨-, he, hre, hest⟩ | ⟨-, hre⟩
  · rw [hre] at h
    cases h
    refine ⟨hw.acquire i _, ⟨some (a.expirar tx.now).2,
      ⟨hopen'.withWrites _ _, ?_, ?_, ?_, ?_⟩, ?_⟩, .acquire hl⟩
    · rintro b ⟨⟩
      exact ⟨hheld.lock, hheld.continues.expirar he, transition_ne_emitida hheld.estado (by simp),
        hheld.spares.transition (by simp)⟩
    · rintro b ⟨⟩
      rw [hest]
      rfl
    · intro id r hr' hl' hp' hc'
      exact ⟨_, rfl, hw.unaViva hr hr' hlive hl' (hpas.trans hp'.symm) (hcod.trans hc'.symm)⟩
    · simp [hfor]
    · simp [hwr]
  · rw [hre] at h
    cases h
    exact ⟨hw.acquire i _, ⟨hopen', hwr, hheld, hlive, hpas, hcod, hr⟩, .acquire hl⟩

/-- Revoking the live credential of the key. -/
theorem issueStep_renewing (hw : WorldOK w) {a : CredencialAcceso} {r : World × IssuePhase}
    (hph : (IssuePhase.renewing tx a).OK cfg i w) {user codigoVuelo : String}
    (h : issueStep cfg i w user codigoVuelo ch (.renewing tx a) = some r) :
    WorldOK r.1 ∧ r.2.OK cfg i r.1 ∧ Guar i w r.1 := by
  obtain ⟨hopen, hwr, hheld, hlive, hpas, hcod, hr⟩ := hph
  obtain ⟨hdead, hacc, hrev⟩ := revocar_spec a motivoRenovacion w.clock
  have h : some (w, IssuePhase.ready { tx with
      writes := tx.writes ++ [.save (a.revocar motivoRenovacion w.clock).2]
      forget := if (a.revocar motivoRenovacion w.clock).1.aceptada then some a.id else none }) =
    some r := h
  obtain rfl := Option.some.inj h
  refine ⟨hw, ⟨some (a.revocar motivoRenovacion w.clock).2,
    ⟨hopen.withWrites _ _, ?_, ?_, ?_, ?_⟩, by simp [hwr]⟩, .refl i w⟩
  · rintro b ⟨⟩
    exact ⟨hheld.lock, hheld.continues.revocar _ _, transition_ne_emitida hheld.estado (by simp),
      hheld.spares.transition (by simp)⟩
  · rintro b ⟨⟩
    exact hdead
  · intro id r hr' hl' hp' hc'
    exact ⟨_, rfl, hw.unaViva hr hr' hlive hl' (hpas.trans hp'.symm) (hcod.trans hc'.symm)⟩
  · intro jti hj
    simp only [hacc, hlive, if_true, Option.some.injEq] at hj
    exact ⟨_, rfl, hj, hrev hlive⟩

/-- Registering the token before the commit. -/
theorem issueStep_added (hw : WorldOK w) {c : CredencialAcceso} {token : String}
    {r : World × IssuePhase} (hph : (IssuePhase.added tx c token).OK cfg i w)
    {user codigoVuelo : String}
    (h : issueStep cfg i w user codigoVuelo ch (.added tx c token) = some r) :
    WorldOK r.1 ∧ r.2.OK cfg i r.1 ∧ Guar i w r.1 := by
  obtain ⟨old, c₀, hready, hb, rfl, hwr⟩ := hph
  have hother : ∀ id, id ≠ c₀.id →
      (w.redis.register w.clock ch.fault c₀.id cfg.ttl).2 id = w.redis id :=
    fun _ hid => redis_register_other hid
  obtain ⟨h1, h2⟩ := redis_ok (i := i) hw hother (.inr ⟨hb.row, hb.issuer⟩)
  have hk := Keeps.redis i w (w.redis.register w.clock ch.fault c₀.id cfg.ttl).2
  simp only [issueStep] at h
  split at h
  · next hreg =>
    cases h
    refine ⟨h1, ⟨old, c₀, (hready.stable hk).withWrites _, (hb.stable hk).withWrites _, rfl,
      by rw [hwr], ?_⟩, h2⟩
    refine ⟨_, redis_register_ok hreg, rfl, ?_⟩
    have := hready.now
    rw [hb.expira]
    simp only [Instant] at this ⊢
    omega
  · cases h
    exact ⟨h1, ⟨old, c₀, (hready.stable hk).withWrites _, (hb.stable hk).withWrites _,
      by rw [hwr]⟩, h2⟩

/-- The commit of an issued credential. -/
theorem issueStep_registered (hw : WorldOK w) {c : CredencialAcceso} {token : String}
    {r : World × IssuePhase} (hph : (IssuePhase.registered tx c token).OK cfg i w)
    {user codigoVuelo : String}
    (h : issueStep cfg i w user codigoVuelo ch (.registered tx c token) = some r) :
    WorldOK r.1 ∧ r.2.OK cfg i r.1 ∧ Guar i w r.1 := by
  obtain ⟨old, c₀, hready, hb, rfl, hwr, htok⟩ := hph
  simp only [issueStep] at h
  split at h
  case isFalse => cases h; exact ⟨hw.release i, by simp [IssuePhase.OK], .release i w⟩
  obtain ⟨hcom, hrow, hold⟩ := issue_commits hw hready hb (c₀.flushed.activar tx.now).2 rfl
    ((inserted_spec hw hready hb).2.2.1.transition (fun h => by cases h) (fun h => by cases h))
    (by rw [activar, transition_estado_of_accepted]
        · simp
        · show (stateFor c₀.estado).canTransitionTo .activa = true
          rw [hb.estado]; rfl)
    (fun _ => htok)
  obtain ⟨h1, h2⟩ := commit_ok hw hcom
  rw [← hwr] at h1 h2 hrow hold
  have hdone : ((w.commit i tx.writes).tables.row? c₀.id).isSome := by
    change ((w.tables.applyAll tx.writes).row? c₀.id).isSome
    rw [hrow]; rfl
  split at h
  · next jti hj =>
    cases h
    obtain ⟨a, ha, rfl, hrev⟩ := hready.forget jti hj
    exact ⟨h1, ⟨⟨_, hold a ha, hrev⟩, hdone, hb.issuer⟩, h2⟩
  · cases h
    exact ⟨h1, ⟨hdone, hb.issuer⟩, h2⟩

/-- The commit of a credential whose token was not registered. -/
theorem issueStep_unregistered (hw : WorldOK w) {c : CredencialAcceso}
    {r : World × IssuePhase} (hph : (IssuePhase.unregistered tx c).OK cfg i w)
    {user codigoVuelo : String}
    (h : issueStep cfg i w user codigoVuelo ch (.unregistered tx c) = some r) :
    WorldOK r.1 ∧ r.2.OK cfg i r.1 ∧ Guar i w r.1 := by
  obtain ⟨old, c₀, hready, hb, hwr⟩ := hph
  simp only [issueStep] at h
  split at h
  case isFalse => cases h; exact ⟨hw.release i, by simp [IssuePhase.OK], .release i w⟩
  cases h
  have hrev := (revocar_spec c₀.flushed motivoTokenNoRegistrado tx.now).2.2
    (by show c₀.estado.live = true; rw [hb.estado]; rfl)
  obtain ⟨hcom, -, -⟩ := issue_commits hw hready hb
    (c₀.flushed.revocar motivoTokenNoRegistrado tx.now).2 rfl
    ((inserted_spec hw hready hb).2.2.1.revocar _ _) (by rw [hrev]; simp)
    (fun h => by rw [hrev] at h; cases h)
  obtain ⟨h1, h2⟩ := commit_ok hw hcom
  rw [← hwr] at h1 h2
  exact ⟨h1, by simp [IssuePhase.OK, fail], h2⟩

/-- One step of `issue` keeps the invariant, and what the other calls rely on. -/
theorem issueStep_ok (hw : WorldOK w) {user codigoVuelo : String} {ph : IssuePhase}
    {r : World × IssuePhase} (hph : ph.OK cfg i w)
    (h : issueStep cfg i w user codigoVuelo ch ph = some r) :
    WorldOK r.1 ∧ r.2.OK cfg i r.1 ∧ Guar i w r.1 := by
  cases ph with
  | start =>
    simp only [issueStep] at h
    split at h
    · next hn => cases h; exact ⟨hw, (normalizarCodigoVuelo_ok hn).2, .refl i w⟩
    · cases h; exact ⟨hw, by simp [IssuePhase.OK], .refl i w⟩
  | validated codigo =>
    simp only [issueStep] at h
    split at h
    · cases h; exact ⟨hw, hph, .refl i w⟩
    · cases h; exact ⟨hw, by simp [IssuePhase.OK, fail], .refl i w⟩
    · next htext =>
      cases h
      obtain ⟨texto, -, -, rfl⟩ := textError?_eq_some htext
      exact ⟨hw, by simp [IssuePhase.OK], .refl i w⟩
  | found codigo p =>
    simp only [issueStep] at h
    split at h <;> cases h
    · exact ⟨hw, hph, .refl i w⟩
    · exact ⟨hw, by simp [IssuePhase.OK, fail], .refl i w⟩
  | admitted codigo p =>
    simp only [issueStep] at h
    split at h
    · cases h; exact ⟨hw, by simp [IssuePhase.OK, fail], .refl i w⟩
    next p' hp =>
    split at h
    · cases h
    next hl =>
    have hl : w.locks (.pasajero p.id) = none := by simpa using hl
    split at h
    · cases h; exact ⟨hw, by simp [IssuePhase.OK, fail], .refl i w⟩
    cases h
    refine ⟨hw.acquire i _, ⟨hph, ?_⟩, .acquire hl⟩
    change (w.acquire i (.pasajero p.id)).locks (.pasajero p'.id) = some i
    rw [Rows.find?_key hp]
    exact acquire_self ..
  | locked codigo p identidad =>
    simp only [issueStep] at h
    split at h <;> cases h
    · exact ⟨hw, ⟨⟨hph.2, hph.1, Int.le_refl _⟩, rfl, rfl⟩, .refl i w⟩
    · exact ⟨hw.release i, by simp [IssuePhase.OK, fail], .release i w⟩
  | dated tx => exact issueStep_dated hw hph h
  | renewing tx a => exact issueStep_renewing hw hph h
  | ready tx =>
    obtain ⟨old, hready, hwr⟩ := hph
    simp only [issueStep] at h
    split at h
    · cases h
    next hfree =>
    have hfree : w.issuer ch.jti = none := by simpa using hfree
    split at h
    · next c token hb =>
      cases h
      have hk : Rely i w { w with issuer := Function.update w.issuer ch.jti (some i) } :=
        .draw hfree
      exact ⟨hw.draw hfree, ⟨old, hready.stable hk.toKeeps, hwr,
        built_of_build hw hready hfree hb⟩, fun _ _ => .draw hfree⟩
    · next e he =>
      cases h
      exact ⟨hw.release i, CredencialAccesoBuilder.build_error he, .release i w⟩
  | built tx c token =>
    obtain ⟨old, hready, hwr, hb⟩ := hph
    simp only [issueStep, hwr, insertError_none hw hready hb] at h
    cases h
    exact ⟨hw, ⟨old, c, hready.withWrites _, hb.withWrites _, rfl, rfl⟩, .refl i w⟩
  | added tx c token => exact issueStep_added hw hph h
  | registered tx c token => exact issueStep_registered hw hph h
  | unregistered tx c => exact issueStep_unregistered hw hph h
  | committed jti pass =>
    obtain ⟨⟨r', hr', he⟩, hrow, hiss⟩ := hph
    cases h
    have hother : ∀ id, id ≠ jti → (w.redis.revoke ch.fault jti).2 id = w.redis id :=
      fun _ hid => redis_revoke_other hid
    obtain ⟨h1, h2⟩ := redis_ok (i := i) hw hother (.inl ⟨r', hr', by rw [he]; simp⟩)
    exact ⟨h1, ⟨hrow, hiss⟩, h2⟩
  | done r => cases h

end Aeropass
