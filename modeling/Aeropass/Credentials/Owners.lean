import Aeropass.Credentials.Reach
import Aeropass.Credentials.Sources

/-!
# Whose credentials the answers tell of

`issue` finds the passenger of the account that called it, and whatever it does from there is about
that passenger (`IssuePhase.About`): the pass it returns has a row, and the row that passenger.
`detail_for_owner` returns the credential and the history it was asked for, when the credential is
of the passenger it was given (`DetailPhase.About`).
-/

namespace Aeropass

open CredentialTables CredencialAcceso

/-- The passenger `id` registered with the account `user`. -/
def Owns (t : Rows PasajeroRow.id) (user : String) (id : UUID) : Prop :=
  ∃ p, t.find? id = some p ∧ p.clerkUserId = user

/-- Passengers keep their account and their document. -/
structure PasajerosKept (t t' : Rows PasajeroRow.id) : Prop where
  row : ∀ {id p}, t.find? id = some p →
    ∃ p', t'.find? id = some p' ∧ p'.clerkUserId = p.clerkUserId ∧ p'.documento = p.documento

/-- The pass that `issue` returns is the row it inserted, of the passenger of the account, in the
state that its history had reached, with the token that was signed for it. -/
structure PassOf (cfg : PassSettings) (w : World) (user : String) (pass : IssuedPass) : Prop where
  row : ∃ r, w.tables.row? pass.credencial.id = some r ∧
    SameIssue pass.credencial.toCredencialAccesoRow r
  owner : Owns w.pasajeros user pass.credencial.pasajeroId
  token : cfg.signer.Signed pass.credencial.toCredencialAccesoRow pass.token
  activa : pass.credencial.estado = .activa
  historial : ∃ h, h <+: w.tables.history pass.credencial.id ∧
    historial.replay h = some pass.credencial.estado
  permisos : pass.credencial.permisos ≠ []
  ttl : ttlMinSeconds ≤ cfg.ttl ∧ cfg.ttl ≤ ttlMaxSeconds
  vigencia : pass.credencial.expiraAt = pass.credencial.emitidaAt + seconds cfg.ttl
  renovar : pass.renovarEnSegundos = cfg.ttl - renewalMarginSeconds

/-- What `issue` knows of the account that called it. -/
def IssuePhase.About (cfg : PassSettings) (w : World) (user : String) : IssuePhase → Prop
  | .found _ p | .admitted _ p | .locked _ p _ => Owns w.pasajeros user p.id
  | .dated tx | .renewing tx _ | .ready tx | .unregistered tx _ =>
    Owns w.pasajeros user tx.pasajeroId
  | .built tx c token | .added tx c token | .registered tx c token =>
    Owns w.pasajeros user tx.pasajeroId ∧ cfg.signer.Signed c.toCredencialAccesoRow token
  | .committed _ pass | .done (.ok pass) => PassOf cfg w user pass
  | .start | .validated _ | .done (.error _) => True

/-- The aggregate is the stored credential that was asked for, of the passenger. -/
structure DetailOf (w : World) (jti pasajeroId : UUID) (c : CredencialAcceso) : Prop where
  id : c.id = jti
  pasajero : c.pasajeroId = pasajeroId
  row : ∃ r, w.tables.row? jti = some r ∧ SameIssue c.toCredencialAccesoRow r

/-- The history that `detail_for_owner` returns is the one so far, and its credential is in the
state that it replays to. -/
structure HistorialOf (w : World) (c : CredencialAcceso) (h : List Transicion) : Prop where
  history : h <+: w.tables.history c.id
  estado : historial.replay h = some c.estado
  emitida : c.estado ≠ .emitida

/-- What `detail_for_owner` knows of the credential that it was asked for. -/
def DetailPhase.About (w : World) (jti pasajeroId : UUID) : DetailPhase → Prop
  | .locked c | .refreshed _ c _ => DetailOf w jti pasajeroId c
  | .done _ (.ok (c, h)) => DetailOf w jti pasajeroId c ∧ HistorialOf w c h
  | .start | .done _ (.error _) => True

/-- What a call knows of whom it tells. -/
def Call.About (cfg : PassSettings) (w : World) : Call → Prop
  | .issue user _ ph => ph.About cfg w user
  | .detail jti pasajeroId ph => ph.About w jti pasajeroId
  | _ => True

variable {cfg : PassSettings} {i : Nat} {w w' : World} {ch : Choice} {user : String}
  {jti pasajeroId : UUID} {c : CredencialAcceso} {pass : IssuedPass}

/-! ## Stability -/

theorem PasajerosKept.refl (t : Rows PasajeroRow.id) : PasajerosKept t t :=
  ⟨fun h => ⟨_, h, rfl, rfl⟩⟩

theorem Owns.stable {t t' : Rows PasajeroRow.id} {id : UUID} (hk : PasajerosKept t t')
    (h : Owns t user id) : Owns t' user id := by
  obtain ⟨p, hp, hu⟩ := h
  obtain ⟨p', hp', hu', -⟩ := hk.row hp
  exact ⟨p', hp', hu'.trans hu⟩

/-- A credential in memory stays one of the issue of its row. -/
theorem sameIssue_stable {r₀ : CredencialAccesoRow} (hev : Evolves w.tables w'.tables) {id : UUID}
    (h : ∃ r, w.tables.row? id = some r ∧ SameIssue r₀ r) :
    ∃ r, w'.tables.row? id = some r ∧ SameIssue r₀ r := by
  obtain ⟨r, hr, hs⟩ := h
  obtain ⟨r', hr', hs', -⟩ := hev.row hr
  exact ⟨r', hr', hs.trans hs'⟩

/-- A history grows at its end. -/
theorem history_isPrefix (hev : Evolves w.tables w'.tables) (id : UUID) :
    w.tables.history id <+: w'.tables.history id := by
  obtain ⟨more, hmore⟩ := hev.log
  refine ⟨(more.filter fun r => r.credencialId = id).map fun r => r.toTransicion, ?_⟩
  rw [history, history, ← List.map_append, ← List.filter_append, hmore]

/-- The pass stays the account's, and its history goes on from where it was. -/
theorem PassOf.stable (hk : PasajerosKept w.pasajeros w'.pasajeros)
    (hev : Evolves w.tables w'.tables) (h : PassOf cfg w user pass) : PassOf cfg w' user pass :=
  { h with
    row := sameIssue_stable hev h.row
    owner := h.owner.stable hk
    historial := by
      obtain ⟨shown, hshown, hestado⟩ := h.historial
      exact ⟨shown, hshown.trans (history_isPrefix hev _), hestado⟩ }

theorem DetailOf.stable (hev : Evolves w.tables w'.tables) (h : DetailOf w jti pasajeroId c) :
    DetailOf w' jti pasajeroId c :=
  { h with row := sameIssue_stable hev h.row }

theorem HistorialOf.stable (hev : Evolves w.tables w'.tables) {h : List Transicion}
    (hh : HistorialOf w c h) : HistorialOf w' c h :=
  { hh with history := hh.history.trans (history_isPrefix hev c.id) }

/-- What a call knows survives every step that keeps accounts and issues. -/
theorem Call.About.stable (hk : PasajerosKept w.pasajeros w'.pasajeros)
    (hev : Evolves w.tables w'.tables) {l : Call} (h : l.About cfg w) : l.About cfg w' := by
  cases l with
  | issue user codigoVuelo ph =>
    cases ph with
    | found | admitted | locked | dated | renewing | ready | unregistered => exact Owns.stable hk h
    | built | added | registered => exact ⟨Owns.stable hk h.1, h.2⟩
    | committed => exact PassOf.stable hk hev h
    | start | validated => trivial
    | done r =>
      cases r with
      | ok pass => exact PassOf.stable hk hev h
      | error e => trivial
  | detail jti pasajeroId ph =>
    cases ph with
    | locked | refreshed => exact DetailOf.stable hev h
    | start => trivial
    | done now r =>
      cases r with
      | ok a => exact ⟨h.1.stable hev, h.2.stable hev⟩
      | error e => trivial
  | idle | consume | revokeById | sweep | mayBeUsable => trivial

/-! ## `issue` -/

/-- What `issue` returns after its commit. -/
theorem issueStep_about_registered (hw : WorldOK w) {codigoVuelo token : String} {tx : IssueTx}
    {r : World × IssuePhase} (hok : (IssuePhase.registered tx c token).OK cfg i w)
    (hown : Owns w.pasajeros user tx.pasajeroId)
    (hsigned : cfg.signer.Signed c.toCredencialAccesoRow token)
    (h : issueStep cfg i w user codigoVuelo ch (.registered tx c token) = some r) :
    r.2.About cfg r.1 user := by
  obtain ⟨old, c₀, hready, hb, rfl, hwr, htok⟩ := hok
  have hest : (c₀.flushed.activar tx.now).2.estado = .activa := by
    rw [activar, transition_estado_of_accepted]
    show (stateFor c₀.estado).canTransitionTo .activa = true
    rw [hb.estado]
    rfl
  obtain ⟨hcommit, hrow, -⟩ := issue_commits hw hready hb (c₀.flushed.activar tx.now).2 rfl
    ((inserted_spec hw hready hb).2.2.1.transition (fun h => by cases h) (fun h => by cases h))
    (by rw [hest]; simp) (fun _ => htok)
  rw [← hwr] at hcommit hrow
  have hpass : PassOf cfg (w.commit i tx.writes) user
      ⟨(c₀.flushed.activar tx.now).2.flushed, token, cfg.ttl - renewalMarginSeconds⟩ := {
    row := ⟨_, hrow, .refl _⟩
    owner := by
      rw [← hb.pasajero] at hown
      exact hown
    token := hsigned
    activa := hest
    historial := ⟨_, List.prefix_rfl, (hcommit.ok.history hrow).replay⟩
    permisos := fun hnil => by
      have hp := hb.permisos
      rw [show c₀.permisos = [] from hnil] at hp
      cases hp
    ttl := hb.ttl
    vigencia := by
      have h := hb.expira
      rw [← hb.emitida] at h
      exact h
    renovar := rfl }
  simp only [issueStep] at h
  split at h
  · split at h <;> cases h <;> exact hpass
  · cases h
    trivial

/-- One step of `issue` stays with the passenger of the account. -/
theorem issueStep_about (hw : WorldOK w) {codigoVuelo : String} {ph : IssuePhase}
    {r : World × IssuePhase} (hok : ph.OK cfg i w) (hl : ph.About cfg w user)
    (h : issueStep cfg i w user codigoVuelo ch ph = some r) : r.2.About cfg r.1 user := by
  cases ph with
  | start =>
    simp only [issueStep] at h
    split at h <;> cases h <;> trivial
  | validated codigo =>
    simp only [issueStep] at h
    split at h <;> cases h
    · next p _ hfind =>
      have huser := List.find?_some hfind
      exact ⟨p, Rows.find?_of_mem (List.mem_of_find?_eq_some hfind), of_decide_eq_true huser⟩
    · trivial
    · trivial
  | found codigo p =>
    simp only [issueStep] at h
    split at h <;> cases h
    · exact hl
    · trivial
  | admitted codigo p =>
    obtain ⟨p₀, hp₀, hu⟩ := hl
    simp only [issueStep] at h
    split at h
    · cases h; trivial
    next q hfind =>
    split at h
    · cases h
    split at h <;> cases h
    · trivial
    · have hid : q.id = p.id := Rows.find?_key hfind
      exact ⟨p₀, hid ▸ hp₀, hu⟩
  | locked codigo p x =>
    simp only [issueStep] at h
    split at h <;> cases h
    · exact hl
    · trivial
  | dated tx =>
    simp only [issueStep] at h
    split at h
    · cases h; exact hl
    split at h
    · cases h
    split at h <;> cases h <;> exact hl
  | renewing tx anterior => cases h; exact hl
  | ready tx =>
    simp only [issueStep] at h
    split at h
    · cases h
    split at h <;> cases h
    · next hb =>
      obtain ⟨signer, hsigner, hsigned⟩ := CredencialAccesoBuilder.build_signed hb
      refine ⟨hl, ?_⟩
      cases hsigner
      split at hsigned
      · exact hsigned
      · -- a signer that raises has signed nothing
        cases hsigned.sign
    · trivial
  | built tx c token =>
    simp only [issueStep] at h
    split at h <;> cases h
    · trivial
    · exact ⟨hl.1, hl.2.sign, hl.2.firma, hl.2.kid⟩
  | added tx c token =>
    simp only [issueStep] at h
    split at h <;> cases h
    · exact ⟨hl.1, hl.2.sign, hl.2.firma, hl.2.kid⟩
    · exact hl.1
  | registered tx c token => exact issueStep_about_registered hw hok hl.1 hl.2 h
  | unregistered tx c =>
    simp only [issueStep] at h
    split at h <;> cases h <;> trivial
  | committed jti pass =>
    cases h
    exact PassOf.stable (w := w) (.refl _) (.refl _) hl
  | done => cases h

/-! ## `detail_for_owner` -/

/-- One step of `detail_for_owner` stays with the credential and its passenger. -/
theorem detailStep_about (hw : WorldOK w) {ph : DetailPhase} {r : World × DetailPhase}
    (hok : ph.OK i w jti) (hl : ph.About w jti pasajeroId)
    (h : detailStep i w jti pasajeroId ch ph = some r) : r.2.About r.1 jti pasajeroId := by
  obtain ⟨-, hok', hguar⟩ := detailStep_ok hw hok h
  have hev : Evolves w.tables r.1.tables := (hguar (i + 1) (by omega)).evolves
  cases ph with
  | start =>
    simp only [detailStep] at h
    split at h
    · cases h
    split at h
    · cases h; trivial
    next c hget =>
    obtain ⟨hrow, -, hid⟩ := getForUpdate_eq_some hget
    split at h <;> cases h
    · trivial
    · next hpas => exact ⟨hid, Classical.not_not.1 hpas, _, hrow, .refl _⟩
  | locked c =>
    have hl : DetailOf w jti pasajeroId c := hl
    obtain ⟨row, hrow, hs⟩ := hl.row
    simp only [detailStep] at h
    rcases refreshExpiry_cases c w.clock with ⟨-, -, hr, -⟩ | ⟨-, hr⟩
    · rw [hr] at h
      cases h
      have hsame : SameIssue (c.expirar w.clock).2.toCredencialAccesoRow
          c.toCredencialAccesoRow := rfl
      exact ⟨hl.id, hl.pasajero, row, hrow, hsame.trans hs⟩
    · rw [hr] at h
      cases h
      exact hl
  | refreshed now c writes =>
    have hl : DetailOf r.1 jti pasajeroId c := DetailOf.stable hev hl
    simp only [detailStep] at h
    split at h <;> cases h
    · refine ⟨⟨hl.id, hl.pasajero, hl.row⟩, ?_, hok'.1, hok'.2.1⟩
      exact hl.id ▸ List.prefix_rfl
    · trivial
  | done => cases h

/-- One step of a call keeps what it knows of whom it tells. -/
theorem callStep_about (hw : WorldOK w) {l : Call} {a : CallAct} {r : World × Call}
    (hok : l.OK cfg i w) (hl : l.About cfg w) (h : callStep cfg i w l a = some r) :
    r.2.About cfg r.1 := by
  unfold callStep at h
  split at h
  · next q =>
    cases h
    cases q <;> trivial
  · obtain ⟨r', hr', rfl⟩ := Option.map_eq_some_iff.1 h
    exact issueStep_about hw hok hl hr'
  · obtain ⟨r', hr', rfl⟩ := Option.map_eq_some_iff.1 h
    trivial
  · obtain ⟨r', hr', rfl⟩ := Option.map_eq_some_iff.1 h
    trivial
  · obtain ⟨r', hr', rfl⟩ := Option.map_eq_some_iff.1 h
    exact detailStep_about hw hok hl hr'
  · obtain ⟨r', hr', rfl⟩ := Option.map_eq_some_iff.1 h
    trivial
  · cases h; trivial
  · cases h

end Aeropass
