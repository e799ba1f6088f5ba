import Aeropass.Credentials.Writes

/-!
# Revoked tokens

A revocation that a call commits obliges it to remove the token from Redis afterwards. What concerns
the tokens is observed along a run (`tokens`): the accepted revocations that a step commits, and the
attempts to remove a token. Every revocation is followed by its attempt, except those that `issue`
commits after the registration of the new token has raised (`CommitsWithoutToken`).
-/

namespace Aeropass

open CredentialTables CredencialAcceso Runs Threads

variable {cfg : PassSettings} {i j : Nat} {w w' : World} {l : Call} {ch : Choice}
  {r : World × Call} {s t : CredentialSystem} {ws ws' : List Write}

/-! ## Accepted revocations -/

/-- The credentials whose accepted revocation is among the rows. -/
def revocadas (rs : List TransicionCredencialRow) : List UUID :=
  (rs.filter fun r => r.aceptada && r.estadoSolicitado = .revocada).map (·.credencialId)

theorem revocadas_append (rs rs' : List TransicionCredencialRow) :
    revocadas (rs ++ rs') = revocadas rs ++ revocadas rs' := by
  simp [revocadas]

theorem newRows_append : newRows (ws ++ ws') = newRows ws ++ newRows ws' := by
  simp [newRows]

/-- The credentials that repository calls revoke. -/
def revokedBy (ws : List Write) : List UUID := revocadas (newRows ws)

@[simp] theorem revokedBy_nil : revokedBy [] = [] := rfl

theorem revokedBy_append : revokedBy (ws ++ ws') = revokedBy ws ++ revokedBy ws' := by
  rw [revokedBy, newRows_append, revocadas_append]
  rfl

/-- Aggregates whose buffers request no REVOCADA revoke nothing. -/
theorem revokedBy_of_spares (h : ∀ x ∈ ws, x.credencial.Spares .revocada) : revokedBy ws = [] := by
  unfold revokedBy revocadas newRows
  rw [List.map_eq_nil_iff, List.filter_eq_nil_iff]
  intro r hr
  obtain ⟨x, hx, hr⟩ := List.mem_flatMap.1 hr
  obtain ⟨p, hp, rfl⟩ := List.mem_map.1 hr
  simp [h x hx p hp]

theorem revokedBy_add {c : CredencialAcceso} (h : c.Spares .revocada) :
    revokedBy [.add c] = [] :=
  revokedBy_of_spares (by simpa [Write.credencial] using h)

theorem revokedBy_save {c : CredencialAcceso} (h : c.Spares .revocada) :
    revokedBy [.save c] = [] :=
  revokedBy_of_spares (by simpa [Write.credencial] using h)

/-- Saving an aggregate after a revocation revokes it, if the revocation was accepted. -/
theorem revokedBy_revocar {c : CredencialAcceso} (hc : c.Spares .revocada) (motivo : String)
    (ahora : Instant) :
    revokedBy [.save (c.revocar motivo ahora).2] = if c.estado.live then [c.id] else [] := by
  have hcan : (stateFor c.estado).canTransitionTo .revocada = c.estado.live := by
    cases c.estado <;> decide
  have hpend : (c.revocar motivo ahora).2.pendingTransitions =
      c.pendingTransitions ++ [c.record .revocada motivo sistema ahora] :=
    transition_pendingTransitions
  have hold := revokedBy_save hc
  unfold revokedBy newRows at hold ⊢
  simp only [List.flatMap_cons, List.flatMap_nil, List.append_nil, Write.credencial] at hold ⊢
  rw [hpend, List.map_append, revocadas_append]
  have hid : (c.revocar motivo ahora).2.id = c.id := rfl
  rw [hid, hold]
  simp only [revocadas, record, hcan]
  cases c.estado.live <;> simp

/-! ## What a call has to remove -/

/-- What concerns the tokens: an accepted revocation that is committed, an attempt to remove a token
with whether it succeeded, and a commit of `issue` without a token. -/
inductive TokenEvent where
  | revocada (jti : UUID)
  | olvidada (jti : UUID) (ok : Bool)
  | sinToken
  deriving DecidableEq, Repr

/-- What the next step of a call does besides its commit. -/
def Call.removal (ch : Choice) : Call → List TokenEvent
  | .issue _ _ (.committed jti _) | .revokeById jti _ (.forgetting _) =>
    [.olvidada jti (ch.fault = .none)]
  | .issue _ _ (.unregistered _ _) => if ch.commits then [.sinToken] else []
  | _ => []

/-- What concerns the tokens in a step, with its call. -/
def tokenObs (s : CredentialSystem) (a : Act CallAct EnvAct) (t : CredentialSystem) :
    List (Nat × TokenEvent) :=
  match a with
  | .call i (.next ch) =>
    ((revocadas (t.shared.tables.transiciones.drop s.shared.tables.transiciones.length)).map
      TokenEvent.revocada ++ (s.locals i).removal ch).map fun e => (i, e)
  | _ => []

/-- What concerns the tokens along a run. -/
abbrev tokens (cfg : PassSettings) (s : CredentialSystem) (as : List (Act CallAct EnvAct)) :
    List (Nat × TokenEvent) :=
  outputs tokenObs (credentialStep cfg) s as

/-- What one call did of it. -/
def eventsOf (i : Nat) (log : List (Nat × TokenEvent)) : List TokenEvent :=
  (log.filter fun e => e.1 = i).map Prod.snd

/-- What the open transactions revoke: `issue` the credential in `anterior_a_olvidar` and, when no
token was registered, the new one; `revoke_by_id` its own. -/
def Call.Revokes : Call → Prop
  | .issue _ _ (.dated tx) => revokedBy tx.writes = [] ∧ tx.forget = none
  | .issue _ _ (.renewing tx a) => revokedBy tx.writes = [] ∧ a.Spares .revocada
  | .issue _ _ (.ready tx) | .issue _ _ (.registered tx _ _) =>
    revokedBy tx.writes = tx.forget.toList
  | .issue _ _ (.built tx c _) | .issue _ _ (.added tx c _) =>
    revokedBy tx.writes = tx.forget.toList ∧ c.Spares .revocada ∧ c.estado = .emitida
  | .issue _ _ (.unregistered tx c) => revokedBy tx.writes = tx.forget.toList ++ [c.id]
  | .revokeById jti _ (.locked c) | .revokeById jti _ (.refreshed c) =>
    c.id = jti ∧ c.Spares .revocada
  | .revokeById jti _ (.revoked c r) => revokedBy [.save c] = if r.aceptada then [jti] else []
  | .detail _ _ (.locked c) => c.Spares .revocada
  | .detail _ _ (.refreshed _ _ writes) => revokedBy writes = []
  | _ => True

/-- Nothing was revoked, or one credential, and then its token was attempted to remove. -/
def Settled (evs : List TokenEvent) : Prop :=
  evs = [] ∨ ∃ jti ok, evs = [.revocada jti, .olvidada jti ok]

/-- What a call did that concerns the tokens, from where it is. -/
def Call.Told (evs : List TokenEvent) : Call → Prop
  | .issue _ _ (.committed jti _) | .revokeById jti _ (.forgetting _) => evs = [.revocada jti]
  | .issue _ _ (.done _) => Settled evs ∨
    ∃ (jtis : List UUID) (jti : UUID), evs = jtis.map .revocada ++ [.revocada jti, .sinToken]
  | .revokeById _ _ (.done _) => Settled evs
  | _ => evs = []

/-! ## One step -/

/-- What a step does that revokes no credential and attempts no removal. -/
theorem told_of_quiet {l l' : Call} (hl : ∀ evs, l.Told evs → evs = []) (hl' : l'.Told [])
    (hrev : revokedBy (l.commits w ch) = []) (hrem : l.removal ch = []) :
    ∀ evs, l.Told evs →
      l'.Told (evs ++ ((revokedBy (l.commits w ch)).map .revocada ++ l.removal ch)) := by
  intro evs hevs
  rw [hl evs hevs, hrev, hrem]
  exact hl'

/-- An `issue` that raised has told of nothing. -/
theorem told_issue_error {user codigoVuelo : String} (e : Failure) :
    (Call.issue user codigoVuelo (.done (.error e))).Told [] := .inl (.inl rfl)

/-- The commit of `issue` after its token was registered: it goes on to forget the token that it
has revoked, if there is one. -/
theorem issueStep_told_registered {user codigoVuelo token : String} {tx : IssueTx}
    {c : CredencialAcceso} {r : World × IssuePhase}
    (hm : revokedBy tx.writes = tx.forget.toList)
    (h : issueStep cfg i w user codigoVuelo ch (.registered tx c token) = some r) :
    (Call.issue user codigoVuelo r.2).Revokes ∧
      ∀ evs, (Call.issue user codigoVuelo (.registered tx c token)).Told evs →
        (Call.issue user codigoVuelo r.2).Told (evs ++
          ((revokedBy ((Call.issue user codigoVuelo (.registered tx c token)).commits w ch)).map
            .revocada ++ (Call.issue user codigoVuelo (.registered tx c token)).removal ch)) := by
  simp only [issueStep] at h
  cases hc : ch.commits with
  | false =>
    simp only [hc, Bool.false_eq_true, if_false] at h
    cases h
    exact ⟨trivial, told_of_quiet (fun _ h => h) (told_issue_error _) (by simp [Call.commits, hc])
      rfl⟩
  | true =>
    simp only [hc, if_true] at h
    have hcom : revokedBy ((Call.issue user codigoVuelo (.registered tx c token)).commits w ch) =
        tx.forget.toList := by
      simpa [Call.commits, hc] using hm
    rw [hcom]
    split at h
    · next jti hj =>
      cases h
      refine ⟨trivial, fun evs hevs => ?_⟩
      rw [show evs = [] from hevs, hj]
      rfl
    · next hj =>
      cases h
      refine ⟨trivial, fun evs hevs => ?_⟩
      rw [show evs = [] from hevs, hj]
      exact .inl (.inl rfl)

/-- The commit after the registration failed: the new credential is revoked too, and nothing is
forgotten. -/
theorem issueStep_told_unregistered {user codigoVuelo : String} {tx : IssueTx}
    {c : CredencialAcceso} {r : World × IssuePhase}
    (hm : revokedBy tx.writes = tx.forget.toList ++ [c.id])
    (h : issueStep cfg i w user codigoVuelo ch (.unregistered tx c) = some r) :
    (Call.issue user codigoVuelo r.2).Revokes ∧
      ∀ evs, (Call.issue user codigoVuelo (.unregistered tx c)).Told evs →
        (Call.issue user codigoVuelo r.2).Told (evs ++
          ((revokedBy ((Call.issue user codigoVuelo (.unregistered tx c)).commits w ch)).map
            .revocada ++ (Call.issue user codigoVuelo (.unregistered tx c)).removal ch)) := by
  simp only [issueStep] at h
  cases hc : ch.commits with
  | false =>
    simp only [hc, Bool.false_eq_true, if_false] at h
    cases h
    exact ⟨trivial, told_of_quiet (fun _ h => h) (told_issue_error _) (by simp [Call.commits, hc])
      (by simp [Call.removal, hc])⟩
  | true =>
    simp only [hc, if_true] at h
    cases h
    refine ⟨trivial, fun evs hevs => .inr ⟨tx.forget.toList, c.id, ?_⟩⟩
    rw [show evs = [] from hevs]
    simp [Call.commits, Call.removal, hc, hm]

/-- One step of `issue`: what it revokes it is told to forget. -/
theorem issueStep_told {user codigoVuelo : String} {ph : IssuePhase} {r : World × IssuePhase}
    (hm : (Call.issue user codigoVuelo ph).Revokes)
    (h : issueStep cfg i w user codigoVuelo ch ph = some r) :
    (Call.issue user codigoVuelo r.2).Revokes ∧
      ∀ evs, (Call.issue user codigoVuelo ph).Told evs →
        (Call.issue user codigoVuelo r.2).Told (evs ++
          ((revokedBy ((Call.issue user codigoVuelo ph).commits w ch)).map .revocada ++
            (Call.issue user codigoVuelo ph).removal ch)) := by
  cases ph with
  | locked codigo p identidad =>
    simp only [issueStep] at h
    split at h <;> cases h
    · exact ⟨⟨rfl, rfl⟩, told_of_quiet (fun _ h => h) rfl rfl rfl⟩
    · exact ⟨trivial, told_of_quiet (fun _ h => h) (told_issue_error _) rfl rfl⟩
  | start | validated | found =>
    simp only [issueStep] at h
    split at h <;> cases h
    all_goals first
      | exact ⟨trivial, told_of_quiet (fun _ h => h) rfl rfl rfl⟩
      | exact ⟨trivial, told_of_quiet (fun _ h => h) (told_issue_error _) rfl rfl⟩
  | admitted codigo p =>
    simp only [issueStep] at h
    split at h
    · cases h; exact ⟨trivial, told_of_quiet (fun _ h => h) (told_issue_error _) rfl rfl⟩
    split at h
    · cases h
    split at h <;> cases h
    · exact ⟨trivial, told_of_quiet (fun _ h => h) (told_issue_error _) rfl rfl⟩
    · exact ⟨trivial, told_of_quiet (fun _ h => h) rfl rfl rfl⟩
  | dated tx =>
    obtain ⟨hwr, hfor⟩ := hm
    simp only [issueStep] at h
    split at h
    · cases h
      exact ⟨by rw [Call.Revokes, hwr, hfor]; rfl, told_of_quiet (fun _ h => h) rfl rfl rfl⟩
    next a hg =>
    split at h
    · cases h
    have hspares : a.Spares .revocada := .of_nil (getLiveForUpdate_eq_some hg).2.1
    split at h
    · cases h
      refine ⟨?_, told_of_quiet (fun _ h => h) rfl rfl rfl⟩
      rw [Call.Revokes, revokedBy_append, hwr, hfor,
        revokedBy_save (hspares.refreshExpiry (by simp) tx.now)]
      rfl
    · cases h
      exact ⟨⟨hwr, hspares⟩, told_of_quiet (fun _ h => h) rfl rfl rfl⟩
  | renewing tx a =>
    obtain ⟨hwr, hspares⟩ := hm
    have h : some (w, IssuePhase.ready { tx with
        writes := tx.writes ++ [.save (a.revocar motivoRenovacion w.clock).2]
        forget := if (a.revocar motivoRenovacion w.clock).1.aceptada then some a.id else none }) =
      some r := h
    obtain rfl := Option.some.inj h
    refine ⟨?_, told_of_quiet (fun _ h => h) rfl rfl rfl⟩
    rw [Call.Revokes, revokedBy_append, hwr, revokedBy_revocar hspares,
      (revocar_spec a motivoRenovacion w.clock).2.1]
    cases a.estado.live <;> rfl
  | ready tx =>
    simp only [issueStep] at h
    split at h
    · cases h
    split at h
    · next c token hb =>
      cases h
      obtain ⟨_, _, _, _, _, _, _, _, -, -, -, -, -, -, -, rfl⟩ :=
        CredencialAccesoBuilder.build_ok hb
      exact ⟨⟨hm, by simp [Spares, emitir], rfl⟩, told_of_quiet (fun _ h => h) rfl rfl rfl⟩
    · cases h; exact ⟨trivial, told_of_quiet (fun _ h => h) (told_issue_error _) rfl rfl⟩
  | built tx c token =>
    obtain ⟨hwr, hspares, hest⟩ := hm
    simp only [issueStep] at h
    split at h <;> cases h
    · exact ⟨trivial, told_of_quiet (fun _ h => h) (told_issue_error _) rfl rfl⟩
    · refine ⟨⟨?_, by simp [Spares, CredencialAcceso.flushed], hest⟩,
        told_of_quiet (fun _ h => h) rfl rfl rfl⟩
      rw [revokedBy_append, hwr, revokedBy_add hspares, List.append_nil]
  | added tx c token =>
    obtain ⟨hwr, hspares, hest⟩ := hm
    simp only [issueStep] at h
    split at h <;> cases h
    · refine ⟨?_, told_of_quiet (fun _ h => h) rfl rfl rfl⟩
      have hact : (c.activar tx.now).2.Spares .revocada := hspares.transition (by simp)
      rw [Call.Revokes, revokedBy_append, hwr, revokedBy_save hact, List.append_nil]
    · refine ⟨?_, told_of_quiet (fun _ h => h) rfl rfl rfl⟩
      rw [Call.Revokes, revokedBy_append, hwr, revokedBy_revocar hspares, hest]
      rfl
  | registered tx c token => exact issueStep_told_registered hm h
  | unregistered tx c => exact issueStep_told_unregistered hm h
  | committed jti pass =>
    cases h
    refine ⟨trivial, fun evs hevs => .inl (.inr ⟨jti, ch.fault = .none, ?_⟩)⟩
    rw [show evs = [.revocada jti] from hevs]
    rfl
  | done => cases h

/-- One step of `revoke_by_id`: what it revokes it is told to forget. -/
theorem revokeStep_told {jti : UUID} {motivo : String} {ph : RevokePhase}
    {r : World × RevokePhase} (hm : (Call.revokeById jti motivo ph).Revokes)
    (h : revokeStep i w jti motivo ch ph = some r) :
    (Call.revokeById jti motivo r.2).Revokes ∧
      ∀ evs, (Call.revokeById jti motivo ph).Told evs →
        (Call.revokeById jti motivo r.2).Told (evs ++
          ((revokedBy ((Call.revokeById jti motivo ph).commits w ch)).map .revocada ++
            (Call.revokeById jti motivo ph).removal ch)) := by
  have hdone : ∀ q, (Call.revokeById jti motivo (.done q)).Told [] := fun q => .inl rfl
  cases ph with
  | start =>
    simp only [revokeStep] at h
    split at h
    · cases h
    split at h
    · cases h; exact ⟨trivial, told_of_quiet (fun _ h => h) (hdone _) rfl rfl⟩
    · next c hg =>
      cases h
      obtain ⟨-, hp, hid⟩ := getForUpdate_eq_some hg
      exact ⟨⟨hid, .of_nil hp⟩, told_of_quiet (fun _ h => h) rfl rfl rfl⟩
  | locked c =>
    cases h
    exact ⟨⟨(refreshExpiry_id c w.clock).trans hm.1, hm.2.refreshExpiry (by simp) _⟩,
      told_of_quiet (fun _ h => h) rfl rfl rfl⟩
  | refreshed c =>
    obtain ⟨rfl, hspares⟩ := hm
    have h : some (w, RevokePhase.revoked (c.revocar motivo w.clock).2
      (c.revocar motivo w.clock).1) = some r := h
    obtain rfl := Option.some.inj h
    refine ⟨?_, told_of_quiet (fun _ h => h) rfl rfl rfl⟩
    rw [Call.Revokes, revokedBy_revocar hspares, (revocar_spec c motivo w.clock).2.1]
  | revoked c res =>
    have hm : revokedBy [.save c] = if res.aceptada then [jti] else [] := hm
    simp only [revokeStep] at h
    cases hc : ch.commits && storable motivo with
    | false =>
      simp only [hc, Bool.false_eq_true, if_false] at h
      cases h
      exact ⟨trivial, told_of_quiet (fun _ h => h) (hdone _) (by simp [Call.commits, hc]) rfl⟩
    | true =>
      simp only [hc, if_true] at h
      have hcom : revokedBy ((Call.revokeById jti motivo (.revoked c res)).commits w ch) =
          if res.aceptada then [jti] else [] := by
        simpa [Call.commits, hc] using hm
      rw [hcom]
      split at h
      · next ha =>
        cases h
        refine ⟨trivial, fun evs hevs => ?_⟩
        rw [show evs = [] from hevs, if_pos ha]
        rfl
      · next ha =>
        cases h
        refine ⟨trivial, fun evs hevs => ?_⟩
        rw [show evs = [] from hevs, if_neg ha]
        exact .inl rfl
  | forgetting res =>
    cases h
    refine ⟨trivial, fun evs hevs => .inr ⟨jti, ch.fault = .none, ?_⟩⟩
    rw [show evs = [.revocada jti] from hevs]
    rfl
  | done => cases h

/-- `detail_for_owner` revokes nothing. -/
theorem detailStep_told {jti pasajeroId : UUID} {ph : DetailPhase} {r : World × DetailPhase}
    (hm : (Call.detail jti pasajeroId ph).Revokes)
    (h : detailStep i w jti pasajeroId ch ph = some r) :
    (Call.detail jti pasajeroId r.2).Revokes ∧
      revokedBy ((Call.detail jti pasajeroId ph).commits w ch) = [] := by
  cases ph with
  | start =>
    simp only [detailStep] at h
    split at h
    · cases h
    split at h
    · cases h; exact ⟨trivial, rfl⟩
    next c hg =>
    split at h <;> cases h
    · exact ⟨trivial, rfl⟩
    · exact ⟨Spares.of_nil (getForUpdate_eq_some hg).2.1, rfl⟩
  | locked c =>
    have hm : c.Spares .revocada := hm
    simp only [detailStep] at h
    split at h <;> cases h
    · exact ⟨revokedBy_save (hm.refreshExpiry (by simp) _), rfl⟩
    · exact ⟨rfl, rfl⟩
  | refreshed now c writes =>
    have hm : revokedBy writes = [] := hm
    simp only [detailStep] at h
    split at h
    · next hc => cases h; exact ⟨trivial, by simpa [Call.commits, hc] using hm⟩
    · next hc => cases h; exact ⟨trivial, by simp [Call.commits, hc]⟩
  | done => cases h

/-- The transaction of `consume` revokes nothing. -/
theorem revokedBy_consume (jti : UUID) (actor : String) (ph : ConsumePhase) :
    revokedBy ((Call.consume jti actor ph).commits w ch) = [] := by
  cases ph with
  | start | marking | done => rfl
  | read now =>
    cases hg : w.tables.getForUpdate jti with
    | none => simp [Call.commits, hg]
    | some c =>
      have hc : c.Spares .revocada := .of_nil (getForUpdate_eq_some hg).2.1
      have hcons : (consumed c now actor).2.Spares .revocada :=
        (hc.refreshExpiry (by simp) now).transition (by simp)
      simp only [Call.commits, hg]
      split
      · exact revokedBy_save hcons
      · rfl

/-- Nor does a sweep. -/
theorem revokedBy_sweep (limit : Nat) (ph : SweepPhase) :
    revokedBy ((Call.sweep limit ph).commits w ch) = [] := by
  cases ph with
  | start | done => rfl
  | read now =>
    unfold Call.commits
    dsimp only
    split
    · refine revokedBy_of_spares fun x hx => ?_
      obtain ⟨c, hc, rfl⟩ := List.mem_map.1 hx
      have hc : c.Spares .revocada := .of_nil ((expiredLiveForUpdate_spec _ _ _ _).1 c hc).2.1
      exact hc.transition (by simp)
    · rfl

/-- **What a step does that concerns the tokens.** -/
theorem callStep_told (hm : l.Revokes) (h : callStep cfg i w l (.next ch) = some r) :
    r.2.Revokes ∧ ∀ evs, l.Told evs →
      r.2.Told (evs ++ ((revokedBy (l.commits w ch)).map .revocada ++ l.removal ch)) := by
  cases l with
  | idle => cases h
  | issue user codigoVuelo ph =>
    obtain ⟨r', hr', rfl⟩ := Option.map_eq_some_iff.1 h
    exact issueStep_told hm hr'
  | consume jti actor ph =>
    obtain ⟨r', hr', rfl⟩ := Option.map_eq_some_iff.1 h
    exact ⟨trivial, told_of_quiet (fun _ h => h) rfl (revokedBy_consume jti actor ph) rfl⟩
  | revokeById jti motivo ph =>
    obtain ⟨r', hr', rfl⟩ := Option.map_eq_some_iff.1 h
    exact revokeStep_told hm hr'
  | detail jti pasajeroId ph =>
    obtain ⟨r', hr', rfl⟩ := Option.map_eq_some_iff.1 h
    obtain ⟨hm', hrev⟩ := detailStep_told hm hr'
    exact ⟨hm', told_of_quiet (fun _ h => h) rfl hrev rfl⟩
  | sweep limit ph =>
    obtain ⟨r', hr', rfl⟩ := Option.map_eq_some_iff.1 h
    exact ⟨trivial, told_of_quiet (fun _ h => h) rfl (revokedBy_sweep limit ph) rfl⟩
  | mayBeUsable jti ans =>
    cases ans <;> cases h
    exact ⟨trivial, told_of_quiet (fun _ h => h) rfl rfl rfl⟩

/-! ## Removed keys -/

/-- A key that is gone stays away once its credential is committed. -/
theorem keys_none {jti : UUID} (hl : l.OK cfg i w) (hrow : (w.tables.row? jti).isSome)
    (hnone : w.redis jti = none) : l.keys cfg w ch jti = none := by
  have hrevoke : ∀ k, (w.redis.revoke ch.fault k).2 jti = none := by
    intro k
    by_cases hk : jti = k
    · subst hk
      unfold Redis.revoke
      cases ch.fault <;> simp [hnone]
    · rw [redis_revoke_other hk]
      exact hnone
  unfold Call.keys
  split
  · next c _ =>
    obtain ⟨old, c₀, -, hb, rfl, -⟩ := hl
    have hne : jti ≠ c₀.flushed.id := by
      rintro rfl
      rw [show c₀.flushed.id = c₀.id from rfl, hb.row] at hrow
      cases hrow
    rw [redis_register_other hne]
    exact hnone
  · exact hrevoke _
  · exact hrevoke _
  · next k _ =>
    by_cases hk : jti = k
    · subst hk
      unfold Redis.consume Redis.get
      cases ch.fault <;> simp [hnone]
    · rw [redis_consume_other hk]
      exact hnone
  · exact hnone

/-- A successful attempt leaves no key, of a committed credential. -/
theorem keys_of_removal {jti : UUID} (hl : l.OK cfg i w)
    (h : .olvidada jti true ∈ l.removal ch) :
    (w.tables.row? jti).isSome ∧ l.keys cfg w ch jti = none := by
  have hgone : ∀ k, TokenEvent.olvidada jti true = .olvidada k (ch.fault = .none) → jti = k ∧
      (w.redis.revoke ch.fault k).2 jti = none := by
    intro k hk
    cases hf : ch.fault with
    | none =>
      rw [hf] at hk
      cases hk
      exact ⟨rfl, by simp [Redis.revoke]⟩
    | lost | answerLost =>
      rw [hf] at hk
      simp at hk
  unfold Call.removal at h
  split at h
  · obtain ⟨rfl, hnone⟩ := hgone _ (List.mem_singleton.1 h)
    obtain ⟨⟨r, hr, -⟩, -⟩ := hl
    exact ⟨by rw [hr]; rfl, hnone⟩
  · obtain ⟨rfl, hnone⟩ := hgone _ (List.mem_singleton.1 h)
    obtain ⟨r, hr, -⟩ := hl
    exact ⟨by rw [hr]; rfl, hnone⟩
  · split at h <;> simp at h
  · cases h

/-! ## Runs -/

/-- What was observed along a run and the state it reached. -/
structure ToldOK (cfg : PassSettings) (s : CredentialSystem) (log : List (Nat × TokenEvent)) :
    Prop where
  ok : CredentialsOK cfg s
  revokes : ∀ i, (s.locals i).Revokes
  told : ∀ i, (s.locals i).Told (eventsOf i log)
  gone : ∀ i jti, (i, .olvidada jti true) ∈ log →
    (s.shared.tables.row? jti).isSome ∧ s.shared.redis jti = none

theorem eventsOf_append (i : Nat) (log log' : List (Nat × TokenEvent)) :
    eventsOf i (log ++ log') = eventsOf i log ++ eventsOf i log' := by
  simp [eventsOf]

/-- The events of a call among those of one call. -/
theorem eventsOf_map (i j : Nat) (evs : List TokenEvent) :
    eventsOf j (evs.map fun e => (i, e)) = if i = j then evs else [] := by
  unfold eventsOf
  rw [List.filter_map, List.map_map]
  split
  · next h =>
    have : ((fun e : Nat × TokenEvent => decide (e.1 = j)) ∘ fun e => (i, e)) = fun _ => true := by
      funext e; simp [h]
    rw [this, List.filter_true]
    exact List.map_id _
  · next h =>
    have : ((fun e : Nat × TokenEvent => decide (e.1 = j)) ∘ fun e => (i, e)) =
        fun _ => false := by
      funext e; simp [h]
    rw [this, List.filter_false]
    rfl

/-- No token was concerned yet where a call starts. -/
theorem started_told (q : Request) : (Call.start q).Revokes ∧ (Call.start q).Told [] := by
  cases q <;> exact ⟨trivial, rfl⟩

/-- What a step of a call adds to the log. -/
theorem tokenObs_next (hst : credentialStep cfg s (.call i (.next ch)) = some t) :
    tokenObs s (.call i (.next ch)) t =
      ((revokedBy ((s.locals i).commits s.shared ch)).map TokenEvent.revocada ++
        (s.locals i).removal ch).map fun e => (i, e) := by
  obtain ⟨r, hc, hsh, -⟩ := Program.step_call hst
  have hwrote := (callStep_wrote hc).1
  rw [tokenObs, hsh, hwrote, transiciones_applyAll, List.drop_left]
  rfl

/-- One step of the system. -/
theorem ToldOK.step {log : List (Nat × TokenEvent)} (h : ToldOK cfg s log)
    {a : Act CallAct EnvAct} (hst : credentialStep cfg s a = some t) :
    ToldOK cfg t (log ++ tokenObs s a t) := by
  have hok := (credential_relyGuarantee cfg).step h.ok hst
  have hrow : ∀ {jti}, (s.shared.tables.row? jti).isSome → (t.shared.tables.row? jti).isSome := by
    intro jti hr
    obtain ⟨r, hr⟩ := Option.isSome_iff_exists.1 hr
    obtain ⟨r', hr', -⟩ := (step_later h.ok hst).2.row hr
    rw [hr']
    rfl
  -- steps that concern no token: the log stays as it is
  have hquiet : tokenObs s a t = [] → (∀ j, (t.locals j).Revokes) →
      (∀ j, (t.locals j).Told (eventsOf j log)) → t.shared.redis = s.shared.redis →
      ToldOK cfg t (log ++ tokenObs s a t) := by
    intro hobs hrev htold hredis
    rw [hobs, List.append_nil]
    refine ⟨hok, hrev, htold, fun j jti hj => ?_⟩
    obtain ⟨h1, h2⟩ := h.gone j jti hj
    exact ⟨hrow h1, by rw [hredis]; exact h2⟩
  rcases Program.step_cases hst with ⟨i, b, r, rfl, hc, hsh, hl, hother⟩ | ⟨e, rfl, he, hl⟩
  · cases b with
    | invoke q =>
      have hidle : s.locals i = .idle ∧ r = (s.shared, .start q) := by
        revert hc
        generalize s.locals i = l
        intro hc
        cases l with
        | idle => cases hc; exact ⟨rfl, rfl⟩
        | issue | consume | revokeById | detail | sweep => cases hc
        | mayBeUsable jti ans => cases ans <;> cases hc
      obtain ⟨hidle, rfl⟩ := hidle
      have htoldi := h.told i
      rw [hidle] at htoldi
      refine hquiet rfl ?_ ?_ (by rw [hsh])
      · exact Sys.forall_locals (fun _ l => l.Revokes) (by rw [hl]; exact (started_told q).1) hother
          fun j _ => h.revokes j
      · refine Sys.forall_locals (fun j l => l.Told (eventsOf j log)) ?_ hother fun j _ => h.told j
        rw [hl, show eventsOf i log = [] from htoldi]
        exact (started_told q).2
    | next ch =>
      obtain ⟨hrev, htold⟩ := callStep_told (h.revokes i) hc
      have hredis : t.shared.redis = (s.locals i).keys cfg s.shared ch := by
        rw [hsh]; exact (callStep_wrote hc).2.1
      refine ⟨hok, Sys.forall_locals (fun _ l => l.Revokes) (by rw [hl]; exact hrev) hother
        fun j _ => h.revokes j, ?_, fun j jti hj => ?_⟩
      · refine Sys.forall_locals (fun j (l : Call) =>
          l.Told (eventsOf j (log ++ tokenObs s (.call i (.next ch)) t))) ?_ hother fun j hj => ?_
        · rw [eventsOf_append, tokenObs_next hst, eventsOf_map, if_pos rfl, hl]
          exact htold _ (h.told i)
        · rw [eventsOf_append, tokenObs_next hst, eventsOf_map, if_neg fun h => hj h.symm,
            List.append_nil]
          exact h.told j
      · rw [hredis]
        rcases List.mem_append.1 hj with hj | hj
        · obtain ⟨h1, h2⟩ := h.gone j jti hj
          exact ⟨hrow h1, keys_none (h.ok.2 i) h1 h2⟩
        · rw [tokenObs_next hst] at hj
          obtain ⟨e, he, heq⟩ := List.mem_map.1 hj
          obtain ⟨rfl, rfl⟩ := Prod.mk.inj heq
          rcases List.mem_append.1 he with he | he
          · obtain ⟨_, -, hne⟩ := List.mem_map.1 he
            cases hne
          · obtain ⟨h1, h2⟩ := keys_of_removal (h.ok.2 i) he
            exact ⟨hrow h1, h2⟩
  · refine hquiet rfl (fun j => ?_) (fun j => ?_) ?_
    · rw [hl]; exact h.revokes j
    · rw [hl]; exact h.told j
    · cases e with
      | tick d => rw [← Option.some.inj he]
      | others p q => rw [← Option.some.inj he]

/-- What was observed along a run from the start. -/
theorem tokens_ok (hs : s.Initial) {as : List (Act CallAct EnvAct)}
    (h : run (credentialStep cfg) s as = some t) : ToldOK cfg t (tokens cfg s as) := by
  have hstep : ∀ u log a v, ToldOK cfg u log → credentialStep cfg u a = some v →
      ToldOK cfg v (log ++ tokenObs u a v) := fun _ _ _ _ hj hst => hj.step hst
  refine outputs_invariant ⟨hs.ok, fun i => ?_, fun i => ?_, fun _ _ hj => by cases hj⟩ hstep h
  · rw [hs.2.2.2.2]; trivial
  · rw [hs.2.2.2.2]; rfl

/-! ## Every revocation and its token -/

/-- A call of `issue` or `revoke_by_id` that has ended. -/
def Call.Over : Call → Prop
  | .issue _ _ (.done _) | .revokeById _ _ (.done _) => True
  | _ => False

/-- After each revocation it committed the call attempted to remove the token, and if that
succeeded, no answer of `may_be_usable` is True for it. -/
def Forgotten (i : Nat) (log : List (Nat × TokenEvent)) (t : CredentialSystem) : Prop :=
  ∀ jti pre post, eventsOf i log = pre ++ .revocada jti :: post →
    ∃ ok, .olvidada jti ok ∈ post ∧ (ok = true →
      ∀ fault, t.shared.redis.mayBeUsable t.shared.clock fault jti ≠ some true)

/-- The step at which call `i` of `issue` commits, its `register` of the new token having raised. -/
def CommitsWithoutToken (i : Nat) (s : CredentialSystem) (a : Act CallAct EnvAct) : Prop :=
  ∃ ch user codigo tx c, a = .call i (.next ch) ∧
    s.locals i = .issue user codigo (.unregistered tx c) ∧ ch.commits = true

/-- Only an `issue` that commits after its token failed leaves the token behind. -/
theorem sinToken_mem_removal :
    .sinToken ∈ l.removal ch ↔
      ∃ user codigo tx c, l = .issue user codigo (.unregistered tx c) ∧ ch.commits = true := by
  unfold Call.removal
  split
  · simp
  · simp
  · split <;> simp [*]
  · next h => simpa using fun user codigo tx c hl => absurd hl (h user codigo tx c)

/-- The observation of a commit without a token. -/
theorem sinToken_mem_tokenObs {a : Act CallAct EnvAct} :
    (i, .sinToken) ∈ tokenObs s a t ↔ CommitsWithoutToken i s a := by
  unfold tokenObs CommitsWithoutToken
  split
  · next j ch =>
    simp only [List.mem_map, List.mem_append, Prod.mk.injEq]
    constructor
    · rintro ⟨e, ⟨_, -, rfl⟩ | he, rfl, hsin⟩
      · cases hsin
      · subst hsin
        obtain ⟨user, codigo, tx, c, hl, hc⟩ := sinToken_mem_removal.1 he
        exact ⟨ch, user, codigo, tx, c, rfl, hl, hc⟩
    · rintro ⟨ch, user, codigo, tx, c, heq, hl, hc⟩
      cases heq
      exact ⟨_, .inr (sinToken_mem_removal.2 ⟨user, codigo, tx, c, hl, hc⟩), rfl, rfl⟩
  · next h =>
    simp only [List.not_mem_nil, false_iff]
    rintro ⟨ch, user, codigo, tx, c, rfl, -⟩
    exact h i ch rfl

/-- Whether a call committed without a token can be seen in what it did. -/
theorem sinToken_mem_eventsOf {as : List (Act CallAct EnvAct)} :
    .sinToken ∉ eventsOf i (tokens cfg s as) ↔
      EachStep (credentialStep cfg) (fun u a _ => ¬ CommitsWithoutToken i u a) s as := by
  have hmem : .sinToken ∈ eventsOf i (tokens cfg s as) ↔ (i, .sinToken) ∈ tokens cfg s as := by
    simp [eventsOf]
  rw [hmem, mem_outputs]
  constructor
  · intro h pre a post u v has hu hst hc
    exact h ⟨pre, a, post, u, v, has, hu, hst, sinToken_mem_tokenObs.2 hc⟩
  · rintro h ⟨pre, a, post, u, v, has, hu, hst, hc⟩
    exact h pre a post u v has hu hst (sinToken_mem_tokenObs.1 hc)

/-- A call that settled what it had to has no token left over. -/
theorem forgotten_of_settled {log : List (Nat × TokenEvent)} (h : ToldOK cfg t log)
    (hset : Settled (eventsOf i log)) : Forgotten i log t := by
  intro jti pre post heq
  rcases hset with hnil | ⟨k, ok, hpair⟩
  · rw [hnil] at heq
    simp at heq
  · rw [hpair] at heq
    rcases pre with _ | ⟨e, pre⟩
    · obtain ⟨rfl, rfl⟩ : k = jti ∧ [TokenEvent.olvidada k ok] = post := by simpa using heq
      refine ⟨ok, List.mem_singleton_self _, fun hok fault hans => ?_⟩
      subst hok
      have hin : (i, TokenEvent.olvidada k true) ∈ log := by
        have : TokenEvent.olvidada k true ∈ eventsOf i log := by rw [hpair]; simp
        simpa [eventsOf] using this
      obtain ⟨-, hnone⟩ := h.gone i k hin
      unfold Redis.mayBeUsable Redis.get at hans
      rw [hnone] at hans
      split at hans <;> simp at hans
    · -- the only event after the first is the removal
      have htail : [TokenEvent.olvidada k ok] = pre ++ .revocada jti :: post :=
        (List.cons.inj heq).2
      rcases pre with _ | ⟨e', pre⟩
      · cases (List.cons.inj htail).1
      · simp at htail

/-- **Every committed revocation is followed by the removal of its token**, for each call of `issue`
or `revoke_by_id` in every run, if and only if the call never commits after its `register` of the
new token has raised. -/
theorem revocations_forgotten_iff {cfg : PassSettings} {s t : CredentialSystem} {i : Nat}
    {as : List (Act CallAct EnvAct)} (hs : s.Initial)
    (hrun : run (credentialStep cfg) s as = some t) (hover : (t.locals i).Over) :
    Forgotten i (tokens cfg s as) t ↔
      EachStep (credentialStep cfg) (fun u a _ => ¬ CommitsWithoutToken i u a) s as := by
  have hok := tokens_ok hs hrun
  have htold := hok.told i
  rw [← sinToken_mem_eventsOf]
  have hsettled : ∀ {evs}, Settled evs → .sinToken ∉ evs := by
    rintro evs (rfl | ⟨_, _, rfl⟩) <;> simp
  have hcases : Settled (eventsOf i (tokens cfg s as)) ∨ ∃ (jtis : List UUID) (jti : UUID),
      eventsOf i (tokens cfg s as) = jtis.map .revocada ++ [.revocada jti, .sinToken] := by
    revert htold hover
    generalize t.locals i = l
    intro hover htold
    unfold Call.Over at hover
    split at hover
    · exact htold
    · exact .inl htold
    · exact hover.elim
  rcases hcases with hset | ⟨jtis, jti, heq⟩
  · exact ⟨fun _ => hsettled hset, fun _ => forgotten_of_settled hok hset⟩
  · refine ⟨fun h => ?_, fun h => absurd ?_ h⟩
    · obtain ⟨ok, hmem, -⟩ := h jti _ _ heq
      simp at hmem
    · rw [heq]; simp

/-- The renewal of a pass removes the token of the previous one. -/
theorem revocations_forgotten_iff_renewal :
    ∃ t, run (credentialStep sampleSettings) sampleStart (sampleIssue 0 7 ++
        callThrough 1 (.issue "user" "AV9380") 12 { jti := 8 }) = some t ∧
      Forgotten 1 (tokens sampleSettings sampleStart (sampleIssue 0 7 ++
        callThrough 1 (.issue "user" "AV9380") 12 { jti := 8 })) t := by
  obtain ⟨t, ht⟩ := Option.isSome_iff_exists.1 (by decide +kernel :
    (run (credentialStep sampleSettings) sampleStart (sampleIssue 0 7 ++
      callThrough 1 (.issue "user" "AV9380") 12 { jti := 8 })).isSome = true)
  have hiff := revocations_forgotten_iff (i := 1) sampleStart_initial ht
  cases ht
  refine ⟨_, rfl, (hiff trivial).2 (sinToken_mem_eventsOf.1 ?_)⟩
  decide +kernel

/-- The previous pass is revoked and the answer of Redis to `register` of the new one is lost. The
call raises, both passes are REVOCADA, and it has attempted to remove the key of neither. -/
theorem revocations_not_always_forgotten : ¬ ∀ (cfg : PassSettings) (s t : CredentialSystem)
    (i : Nat) (as : List (Act CallAct EnvAct)), s.Initial →
      run (credentialStep cfg) s as = some t → (t.locals i).Over →
      Forgotten i (tokens cfg s as) t := by
  intro h
  obtain ⟨t, ht⟩ := Option.isSome_iff_exists.1 (by decide +kernel :
    (run (credentialStep sampleSettings) sampleStart (sampleIssue 0 7 ++
      callThrough 1 (.issue "user" "AV9380") 11
        { jti := 8, fault := .answerLost })).isSome = true)
  have hover : (t.locals 1).Over := by cases ht; trivial
  obtain ⟨ok, hmem, -⟩ := h sampleSettings sampleStart t 1 _ sampleStart_initial ht hover 7 []
    [.revocada 8, .sinToken] (by decide +kernel)
  simp at hmem

end Aeropass
