import Aeropass.Credentials.Effects

/-!
# The steps of the lifecycle service

Each step of `consume`, `revoke_by_id`, `detail_for_owner` and `sweep_expired` keeps the invariant,
keeps what the call itself knows and guarantees to the others what they rely on.
-/

namespace Aeropass

open CredentialTables CredencialAcceso

variable {cfg : PassSettings} {i : Nat} {w : World} {jti : UUID} {ch : Choice}

/-- An aggregate that was read under a free lock, once the lock is taken. -/
theorem Held.of_read (hw : WorldOK w) {c : CredencialAcceso}
    (hr : w.tables.row? c.id = some c.toCredencialAccesoRow) (hp : c.pendingTransitions = [])
    (i : Nat) : Held i (w.acquire i (.credencial c.id)) c where
  lock := acquire_self ..
  continues := .of_row hw.tables hr hp
  estado := hw.noEmitida hr
  spares := by unfold Spares; rw [hp]; simp

/-! ## `consume` -/

/-- What `consume` makes of the credential it read. -/
def consumed (c : CredencialAcceso) (now : Instant) (actor : String) :
    TransitionResult × CredencialAcceso :=
  (c.refreshExpiry now).2.consumir now actor

@[simp] theorem consumed_id (c : CredencialAcceso) (now : Instant) (actor : String) :
    (consumed c now actor).2.id = c.id := refreshExpiry_id c now

/-- A credential is consumed exactly when it was ACTIVA and not due; otherwise it is left as its
lazy expiry leaves it, in a state that is not ACTIVA. -/
theorem consumed_cases (c : CredencialAcceso) (now : Instant) (actor : String) :
    (c.estado = .activa ∧ now < c.expiraAt ∧ (consumed c now actor).1.aceptada = true ∧
      (consumed c now actor).2.estado = .consumida) ∨
    ((c.refreshExpiry now).2.estado ≠ .activa ∧ (consumed c now actor).1.aceptada = false ∧
      (consumed c now actor).2.estado = (c.refreshExpiry now).2.estado) := by
  have hcan : ∀ e : EstadoCredencial,
      (stateFor e).canTransitionTo .consumida = decide (e = .activa) := by
    intro e; cases e <;> decide
  by_cases he : (c.refreshExpiry now).2.estado = .activa
  · obtain ⟨hlt, hr⟩ := lt_of_refreshExpiry_live
      (show (c.refreshExpiry now).2.estado.live = true by rw [he]; rfl)
    have hc : c.estado = .activa := by rw [hr] at he; exact he
    have ha := hcan (c.refreshExpiry now).2.estado
    rw [he, decide_eq_true rfl, ← he] at ha
    exact .inl ⟨hc, hlt, ha, transition_estado_of_accepted ha⟩
  · have ha := hcan (c.refreshExpiry now).2.estado
    rw [decide_eq_false he] at ha
    exact .inr ⟨he, ha, transition_estado_of_rejected ha⟩

/-- The answer of `consume` from the state it left. -/
theorem rejection_of_ne_activa {e : EstadoCredencial} (h : e ≠ .activa) :
    ∃ r, rejection e = some r := by
  cases e with
  | activa => exact absurd rfl h
  | emitida | consumida | expirada | revocada => exact ⟨_, rfl⟩

/-- The transaction of `consume`: nothing is found, the transaction fails, or the credential it made
is committed and its state gives the answer. -/
theorem consumeStep_read {now : Instant} {actor : String} {r : World × ConsumePhase}
    (h : consumeStep i w jti actor ch (.read now) = some r) :
    w.locks (.credencial jti) = none ∧
    ((w.tables.getForUpdate jti = none ∧ r = (w, .done (.ok .noEncontrada))) ∨
    (∃ c, w.tables.getForUpdate jti = some c ∧ r = (w, .done (.error (writeError actor)))) ∨
    ∃ c, w.tables.getForUpdate jti = some c ∧
      r.1 = w.commit i [.save (consumed c now actor).2] ∧
      (((consumed c now actor).1.aceptada = true ∧ r.2 = .marking) ∨
        (consumed c now actor).1.aceptada = false ∧
          ∃ answer, rejection (consumed c now actor).2.estado = some answer ∧
            r.2 = .done (.ok answer))) := by
  simp only [consumeStep] at h
  split at h
  · cases h
  next hl =>
  refine ⟨by simpa using hl, ?_⟩
  split at h
  · next hg => cases h; exact .inl ⟨hg, rfl⟩
  next c hg =>
  split at h
  case isFalse => cases h; exact .inr (.inl ⟨c, hg, rfl⟩)
  refine .inr (.inr ⟨c, hg, ?_⟩)
  rcases consumed_cases c now actor with ⟨-, -, ha, -⟩ | ⟨hne, ha, he⟩
  · have ha' : ((c.refreshExpiry now).2.consumir now actor).1.aceptada = true := ha
    rw [if_pos ha'] at h
    cases h
    exact ⟨rfl, .inl ⟨ha, rfl⟩⟩
  · have ha' : ((c.refreshExpiry now).2.consumir now actor).1.aceptada = false := ha
    obtain ⟨answer, hans⟩ := rejection_of_ne_activa (he ▸ hne)
    have hans' : rejection ((c.refreshExpiry now).2.consumir now actor).1.estadoActual =
      some answer := hans
    simp only [ha', Bool.false_eq_true, if_false, hans'] at h
    cases h
    exact ⟨rfl, .inr ⟨ha, answer, hans, rfl⟩⟩

/-- The transaction of `consume` keeps the invariant, and its row is then what it made. -/
theorem consume_commit_ok (hw : WorldOK w) {c : CredencialAcceso} (now : Instant) (actor : String)
    (hl : w.locks (.credencial jti) = none) (hg : w.tables.getForUpdate jti = some c) :
    WorldOK (w.commit i [.save (consumed c now actor).2]) ∧
      Guar i w (w.commit i [.save (consumed c now actor).2]) ∧
      (w.commit i [.save (consumed c now actor).2]).tables.row? jti =
        some (consumed c now actor).2.toCredencialAccesoRow := by
  obtain ⟨hr, hp, rfl⟩ := getForUpdate_eq_some hg
  have hcont : Continues w.tables (consumed c now actor).2 :=
    (Continues.of_row hw.tables hr hp).consumir now actor
  have hest : (consumed c now actor).2.estado ≠ .emitida :=
    transition_ne_emitida (refreshExpiry_ne_emitida (hw.noEmitida hr) now) (by simp)
  have := commit_save_ok (i := i) hw hcont hest fun j _ hj => by
    rw [consumed_id, hl] at hj; cases hj
  rwa [consumed_id] at this

/-- One step of `consume` keeps the invariant, and what the other calls rely on. -/
theorem consumeStep_ok (hw : WorldOK w) {actor : String} {ph : ConsumePhase}
    {r : World × ConsumePhase} (hph : ph.OK w jti)
    (h : consumeStep i w jti actor ch ph = some r) :
    WorldOK r.1 ∧ r.2.OK r.1 jti ∧ Guar i w r.1 := by
  cases ph with
  | start => cases h; exact ⟨hw, trivial, .refl i w⟩
  | read now =>
    obtain ⟨hl, ⟨-, rfl⟩ | ⟨c, -, rfl⟩ | ⟨c, hg, hr1, hr2⟩⟩ := consumeStep_read h
    · exact ⟨hw, trivial, .refl i w⟩
    · exact ⟨hw, ⟨actor, rfl⟩, .refl i w⟩
    · obtain ⟨h1, h2, h3⟩ := consume_commit_ok (i := i) hw now actor hl hg
      rw [hr1]
      refine ⟨h1, ?_, h2⟩
      rcases hr2 with ⟨ha, hr2⟩ | ⟨-, answer, -, hr2⟩
      · rw [hr2]
        rcases consumed_cases c now actor with ⟨-, -, -, he⟩ | ⟨-, ha', -⟩
        · exact ⟨_, h3, he⟩
        · rw [ha] at ha'; cases ha'
      · rw [hr2]; trivial
  | marking =>
    cases h
    obtain ⟨r, hr, he⟩ := hph
    have hother : ∀ id, id ≠ jti → (w.redis.consume w.clock ch.fault jti).2 id = w.redis id :=
      fun _ hid => redis_consume_other hid
    obtain ⟨h1, h2⟩ := redis_ok (i := i) hw hother (.inl ⟨r, hr, by rw [he]; simp⟩)
    exact ⟨h1, trivial, h2⟩
  | done r => cases h

/-! ## `revoke_by_id` -/

/-- One step of `revoke_by_id` keeps the invariant, and what the other calls rely on. -/
theorem revokeStep_ok (hw : WorldOK w) {motivo : String} {ph : RevokePhase}
    {r : World × RevokePhase} (hph : ph.OK i w jti)
    (h : revokeStep i w jti motivo ch ph = some r) :
    WorldOK r.1 ∧ r.2.OK i r.1 jti ∧ Guar i w r.1 := by
  cases ph with
  | start =>
    simp only [revokeStep] at h
    split at h
    · cases h
    next hl =>
    have hl : w.locks (.credencial jti) = none := by simpa using hl
    split at h
    · cases h; exact ⟨hw, trivial, .refl i w⟩
    next c hg =>
    cases h
    obtain ⟨hr, hp, rfl⟩ := getForUpdate_eq_some hg
    exact ⟨hw.acquire i _, ⟨.of_read hw hr hp i, rfl⟩, .acquire hl⟩
  | locked c =>
    cases h
    obtain ⟨hh, rfl⟩ := hph
    refine ⟨hw, ⟨⟨?_, hh.continues.refreshExpiry _, refreshExpiry_ne_emitida hh.estado _,
      hh.spares.refreshExpiry (by simp) _⟩, refreshExpiry_id ..⟩, .refl i w⟩
    rw [refreshExpiry_id]
    exact hh.lock
  | refreshed c =>
    cases h
    obtain ⟨hh, rfl⟩ := hph
    obtain ⟨hdead, hacc, hrev⟩ := revocar_spec c motivo w.clock
    exact ⟨hw, ⟨⟨hh.lock, hh.continues.revocar motivo w.clock,
      transition_ne_emitida hh.estado (by simp), hh.spares.transition (by simp)⟩, rfl, hdead,
      fun ha => hrev (hacc ▸ ha)⟩, .refl i w⟩
  | revoked c res =>
    obtain ⟨hh, rfl, hdead, hrev⟩ := hph
    simp only [revokeStep] at h
    split at h
    · obtain ⟨h1, h2, h3⟩ := hh.commit_ok hw
      split at h
      · next ha => cases h; exact ⟨h1, ⟨_, h3, hrev ha⟩, h2⟩
      · cases h; exact ⟨h1, trivial, h2⟩
    · cases h; exact ⟨hw.release i, trivial, .release i w⟩
  | forgetting res =>
    cases h
    obtain ⟨r, hr, he⟩ := hph
    have hother : ∀ id, id ≠ jti → (w.redis.revoke ch.fault jti).2 id = w.redis id :=
      fun _ hid => redis_revoke_other hid
    obtain ⟨h1, h2⟩ := redis_ok (i := i) hw hother (.inl ⟨r, hr, by rw [he]; simp⟩)
    exact ⟨h1, trivial, h2⟩
  | done r => cases h

/-! ## `detail_for_owner` -/

/-- One step of `detail_for_owner` keeps the invariant, and what the other calls rely on. -/
theorem detailStep_ok (hw : WorldOK w) {pasajeroId : UUID} {ph : DetailPhase}
    {r : World × DetailPhase} (hph : ph.OK i w jti)
    (h : detailStep i w jti pasajeroId ch ph = some r) :
    WorldOK r.1 ∧ r.2.OK i r.1 jti ∧ Guar i w r.1 := by
  cases ph with
  | start =>
    simp only [detailStep] at h
    split at h
    · cases h
    next hl =>
    have hl : w.locks (.credencial jti) = none := by simpa using hl
    split at h
    · cases h; exact ⟨hw, trivial, .refl i w⟩
    next c hg =>
    split at h
    · cases h; exact ⟨hw, trivial, .refl i w⟩
    cases h
    obtain ⟨hr, hp, rfl⟩ := getForUpdate_eq_some hg
    exact ⟨hw.acquire i _, ⟨.of_read hw hr hp i, rfl, hp⟩, .acquire hl⟩
  | locked c =>
    obtain ⟨hh, rfl, hp⟩ := hph
    simp only [detailStep] at h
    rcases refreshExpiry_cases c w.clock with ⟨-, he, hr, hest⟩ | ⟨hlive, hr⟩
    · rw [hr] at h
      cases h
      exact ⟨hw, ⟨⟨hh.lock, hh.continues.expirar he, transition_ne_emitida hh.estado (by simp),
        hh.spares.transition (by simp)⟩, rfl, fun hl => (by rw [hest] at hl; cases hl), .inl rfl⟩,
        .refl i w⟩
    · rw [hr] at h
      cases h
      exact ⟨hw, ⟨hh, rfl, hlive, .inr ⟨rfl, hp⟩⟩, .refl i w⟩
  | refreshed now c writes =>
    obtain ⟨hh, rfl, hlive, hwr⟩ := hph
    simp only [detailStep] at h
    split at h
    · cases h
      have hact : c.estado = .activa → now < c.expiraAt := fun ha => hlive (by rw [ha]; rfl)
      rcases hwr with rfl | ⟨rfl, hp⟩
      · obtain ⟨h1, h2, -⟩ := hh.commit_ok hw
        refine ⟨h1, ⟨?_, hh.estado, hact⟩, h2⟩
        have := history_write w.tables (.save c) c.id
        rw [Write.credencial, if_pos rfl] at this
        change historial.replay ((w.tables.write (.save c)).history c.id) = _
        rw [this]
        exact hh.continues.history.replay
      · refine ⟨hw.release i, ⟨?_, hh.estado, hact⟩, .release i w⟩
        have := hh.continues.history.replay
        rwa [hp, List.append_nil] at this
    · cases h; exact ⟨hw.release i, trivial, .release i w⟩
  | done now r => cases h

/-! ## `sweep_expired` -/

/-- What a sweep does to the tables: it saves the credentials it found, expired. -/
theorem swept_saved {t : CredentialTables} (ht : TablesOK t) (now : Instant) (limit : Nat)
    (skip : UUID → Bool) :
    let vencidas := t.expiredLiveForUpdate now limit skip
    let cs := vencidas.map fun c => (c.expirar now).2
    Saved t (t.applyAll (vencidas.map fun c => .save (c.expirar now).2)) cs ∧
      ∀ c ∈ cs, Continues t c := by
  intro vencidas cs
  obtain ⟨hv, hnd⟩ := expiredLiveForUpdate_spec t now limit skip
  have hcont : ∀ c ∈ cs, Continues t c := by
    intro c hc
    obtain ⟨a, ha, rfl⟩ := List.mem_map.1 hc
    obtain ⟨hr, hp, -, he, -⟩ := hv a ha
    exact (Continues.of_row ht hr hp).expirar he
  have hids : cs.map (fun c => c.id) = vencidas.map (fun c => c.id) := by
    rw [List.map_map]; rfl
  have hs := saves_spec ht (hids ▸ hnd) hcont
  rw [List.map_map] at hs
  exact ⟨hs, hcont⟩

/-- The credentials that a sweep saves. -/
theorem swept_spec (hw : WorldOK w) (now : Instant) (limit : Nat) (skip : List UUID) :
    let vencidas := w.tables.expiredLiveForUpdate now limit fun id =>
      w.locks (.credencial id) ≠ none || skip.contains id
    Commits i w (w.tables.applyAll (vencidas.map fun c => .save (c.expirar now).2)) ∧
      ∀ c ∈ vencidas, c.pendingTransitions = [] := by
  intro vencidas
  obtain ⟨hv, -⟩ := expiredLiveForUpdate_spec w.tables now limit
    (fun id => w.locks (.credencial id) ≠ none || skip.contains id)
  refine ⟨?_, fun c hc => (hv c hc).2.1⟩
  obtain ⟨hs, hcont⟩ := swept_saved hw.tables now limit
    (fun id => w.locks (.credencial id) ≠ none || skip.contains id)
  exact commits_of_saved hw hs hcont
    (fun c hc => by
      obtain ⟨a, ha, rfl⟩ := List.mem_map.1 hc
      exact transition_ne_emitida (hw.noEmitida (hv a ha).1) (by simp))
    (fun c hc j _ hj => by
      obtain ⟨a, ha, rfl⟩ := List.mem_map.1 hc
      have hskip := (hv a ha).2.2.2.2
      simp only [Bool.or_eq_false_iff, decide_eq_false_iff_not, Decidable.not_not] at hskip
      rw [show (a.expirar now).2.id = a.id from rfl, hskip.1] at hj
      cases hj)

/-- One step of `sweep_expired` keeps the invariant, and what the other calls rely on. -/
theorem sweepStep_ok (hw : WorldOK w) {limit : Nat} {ph : SweepPhase} {r : World × SweepPhase}
    (h : sweepStep i w limit ch ph = some r) : WorldOK r.1 ∧ Guar i w r.1 := by
  cases ph with
  | start => cases h; exact ⟨hw, .refl i w⟩
  | read now =>
    simp only [sweepStep] at h
    split at h
    · cases h
      exact commit_ok hw (swept_spec hw now limit ch.skip).1
    · cases h; exact ⟨hw, .refl i w⟩
  | done r => cases h

end Aeropass
