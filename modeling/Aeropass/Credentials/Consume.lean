import Aeropass.Credentials.Reach

/-!
# The answers of `consume`

What each call appends to the history is observed along a run (`appended`). A call has appended a
row that requests CONSUMIDA exactly when it is a `consume` call past its transaction that found the
credential (`Call.Requested`), and the answer says what became of it.
-/

namespace Aeropass

open CredentialTables CredencialAcceso Runs Threads

variable {cfg : PassSettings} {i j : Nat} {jti : UUID} {actor : String} {w : World}
  {s t : CredentialSystem}

/-- The history rows that a step commits, with the call that made them. -/
def appended (s : CredentialSystem) (a : Act CallAct EnvAct) (t : CredentialSystem) :
    List (Nat × TransicionCredencialRow) :=
  match a with
  | .call i _ =>
    (t.shared.tables.transiciones.drop s.shared.tables.transiciones.length).map fun r => (i, r)
  | .env _ => []

/-- The history rows that call `i` committed along a run. -/
abbrev committed (cfg : PassSettings) (s : CredentialSystem) (as : List (Act CallAct EnvAct)) :
    List (Nat × TransicionCredencialRow) :=
  outputs appended (credentialStep cfg) s as

/-- The rows that request CONSUMIDA. -/
def consumes (rs : List TransicionCredencialRow) : List TransicionCredencialRow :=
  rs.filter fun r => r.estadoSolicitado = .consumida

/-- The rows by which call `i` requested CONSUMIDA. -/
def requests (log : List (Nat × TransicionCredencialRow)) (i : Nat) :
    List TransicionCredencialRow :=
  consumes ((log.filter fun e => e.1 = i).map Prod.snd)

/-- The rows by which a call has requested CONSUMIDA, from where it is. -/
def Call.Requested (rs : List TransicionCredencialRow) : Call → Prop
  | .consume jti _ .marking | .consume jti _ (.done (.ok .consumida)) =>
    ∃ x, rs = [x] ∧ x.credencialId = jti ∧ x.aceptada = true
  | .consume jti _ (.done (.ok .yaConsumida)) | .consume jti _ (.done (.ok .expirada))
  | .consume jti _ (.done (.ok .revocada)) =>
    ∃ x, rs = [x] ∧ x.credencialId = jti ∧ x.aceptada = false
  | _ => rs = []

/-! ## One step -/

theorem consumes_append (rs rs' : List TransicionCredencialRow) :
    consumes (rs ++ rs') = consumes rs ++ consumes rs' := List.filter_append ..

/-- Aggregates whose buffers request no CONSUMIDA write no such row. -/
theorem consumes_newRows {ws : List Write} (h : ∀ x ∈ ws, x.credencial.Spares .consumida) :
    consumes (newRows ws) = [] := by
  unfold consumes newRows
  rw [List.filter_eq_nil_iff]
  intro r hr
  obtain ⟨x, hx, hr⟩ := List.mem_flatMap.1 hr
  obtain ⟨p, hp, rfl⟩ := List.mem_map.1 hr
  simpa using h x hx p hp

/-- The rows that the transaction of `consume` writes. -/
theorem consumes_consumed {c : CredencialAcceso} (hp : c.pendingTransitions = []) (now : Instant)
    (actor : String) :
    ∃ x : TransicionCredencialRow, consumes (newRows [.save (consumed c now actor).2]) = [x] ∧
      x.credencialId = c.id ∧ x.aceptada = (consumed c now actor).1.aceptada := by
  have hspares : (c.refreshExpiry now).2.Spares .consumida :=
    Spares.refreshExpiry (by unfold Spares; rw [hp]; simp) (by simp) now
  refine ⟨{ (c.refreshExpiry now).2.record .consumida motivoConsumo actor now with
    credencialId := (c.refreshExpiry now).2.id }, ?_, refreshExpiry_id c now, rfl⟩
  have hpend : (consumed c now actor).2.pendingTransitions =
      (c.refreshExpiry now).2.pendingTransitions ++
        [(c.refreshExpiry now).2.record .consumida motivoConsumo actor now] :=
    transition_pendingTransitions
  unfold newRows
  simp only [List.flatMap_cons, List.flatMap_nil, List.append_nil, Write.credencial]
  rw [hpend, List.map_append, consumes_append]
  have hnil : consumes ((c.refreshExpiry now).2.pendingTransitions.map fun p =>
      { p with credencialId := (consumed c now actor).2.id }) = [] := by
    unfold consumes
    rw [List.filter_eq_nil_iff]
    intro r hr
    obtain ⟨p, hp, rfl⟩ := List.mem_map.1 hr
    simpa using hspares p hp
  rw [hnil]
  rfl

/-- A step that commits no row requesting CONSUMIDA. -/
def Quiet (w w' : World) : Prop :=
  ∃ new, w'.tables.transiciones = w.tables.transiciones ++ new ∧ consumes new = []

theorem Quiet.of_eq {w w' : World} (h : w'.tables = w.tables) : Quiet w w' :=
  ⟨[], by rw [h]; simp, rfl⟩

theorem Quiet.commit (w : World) (i : Nat) (ws : List Write)
    (h : ∀ x ∈ ws, x.credencial.Spares .consumida) : Quiet w (w.commit i ws) :=
  ⟨newRows ws, transiciones_applyAll w.tables ws, consumes_newRows h⟩

/-- `issue` consumes nothing. -/
theorem issueStep_quiet {user codigoVuelo : String} {ph : IssuePhase} {ch : Choice}
    {r : World × IssuePhase} (hph : ph.OK cfg i w)
    (h : issueStep cfg i w user codigoVuelo ch ph = some r) : Quiet w r.1 := by
  have hspares : ∀ {tx old c₀} c₁, TxReady i w tx old → Built cfg i w tx c₀ →
      c₁.Spares .consumida →
      ∀ x ∈ insertWrites old c₀ ++ [.save c₁], x.credencial.Spares .consumida := by
    intro tx old c₀ c₁ hready hb hc₁ x hx
    simp only [insertWrites, List.mem_append, List.mem_map, Option.mem_toList,
      List.mem_singleton] at hx
    rcases hx with (⟨a, ha, rfl⟩ | rfl) | rfl
    · exact (hready.held a ha).spares
    · exact hb.spares
    · exact hc₁
  have hflushed : ∀ {c : CredencialAcceso}, c.flushed.Spares .consumida := by
    intro c p hp; cases hp
  cases ph with
  | registered tx c token =>
    obtain ⟨old, c₀, hready, hb, -, hwr, -⟩ := hph
    simp only [issueStep] at h
    split at h
    · have := Quiet.commit w i _ (hspares (c₀.flushed.activar tx.now).2 hready hb
        (hflushed.transition (by simp)))
      rw [← hwr] at this
      split at h <;> cases h <;> exact this
    · cases h; exact .of_eq rfl
  | unregistered tx c =>
    obtain ⟨old, c₀, hready, hb, hwr⟩ := hph
    simp only [issueStep] at h
    split at h
    · cases h
      have := Quiet.commit w i _ (hspares
        (c₀.flushed.revocar motivoTokenNoRegistrado tx.now).2 hready hb
        (hflushed.transition (by simp)))
      rwa [← hwr] at this
    · cases h; exact .of_eq rfl
  | start | validated | found | locked | built | added =>
    simp only [issueStep] at h
    split at h <;> cases h <;> exact .of_eq rfl
  | admitted codigo p =>
    simp only [issueStep] at h
    split at h
    · cases h; exact .of_eq rfl
    split at h
    · cases h
    split at h <;> cases h <;> exact .of_eq rfl
  | dated tx =>
    simp only [issueStep] at h
    split at h
    · cases h; exact .of_eq rfl
    split at h
    · cases h
    split at h <;> cases h <;> exact .of_eq rfl
  | ready tx =>
    simp only [issueStep] at h
    split at h
    · cases h
    split at h <;> cases h <;> exact .of_eq rfl
  | renewing | committed => cases h; exact .of_eq rfl
  | done => cases h

/-- `revoke_by_id` consumes nothing. -/
theorem revokeStep_quiet {motivo : String} {ph : RevokePhase} {ch : Choice}
    {r : World × RevokePhase} (hph : ph.OK i w jti)
    (h : revokeStep i w jti motivo ch ph = some r) : Quiet w r.1 := by
  cases ph with
  | revoked c res =>
    simp only [revokeStep] at h
    split at h
    · have := Quiet.commit w i [.save c] (by simpa [Write.credencial] using hph.1.spares)
      split at h <;> cases h <;> exact this
    · cases h; exact .of_eq rfl
  | start =>
    simp only [revokeStep] at h
    split at h
    · cases h
    split at h <;> cases h <;> exact .of_eq rfl
  | locked | refreshed | forgetting => cases h; exact .of_eq rfl
  | done => cases h

/-- `detail_for_owner` consumes nothing. -/
theorem detailStep_quiet {pasajeroId : UUID} {ph : DetailPhase} {ch : Choice}
    {r : World × DetailPhase} (hph : ph.OK i w jti)
    (h : detailStep i w jti pasajeroId ch ph = some r) : Quiet w r.1 := by
  cases ph with
  | refreshed now c writes =>
    obtain ⟨hh, -, -, hwr⟩ := hph
    simp only [detailStep] at h
    split at h
    · cases h
      refine Quiet.commit w i _ fun x hx => ?_
      rcases hwr with rfl | ⟨rfl, -⟩
      · rw [List.mem_singleton.1 hx]; exact hh.spares
      · cases hx
    · cases h; exact .of_eq rfl
  | start =>
    simp only [detailStep] at h
    split at h
    · cases h
    split at h
    · cases h; exact .of_eq rfl
    split at h <;> cases h <;> exact .of_eq rfl
  | locked =>
    simp only [detailStep] at h
    split at h <;> cases h <;> exact .of_eq rfl
  | done => cases h

/-- `sweep_expired` consumes nothing. -/
theorem sweepStep_quiet (hw : WorldOK w) {limit : Nat} {ph : SweepPhase} {ch : Choice}
    {r : World × SweepPhase} (h : sweepStep i w limit ch ph = some r) : Quiet w r.1 := by
  cases ph with
  | start => cases h; exact .of_eq rfl
  | read now =>
    simp only [sweepStep] at h
    split at h
    · cases h
      refine Quiet.commit w i _ fun x hx => ?_
      obtain ⟨c, hc, rfl⟩ := List.mem_map.1 hx
      refine Spares.transition ?_ (by simp)
      unfold Spares
      rw [(swept_spec (i := i) hw now limit ch.skip).2 c hc]
      simp
    · cases h; exact .of_eq rfl
  | done => cases h

/-- A quiet step leaves the rows by which its call requested CONSUMIDA. -/
theorem Quiet.requested {w' : World} (hq : Quiet w w') {l l' : Call}
    (h : ∀ rs, l.Requested rs → l'.Requested rs) :
    ∃ new, w'.tables.transiciones = w.tables.transiciones ++ new ∧
      ∀ rs, l.Requested rs → l'.Requested (rs ++ consumes new) := by
  obtain ⟨new, hnew, hq⟩ := hq
  exact ⟨new, hnew, fun rs hrs => by rw [hq, List.append_nil]; exact h rs hrs⟩

/-- **What a step adds to the history.** The rows by which a call requested CONSUMIDA are those that
its new place says. -/
theorem callStep_requested (hw : WorldOK w) {l : Call} {a : CallAct} {r : World × Call}
    (hl : l.OK cfg i w) (h : callStep cfg i w l a = some r) :
    ∃ new, r.1.tables.transiciones = w.tables.transiciones ++ new ∧
      ∀ rs, l.Requested rs → r.2.Requested (rs ++ consumes new) := by
  cases a with
  | invoke q =>
    cases l with
    | idle =>
      cases h
      exact Quiet.requested (.of_eq rfl) fun rs hrs => by cases q <;> exact hrs
    | issue | consume | revokeById | detail | sweep => cases h
    | mayBeUsable jti ans => cases ans <;> cases h
  | next ch =>
    cases l with
    | idle => cases h
    | issue user codigoVuelo ph =>
      obtain ⟨r', hr', rfl⟩ := Option.map_eq_some_iff.1 h
      exact (issueStep_quiet hl hr').requested fun _ hrs => hrs
    | revokeById jti motivo ph =>
      obtain ⟨r', hr', rfl⟩ := Option.map_eq_some_iff.1 h
      exact (revokeStep_quiet hl hr').requested fun _ hrs => hrs
    | detail jti pasajeroId ph =>
      obtain ⟨r', hr', rfl⟩ := Option.map_eq_some_iff.1 h
      exact (detailStep_quiet hl hr').requested fun _ hrs => hrs
    | sweep limit ph =>
      obtain ⟨r', hr', rfl⟩ := Option.map_eq_some_iff.1 h
      exact (sweepStep_quiet hw hr').requested fun _ hrs => hrs
    | mayBeUsable jti ans =>
      cases ans <;> cases h
      exact Quiet.requested (.of_eq rfl) fun _ hrs => hrs
    | consume jti actor ph =>
      obtain ⟨r', hr', rfl⟩ := Option.map_eq_some_iff.1 h
      cases ph with
      | start | marking => cases hr'; exact Quiet.requested (.of_eq rfl) fun _ hrs => hrs
      | done => cases hr'
      | read now =>
        obtain ⟨-, ⟨-, rfl⟩ | ⟨c, -, rfl⟩ | ⟨c, hg, hr1, hr2⟩⟩ := consumeStep_read hr'
        · exact Quiet.requested (.of_eq rfl) fun _ hrs => hrs
        · exact Quiet.requested (.of_eq rfl) fun _ hrs => hrs
        · obtain ⟨-, hp, rfl⟩ := getForUpdate_eq_some hg
          obtain ⟨x, hx, hid, hacc⟩ := consumes_consumed hp now actor
          refine ⟨newRows [.save (consumed c now actor).2], ?_, fun rs hrs => ?_⟩
          · rw [hr1]
            exact transiciones_applyAll w.tables _
          have hrs : rs = [] := hrs
          rw [hrs, hx, List.nil_append]
          rcases hr2 with ⟨ha, hr2⟩ | ⟨ha, answer, hrej, hr2⟩
          · rw [hr2]
            exact ⟨x, rfl, hid, hacc.trans ha⟩
          · rw [hr2]
            have hx' : ∃ y, [x] = [y] ∧ y.credencialId = c.id ∧ y.aceptada = false :=
              ⟨x, rfl, hid, hacc.trans ha⟩
            revert hrej
            cases (consumed c now actor).2.estado <;> intro hrej <;> cases hrej <;> exact hx'

/-! ## Runs -/

/-- What was observed along a run and the state it reached. -/
structure LogOK (s : CredentialSystem) (log : List (Nat × TransicionCredencialRow)) : Prop where
  rows : log.map Prod.snd = s.shared.tables.transiciones
  requested : ∀ i, (s.locals i).Requested (requests log i)

theorem requests_append (log log' : List (Nat × TransicionCredencialRow)) (i : Nat) :
    requests (log ++ log') i = requests log i ++ requests log' i := by
  simp [requests, consumes]

/-- The requests of a call among those of one call. -/
theorem requests_map (i j : Nat) (rs : List TransicionCredencialRow) :
    requests (rs.map fun r => (i, r)) j = if i = j then consumes rs else [] := by
  unfold requests
  rw [List.filter_map, List.map_map]
  split
  · next h =>
    have : ((fun e : Nat × TransicionCredencialRow => decide (e.1 = j)) ∘ fun r => (i, r)) =
        fun _ => true := by
      funext r; simp [h]
    rw [this, List.filter_true]
    exact congrArg consumes (List.map_id _)
  · next h =>
    have : ((fun e : Nat × TransicionCredencialRow => decide (e.1 = j)) ∘ fun r => (i, r)) =
        fun _ => false := by
      funext r; simp [h]
    rw [this, List.filter_false]
    rfl

theorem mem_requests {log : List (Nat × TransicionCredencialRow)}
    {x : TransicionCredencialRow} :
    x ∈ requests log i ↔ (i, x) ∈ log ∧ x.estadoSolicitado = .consumida := by
  simp [requests, consumes]

/-- One step of the whole system. -/
theorem LogOK.step {log : List (Nat × TransicionCredencialRow)} (hs : CredentialsOK cfg s)
    (h : LogOK s log) {a : Act CallAct EnvAct} (hst : credentialStep cfg s a = some t) :
    LogOK t (log ++ appended s a t) := by
  rcases Program.step_cases hst with ⟨i, b, r, rfl, hc, hsh, hi, hother⟩ | ⟨e, rfl, he, ht⟩
  · obtain ⟨new, hnew, hreq⟩ := callStep_requested hs.1 (hs.2 i) hc
    rw [← hsh] at hnew
    have happ : appended s (.call i b) t = new.map fun r => (i, r) := by
      simp [appended, hnew]
    rw [happ]
    refine ⟨?_, fun j => ?_⟩
    · rw [List.map_append, h.rows, hnew, List.map_map]
      exact congrArg _ (List.map_id _)
    · rw [requests_append, requests_map]
      by_cases hij : i = j
      · subst hij
        rw [if_pos rfl, hi]
        exact hreq _ (h.requested i)
      · rw [if_neg hij, List.append_nil, hother j fun h => hij h.symm]
        exact h.requested j
  · have htab : t.shared.tables = s.shared.tables := by
      cases e <;> exact (congrArg World.tables (Option.some.inj he)).symm
    refine ⟨?_, fun j => ?_⟩
    · rw [htab, ← h.rows]
      simp [appended]
    · rw [ht]
      simpa [appended] using h.requested j

/-- What was observed along a run from an initial state. -/
theorem logOK_run (h0 : s.Initial) {as : List (Act CallAct EnvAct)}
    (h : run (credentialStep cfg) s as = some t) :
    CredentialsOK cfg t ∧ LogOK t (committed cfg s as) := by
  refine outputs_invariant (J := fun s log => CredentialsOK cfg s ∧ LogOK s log) ?_ ?_ h
  · refine ⟨h0.ok, ?_, fun i => ?_⟩
    · rw [h0.1]; rfl
    · rw [h0.2.2.2.2]; rfl
  · intro s' log a t hok hst
    exact ⟨(credential_relyGuarantee cfg).step hok.1 hst, hok.2.step hok.1 hst⟩

/-- The rows of the observed log accepted into CONSUMIDA for one credential are at most one. -/
theorem LogOK.length_accepted_le {log : List (Nat × TransicionCredencialRow)}
    (hs : CredentialsOK cfg s) (h : LogOK s log) (jti : UUID) :
    (log.filter fun e => e.2.credencialId = jti ∧ e.2.aceptada = true ∧
      e.2.estadoSolicitado = .consumida).length ≤ 1 := by
  have hle : ((s.shared.tables.history jti).filter fun t =>
      t.aceptada && !t.estadoSolicitado.live).length ≤ 1 := by
    cases hr : s.shared.tables.row? jti with
    | none => rw [hs.1.tables.orphan hr]; simp
    | some r => exact (hs.1.tables.history hr).length_final_le
  refine Nat.le_trans ?_ hle
  rw [CredentialTables.history, ← h.rows, List.filter_map, List.filter_map, List.filter_map,
    List.length_map, List.length_map, List.filter_filter]
  refine (List.Sublist.length_le ?_)
  refine List.monotone_filter_right _ fun e he => ?_
  simp only [decide_eq_true_eq] at he
  simp [he.1, he.2.1, he.2.2, EstadoCredencial.live]

/-- A credential is CONSUMIDA exactly when some observed row was accepted into CONSUMIDA. -/
theorem LogOK.consumida_iff {log : List (Nat × TransicionCredencialRow)}
    (hs : CredentialsOK cfg s) (h : LogOK s log) :
    InState s.shared jti .consumida ↔
      ∃ j, ∃ x ∈ requests log j, x.credencialId = jti ∧ x.aceptada = true := by
  constructor
  · rintro ⟨r, hr, he⟩
    have hrep := (hs.1.tables.history hr).replay
    obtain ⟨p, hp, ha, hreq⟩ := AuditLog.exists_of_replay (hrep.trans (by rw [he]))
    obtain ⟨x, hx, rfl⟩ := List.mem_map.1 hp
    obtain ⟨hx, hid⟩ := List.mem_filter.1 hx
    rw [← h.rows] at hx
    obtain ⟨⟨j, x⟩, hjx, rfl⟩ := List.mem_map.1 hx
    exact ⟨j, x, mem_requests.2 ⟨hjx, hreq⟩, by simpa using hid, ha⟩
  · rintro ⟨j, x, hx, hid, ha⟩
    obtain ⟨hjx, hreq⟩ := mem_requests.1 hx
    have hmem : x.toTransicion ∈ s.shared.tables.history jti := by
      refine List.mem_map.2 ⟨x, List.mem_filter.2 ⟨?_, by simpa using hid⟩, rfl⟩
      rw [← h.rows]
      exact List.mem_map.2 ⟨_, hjx, rfl⟩
    cases hr : s.shared.tables.row? jti with
    | none => rw [hs.1.tables.orphan hr] at hmem; cases hmem
    | some r =>
      refine ⟨r, hr, ?_⟩
      rw [(hs.1.tables.history hr).estado_of_final hmem ha (by rw [hreq]; rfl), hreq]

/-- Only a `consume` call of the credential requests CONSUMIDA for it. -/
theorem Call.Requested.consume {l : Call} {rs : List TransicionCredencialRow}
    (h : l.Requested rs) {x : TransicionCredencialRow} (hx : x ∈ rs) :
    ∃ actor ph, l = .consume x.credencialId actor ph := by
  unfold Call.Requested at h
  split at h
  case h_6 => rw [h] at hx; cases hx
  all_goals
    obtain ⟨y, rfl, rfl, -⟩ := h
    rw [List.mem_singleton.1 hx]
    exact ⟨_, _, rfl⟩

/-! ## The transaction of a call that returned -/

/-- A `consume` call that has made its transaction. -/
def PastTx (i : Nat) (s : CredentialSystem) : Prop :=
  ∃ jti actor, s.locals i = .consume jti actor .marking ∨
    ∃ x, s.locals i = .consume jti actor (.done x)

/-- The step that takes a call past its transaction is the transaction. -/
theorem read_of_pastTx {a : Act CallAct EnvAct} (h0 : ¬ PastTx i s)
    (hst : credentialStep cfg s a = some t) (h1 : PastTx i t) :
    ∃ jti actor now ch, a = .call i (.next ch) ∧ s.locals i = .consume jti actor (.read now) := by
  have hne : t.locals i ≠ s.locals i := fun he => h0 (by unfold PastTx at *; rwa [← he])
  obtain ⟨b, rfl⟩ := Program.step_of_moved hst hne
  obtain ⟨r, hc, -, ht, -⟩ := Program.step_call hst
  obtain ⟨jti, actor, h1⟩ := h1
  rw [ht] at h1
  cases b with
  | invoke q =>
    cases hl : s.locals i with
    | idle =>
      rw [hl] at hc
      cases hc
      cases q <;> simp [Call.start] at h1
    | issue | consume | revokeById | detail | sweep => rw [hl] at hc; cases hc
    | mayBeUsable jti ans => rw [hl] at hc; cases ans <;> cases hc
  | next ch =>
    cases hl : s.locals i with
    | consume jti' actor' ph =>
      cases ph with
      | start => rw [hl] at hc; cases hc; simp at h1
      | read now => exact ⟨jti', actor', now, ch, rfl, rfl⟩
      | marking => exact absurd ⟨jti', actor', .inl hl⟩ h0
      | done x => exact absurd ⟨jti', actor', .inr ⟨x, hl⟩⟩ h0
    | idle => rw [hl] at hc; cases hc
    | issue | revokeById | detail | sweep =>
      rw [hl] at hc
      obtain ⟨r', -, rfl⟩ := Option.map_eq_some_iff.1 hc
      simp at h1
    | mayBeUsable jti ans =>
      rw [hl] at hc
      cases ans <;> cases hc
      simp at h1

/-- After its transaction a call only marks the key, and then it has answered CONSUMIDA. -/
theorem pastTx_run (h0 : PastTx i s) {as : List (Act CallAct EnvAct)}
    (h : run (credentialStep cfg) s as = some t) :
    t.locals i = s.locals i ∨ ∃ jti actor, s.locals i = .consume jti actor .marking ∧
      t.locals i = .consume jti actor (.done (.ok .consumida)) := by
  refine run_invariant (I := fun u => u.locals i = s.locals i ∨ ∃ jti actor,
    s.locals i = .consume jti actor .marking ∧
      u.locals i = .consume jti actor (.done (.ok .consumida))) ?_ h (.inl rfl)
  intro u a v hu hst
  by_cases hne : v.locals i = u.locals i
  · rwa [hne]
  obtain ⟨b, rfl⟩ := Program.step_of_moved hst hne
  obtain ⟨r, hc, -, hv, -⟩ := Program.step_call hst
  obtain ⟨jti, actor, hl | ⟨x, hl⟩⟩ := h0
  · rcases hu with hu | ⟨jti', actor', -, hu⟩
    · rw [hu, hl] at hc
      cases b <;> cases hc
      exact .inr ⟨jti, actor, hl, hv⟩
    · rw [hu] at hc
      cases b <;> cases hc
  · rcases hu with hu | ⟨jti', actor', -, hu⟩
    · rw [hu, hl] at hc
      cases b <;> cases hc
    · rw [hu] at hc
      cases b <;> cases hc

/-- What the transaction of a call that answered `r` found and left. -/
inductive TxAnswer (w w' : World) (jti : UUID) (now : Instant) (actor : String) :
    ConsumeResult → Prop
  | missing : w.tables.row? jti = none → w'.tables.row? jti = none →
    TxAnswer w w' jti now actor .noEncontrada
  | accepted {c} : w.tables.row? jti = some c.toCredencialAccesoRow →
    w'.tables.row? jti = some (consumed c now actor).2.toCredencialAccesoRow →
    c.estado = .activa → (consumed c now actor).2.estado = .consumida →
    TxAnswer w w' jti now actor .consumida
  | rejected {c r} : w.tables.row? jti = some c.toCredencialAccesoRow →
    w'.tables.row? jti = some (consumed c now actor).2.toCredencialAccesoRow →
    (consumed c now actor).2.estado = (c.refreshExpiry now).2.estado →
    rejection (consumed c now actor).2.estado = some r → TxAnswer w w' jti now actor r

/-- A call that returned made its transaction at one step of the run, and what it found and left
there decides the answer. -/
theorem consume_transaction (h0 : s.Initial) {as : List (Act CallAct EnvAct)}
    (h : run (credentialStep cfg) s as = some t) {r : ConsumeResult}
    (hl : t.locals i = .consume jti actor (.done (.ok r))) :
    ∃ pre ch post s₁ s₂ now, as = pre ++ .call i (.next ch) :: post ∧
      run (credentialStep cfg) s pre = some s₁ ∧
      credentialStep cfg s₁ (.call i (.next ch)) = some s₂ ∧
      run (credentialStep cfg) s₂ post = some t ∧
      s₁.locals i = .consume jti actor (.read now) ∧
      TxAnswer s₁.shared s₂.shared jti now actor r := by
  have hstart : ¬ PastTx i s := by
    rintro ⟨jti, actor, hl⟩
    rw [h0.2.2.2.2] at hl
    simp at hl
  obtain ⟨pre, a, post, s₁, s₂, rfl, hpre, hn, hst, hq, hpost⟩ :=
    run_entry h hstart ⟨jti, actor, .inr ⟨_, hl⟩⟩
  obtain ⟨jti', actor', now, ch, rfl, hread⟩ := read_of_pastTx hn hst hq
  have hend : s₂.locals i = .consume jti actor (.done (.ok r)) ∨
      s₂.locals i = .consume jti actor .marking ∧ r = .consumida := by
    rcases pastTx_run hq hpost with h | ⟨jti'', actor'', hm, hd⟩
    · exact .inl (h.symm.trans hl)
    · rw [hl] at hd
      cases hd
      exact .inr ⟨hm, rfl⟩
  obtain ⟨q, hc, hsh, hq', -⟩ := Program.step_call hst
  rw [hread] at hc
  obtain ⟨q, htx, rfl⟩ := Option.map_eq_some_iff.1 hc
  dsimp only at hsh hq'
  rw [hq'] at hend
  have hans : jti' = jti ∧ actor' = actor ∧
      (q.2 = .done (.ok r) ∨ q.2 = .marking ∧ r = .consumida) := by
    rcases hend with h | ⟨h, hr⟩ <;> injection h with h1 h2 h3
    · exact ⟨h1, h2, .inl h3⟩
    · exact ⟨h1, h2, .inr ⟨h3, hr⟩⟩
  obtain ⟨rfl, rfl, hend⟩ := hans
  refine ⟨pre, ch, post, s₁, s₂, now, rfl, hpre, hst, hpost, hread, ?_⟩
  have hok := credential_inv (.run (.start h0) hpre)
  rw [hsh]
  obtain ⟨hfree, ⟨hg, rfl⟩ | ⟨c, -, rfl⟩ | ⟨c, hg, hq1, hq2⟩⟩ := consumeStep_read htx
  · have hr : r = .noEncontrada := by
      rcases hend with h | ⟨h, -⟩ <;> cases h
      rfl
    subst hr
    exact .missing (getForUpdate_eq_none.1 hg) (getForUpdate_eq_none.1 hg)
  · rcases hend with h | ⟨h, -⟩ <;> cases h
  · obtain ⟨hrow, -, -⟩ := getForUpdate_eq_some hg
    obtain ⟨-, -, hrow'⟩ := consume_commit_ok (i := i) hok.1 now actor' hfree hg
    rw [← hq1] at hrow'
    rcases consumed_cases c now actor' with ⟨hact, -, hacc, he⟩ | ⟨-, hacc, he⟩
    · rcases hq2 with ⟨-, hq2⟩ | ⟨hacc', -⟩
      · have hr : r = .consumida := by
          rcases hend with h | ⟨-, h⟩
          · rw [hq2] at h; cases h
          · exact h
        subst hr
        exact .accepted hrow hrow' hact he
      · rw [hacc] at hacc'; cases hacc'
    · rcases hq2 with ⟨hacc', -⟩ | ⟨-, answer, hrej, hq2⟩
      · rw [hacc] at hacc'; cases hacc'
      · have hr : answer = r := by
          rcases hend with h | ⟨h, -⟩ <;> rw [hq2] at h <;> cases h
          rfl
        subst hr
        exact .rejected hrow hrow' he hrej

/-- The answers as the states that the transaction found and left. -/
theorem TxAnswer.spec {w w' : World} {now : Instant} {r : ConsumeResult} (hw : WorldOK w)
    (h : TxAnswer w w' jti now actor r) :
    (r = .noEncontrada ↔ w.tables.row? jti = none) ∧
    (r = .expirada ↔ InState w' jti .expirada) ∧
    (r = .revocada ↔ InState w' jti .revocada) ∧
    (r = .yaConsumida ↔ InState w jti .consumida) := by
  cases h with
  | missing hn hn' => simp [hn, hn', InState]
  | accepted hr hr' hact he => simp [hr, hr', InState, he, hact]
  | rejected hr hr' he hrej =>
    next c =>
    have hne : (consumed c now actor).2.estado ≠ .emitida := by
      rw [he]
      exact refreshExpiry_ne_emitida (hw.noEmitida hr) now
    have hcons : c.estado = .consumida ↔ (consumed c now actor).2.estado = .consumida := by
      rw [he]
      rcases refreshExpiry_cases c now with ⟨hl, -, hre, hexp⟩ | ⟨-, hre⟩
      · rw [hre, hexp]
        refine ⟨fun hc => ?_, fun hc => by cases hc⟩
        rw [hc] at hl
        cases hl
      · rw [hre]
    simp only [hr, hr', InState, Option.some.injEq, exists_eq_left', hcons, reduceCtorEq, iff_false]
    revert hrej hne
    cases (consumed c now actor).2.estado <;> intro hrej hne <;> cases hrej <;> simp at hne ⊢

/-- **The answers of `consume`.** Along every run from an initial state at most one `consume` call
of a credential answers CONSUMIDA, none ends with a `KeyError`, and one that answers made its
transaction at one step of the run: it answers CONSUMIDA exactly when its own row was accepted,
YA_CONSUMIDA exactly when an earlier call's was, EXPIRADA and REVOCADA exactly when that is the
state it left, NO_ENCONTRADA exactly when there was no such credential, and it has appended one row
requesting CONSUMIDA if there was one. -/
theorem consume_answers {cfg : PassSettings} {s t : CredentialSystem}
    {as : List (Act CallAct EnvAct)} (h0 : s.Initial)
    (hrun : run (credentialStep cfg) s as = some t) :
    (∀ jti i j actor actor', t.locals i = .consume jti actor (.done (.ok .consumida)) →
      t.locals j = .consume jti actor' (.done (.ok .consumida)) → i = j) ∧
    (∀ jti i actor, t.locals i ≠ .consume jti actor (.done (.error .keyError))) ∧
    ∀ jti i actor r, t.locals i = .consume jti actor (.done (.ok r)) →
      ∃ pre ch post s₁ s₂ now, as = pre ++ .call i (.next ch) :: post ∧
        run (credentialStep cfg) s pre = some s₁ ∧
        credentialStep cfg s₁ (.call i (.next ch)) = some s₂ ∧
        s₁.locals i = .consume jti actor (.read now) ∧
        (r = .consumida ↔ ∃ x ∈ requests (committed cfg s as) i,
          x.credencialId = jti ∧ x.aceptada = true) ∧
        (r = .yaConsumida ↔ ∃ j, j ≠ i ∧ (∃ actor' ph, s₁.locals j = .consume jti actor' ph) ∧
          ∃ x ∈ requests (committed cfg s pre) j, x.credencialId = jti ∧ x.aceptada = true) ∧
        (r = .expirada ↔ InState s₂.shared jti .expirada) ∧
        (r = .revocada ↔ InState s₂.shared jti .revocada) ∧
        ¬ InState s₁.shared jti .emitida ∧
        (r = .noEncontrada ↔ s₁.shared.tables.row? jti = none) ∧
        (r ≠ .noEncontrada → ∃ x, requests (committed cfg s as) i = [x] ∧
          x.credencialId = jti) := by
  obtain ⟨hok, hlog⟩ := logOK_run h0 hrun
  refine ⟨fun jti i j actor actor' hi hj => ?_, fun jti i actor hi => ?_,
    fun jti i actor r hi => ?_⟩
  · -- both calls have an accepted row, and there is at most one
    have hmem : ∀ {k actor}, t.locals k = .consume jti actor (.done (.ok .consumida)) →
        ∃ x, (k, x) ∈ (committed cfg s as).filter fun e => e.2.credencialId = jti ∧
          e.2.aceptada = true ∧ e.2.estadoSolicitado = .consumida := by
      intro k actor hk
      have hreq := hlog.requested k
      rw [hk] at hreq
      obtain ⟨x, hx, hid, ha⟩ := hreq
      obtain ⟨hin, hcons⟩ := mem_requests.1 (show x ∈ requests (committed cfg s as) k by simp [hx])
      exact ⟨x, List.mem_filter.2 ⟨hin, by simp [hid, ha, hcons]⟩⟩
    obtain ⟨x, hx⟩ := hmem hi
    obtain ⟨y, hy⟩ := hmem hj
    have hle := hlog.length_accepted_le hok jti
    revert hle hx hy
    generalize (committed cfg s as).filter _ = accepted
    rcases accepted with _ | ⟨e, _ | ⟨e', rest⟩⟩ <;> simp +contextual
    rintro rfl
    simp +contextual
  · have herr := hok.2 i
    rw [hi] at herr
    obtain ⟨texto, herr⟩ := herr
    rcases writeError_cases texto with hc | ⟨-, hc⟩ <;> rw [hc] at herr <;> cases herr
  obtain ⟨pre, ch, post, s₁, s₂, now, rfl, hpre, hst, hpost, hread, hans⟩ :=
    consume_transaction h0 hrun hi
  obtain ⟨hok₁, hlog₁⟩ := logOK_run h0 hpre
  obtain ⟨hno, hexp, hrev, hya⟩ := hans.spec hok₁.1
  have hreq := hlog.requested i
  rw [hi] at hreq
  refine ⟨pre, ch, post, s₁, s₂, now, rfl, hpre, hst, hread, ?_, ?_, hexp, hrev, ?_, hno, ?_⟩
  · cases r with
    | consumida =>
      obtain ⟨x, hx, hid, ha⟩ := hreq
      exact ⟨fun _ => ⟨x, by rw [hx]; simp, hid, ha⟩, fun _ => rfl⟩
    | yaConsumida | expirada | revocada =>
      obtain ⟨x, hx, -, ha⟩ := hreq
      simp [hx, ha]
    | noEncontrada =>
      have hreq : requests _ i = [] := hreq
      simp [hreq]
  · rw [hya]
    constructor
    · intro hin
      obtain ⟨j, x, hx, hid, ha⟩ := (hlog₁.consumida_iff hok₁).1 hin
      have hreqj := hlog₁.requested j
      refine ⟨j, ?_, hid ▸ hreqj.consume hx, x, hx, hid, ha⟩
      rintro rfl
      · rw [hread] at hreqj
        have hnil : requests _ j = [] := hreqj
        rw [hnil] at hx
        cases hx
    · rintro ⟨j, -, -, hx⟩
      exact (hlog₁.consumida_iff hok₁).2 ⟨j, hx⟩
  · rintro ⟨row, hrow, he⟩
    exact hok₁.1.noEmitida hrow he
  · intro hr
    cases r with
    | noEncontrada => exact absurd rfl hr
    | consumida | yaConsumida | expirada | revocada =>
      obtain ⟨x, hx, hid, -⟩ := hreq
      exact ⟨x, hx, hid⟩

/-- Two gates read one pass. -/
theorem consume_answers_sample :
    ∃ t, run (credentialStep sampleSettings) sampleStart (sampleIssue 0 7 ++
        callThrough 1 (.consume 7 "gate") 3 ++ callThrough 2 (.consume 7 "gate") 2) = some t ∧
      t.locals 1 = .consume 7 "gate" (.done (.ok .consumida)) ∧
      t.locals 2 = .consume 7 "gate" (.done (.ok .yaConsumida)) ∧
      ∀ i actor, t.locals i = .consume 7 actor (.done (.ok .consumida)) → i = 1 := by
  obtain ⟨t, ht⟩ := Option.isSome_iff_exists.1 (by decide +kernel :
    (run (credentialStep sampleSettings) sampleStart (sampleIssue 0 7 ++
      callThrough 1 (.consume 7 "gate") 3 ++ callThrough 2 (.consume 7 "gate") 2)).isSome = true)
  have hspec := consume_answers sampleStart_initial ht
  cases ht
  exact ⟨_, rfl, rfl, rfl, fun i actor hi => hspec.1 7 i 1 actor "gate" hi rfl⟩

end Aeropass
