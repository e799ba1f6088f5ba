import Aeropass.Credentials.Writes
import Aeropass.Lib.Tickets

/-!
# The credential services as a ticket office

What the credential services are for: an office of passes, each a ticket of a passenger and a
flight. `Call.Logged` is what a call has asked of the office, from where it is, and the commit of
every call is one operation of it.
-/

namespace Aeropass

open CredentialTables CredencialAcceso Runs Threads Tickets

/-! ## The office -/

/-- What became of a pass in that state. -/
def EstadoCredencial.fate : EstadoCredencial → Fate
  | .emitida | .activa => .live
  | .consumida => .used
  | .expirada => .lapsed
  | .revocada => .withdrawn

/-- A pass is a ticket of its passenger and its flight. -/
def CredencialAccesoRow.ticket (r : CredencialAccesoRow) : Ticket (UUID × String) Instant :=
  ⟨(r.pasajeroId, r.codigoVuelo), r.expiraAt, r.estado.fate⟩

/-- The office of passes. -/
abbrev PassOffice := Office UUID (UUID × String) Instant

/-- An entry of its log. -/
abbrev PassEntry := Entry UUID (UUID × String) Instant

/-- The office that the tables hold. -/
def CredentialTables.office (t : CredentialTables) : PassOffice :=
  fun id => (t.row? id).map CredencialAccesoRow.ticket

/-- The answer of the office that a `ConsumeResult` tells. -/
def ConsumeResult.answer : ConsumeResult → Answer
  | .consumida => .found .live
  | .yaConsumida => .found .used
  | .expirada => .found .lapsed
  | .revocada => .found .withdrawn
  | .noEncontrada => .absent

/-- The answer of the office that a `TransitionResult` tells. -/
def TransitionResult.answer (r : TransitionResult) : Answer :=
  .found (if r.aceptada then .live else r.estadoActual.fate)

/-! ## What the calls have done there -/

section
variable (i : Nat) (es : List PassEntry)

/-- The entries of an `issue` call, from where it is. A 503 has left a pass that was withdrawn at
once. -/
def IssuePhase.Logged : IssuePhase → Prop
  | .committed _ pass | .done (.ok pass) =>
    es = [⟨i, pass.credencial.emitidaAt, .issue pass.credencial.id
      (pass.credencial.pasajeroId, pass.credencial.codigoVuelo) pass.credencial.expiraAt, .done⟩]
  | .done (.error (.domain e)) =>
    if e.clase = .almacenamientoNoDisponible then
      ∃ now id key due, es = [⟨i, now, .void id key due, .done⟩]
    else es = []
  | _ => es = []

/-- The entries of a `consume` call. -/
def ConsumePhase.Logged (jti : UUID) : ConsumePhase → Prop
  | .marking => ∃ now, es = [⟨i, now, .use jti, .found .live⟩]
  | .done (.ok r) => ∃ now, es = [⟨i, now, .use jti, r.answer⟩]
  | _ => es = []

/-- The entries of a `revoke_by_id` call. -/
def RevokePhase.Logged (jti : UUID) : RevokePhase → Prop
  | .forgetting r | .done (.ok r) => ∃ now, es = [⟨i, now, .withdraw jti, r.answer⟩]
  | .done (.error (.domain _)) => ∃ now, es = [⟨i, now, .withdraw jti, .absent⟩]
  | _ => es = []

/-- The entries of a `detail_for_owner` call: passes of another passenger are not there. -/
def DetailPhase.Logged (jti pasajeroId : UUID) : DetailPhase → Prop
  | .done now (.ok (c, _)) =>
    es = [⟨i, now, .look jti fun k => k.1 = pasajeroId, .found c.estado.fate⟩]
  | .done now (.error (.domain _)) =>
    es = [⟨i, now, .look jti fun k => k.1 = pasajeroId, .absent⟩]
  | _ => es = []

/-- The entries of a `sweep_expired` call. -/
def SweepPhase.Logged (limit : Nat) : SweepPhase → Prop
  | .done (.ok n) => ∃ now ids, n ≤ limit ∧ es = [⟨i, now, .lapse ids, .lapsed n⟩]
  | _ => es = []

/-- The entries of a call: none before its commit, then the operation that it was asked for, with
the answer that it gives. -/
def Call.Logged : Call → Prop
  | .idle | .mayBeUsable _ _ => es = []
  | .issue _ _ ph => ph.Logged i es
  | .consume jti _ ph => ph.Logged i es jti
  | .revokeById jti _ ph => ph.Logged i es jti
  | .detail jti pasajeroId ph => ph.Logged i es jti pasajeroId
  | .sweep limit ph => ph.Logged i es limit

end

/-! ## What the calls have read -/

section
variable (since : Instant → Prop) (w : World)

/-- An instant that the call has read. -/
def Read (now : Instant) : Prop := since now ∧ now ≤ w.clock

/-- The previous pass of the key was ended as the office ends it. -/
def IssueTx.Ends (tx : IssueTx) (a : CredencialAcceso) : Prop :=
  a.pasajeroId = tx.pasajeroId ∧ a.codigoVuelo = tx.codigo ∧
    a.estado = if a.expiraAt ≤ tx.now then .expirada else .revocada

/-- What the transaction of `issue` has read and saved, other than the pass it makes ACTIVA. -/
def IssueTx.Dated (tx : IssueTx) : Prop :=
  Read since w tx.now ∧ ∀ a, .save a ∈ tx.writes → a.estado = .activa ∨ tx.Ends a

/-- The instant that a call has read, and what it makes of the pass that it holds. -/
def Call.Dated : Call → Prop
  | .issue _ _ (.dated tx) | .issue _ _ (.ready tx) | .issue _ _ (.built tx _ _)
  | .issue _ _ (.added tx _ _) | .issue _ _ (.registered tx _ _)
  | .issue _ _ (.unregistered tx _) => tx.Dated since w
  | .issue _ _ (.renewing tx a) => tx.Dated since w ∧ tx.now < a.expiraAt
  | .consume _ _ (.read now) | .sweep _ (.read now) => Read since w now
  | .revokeById _ _ (.locked c) => w.tables.row? c.id = some c.toCredencialAccesoRow
  | .revokeById _ _ (.refreshed c) => ∃ now, ∃ c₀ : CredencialAcceso, Read since w now ∧
    w.tables.row? c₀.id = some c₀.toCredencialAccesoRow ∧ c = (c₀.refreshExpiry now).2
  | .revokeById _ motivo (.revoked c r) => ∃ now ahora, ∃ c₀ : CredencialAcceso, Read since w now ∧
    w.tables.row? c₀.id = some c₀.toCredencialAccesoRow ∧
    (r, c) = (c₀.refreshExpiry now).2.revocar motivo ahora
  | .detail _ pasajeroId (.locked c) =>
    w.tables.row? c.id = some c.toCredencialAccesoRow ∧ c.pasajeroId = pasajeroId
  | .detail _ pasajeroId (.refreshed now c writes) => ∃ c₀ : CredencialAcceso, Read since w now ∧
    w.tables.row? c₀.id = some c₀.toCredencialAccesoRow ∧ c₀.pasajeroId = pasajeroId ∧
    c = (c₀.refreshExpiry now).2 ∧ (writes = [.save c] ∨ writes = [] ∧ c = c₀)
  | _ => True

end

variable {cfg : PassSettings} {since : Instant → Prop} {i : Nat} {w w' : World} {ch : Choice}
  {c : CredencialAcceso} {t : CredentialTables} {now ahora : Instant} {jti : UUID}

/-! ## Transitions of one pass -/

theorem fate_live {e : EstadoCredencial} : e.fate = .live ↔ e.live = true := by
  cases e <;> decide

/-- Lazy expiry settles the ticket. -/
theorem ticket_refreshExpiry (c : CredencialAcceso) (now : Instant) :
    (c.refreshExpiry now).2.ticket = c.ticket.settle now := by
  rcases refreshExpiry_cases c now with ⟨hl, hd, hr, he⟩ | ⟨hlt, hr⟩
  · rw [Ticket.settle_of_due (t := c.ticket) (fate_live.2 hl) hd, hr]
    simp only [CredencialAccesoRow.ticket, he]
    rfl
  · rw [hr]
    by_cases hl : c.estado.live = true
    · rw [Ticket.settle_of_lt (t := c.ticket) (hlt hl)]
    · rw [Ticket.settle_of_ended (t := c.ticket) fun h => hl (fate_live.1 h)]

/-- A transition into a final state ends the ticket so where it is accepted. -/
theorem ticket_transition {target : EstadoCredencial} {motivo actor : String}
    (hcan : (stateFor c.estado).canTransitionTo target = c.estado.live) :
    (c.transition target motivo actor ahora).2.ticket =
      if c.ticket.fate = .live then { c.ticket with fate := target.fate } else c.ticket := by
  have hfate : c.ticket.fate = c.estado.fate := rfl
  rw [hfate]
  cases hl : c.estado.live with
  | true =>
    rw [if_pos (fate_live.2 hl)]
    simp only [CredencialAccesoRow.ticket, transition_estado_of_accepted (hcan.trans hl)]
    rfl
  | false =>
    rw [if_neg fun h => by rw [fate_live, hl] at h; cases h]
    simp only [CredencialAccesoRow.ticket, transition_estado_of_rejected (hcan.trans hl)]
    rfl

/-- Revocation closes it. -/
theorem ticket_revocar (c : CredencialAcceso) (motivo : String) (now ahora : Instant) :
    ((c.refreshExpiry now).2.revocar motivo ahora).2.ticket = c.ticket.close now .withdrawn := by
  have hcan : (stateFor (c.refreshExpiry now).2.estado).canTransitionTo .revocada =
      (c.refreshExpiry now).2.estado.live := by
    cases (c.refreshExpiry now).2.estado <;> decide
  rw [revocar, ticket_transition hcan, ticket_refreshExpiry]
  rfl

/-- So does consumption. -/
theorem ticket_consumed (h : c.estado ≠ .emitida) (now : Instant) (actor : String) :
    (consumed c now actor).2.ticket = c.ticket.close now .used := by
  have hcan : (stateFor (c.refreshExpiry now).2.estado).canTransitionTo .consumida =
      (c.refreshExpiry now).2.estado.live := by
    have hne := refreshExpiry_ne_emitida h now
    revert hne
    cases (c.refreshExpiry now).2.estado <;> decide
  rw [consumed, consumir, ticket_transition hcan, ticket_refreshExpiry]
  rfl

/-! ## Commits -/

theorem office_of_row {r : CredencialAccesoRow} {id : UUID} (h : t.row? id = some r) :
    t.office id = some r.ticket := by
  rw [office, h]
  rfl

/-- A unit of work that saves one pass is a visit of the office. -/
theorem office_save {c₀ : CredencialAcceso} {mine : UUID × String → Bool}
    {change : Ticket (UUID × String) Instant → Ticket (UUID × String) Instant}
    (hc : Continues t c) (hrow : t.row? c₀.id = some c₀.toCredencialAccesoRow) (hid : c.id = c₀.id)
    (hm : mine c₀.ticket.key = true) (hchange : c.ticket = change c₀.ticket) :
    t.office.visit now c₀.id mine change =
      (.found (c₀.refreshExpiry now).2.estado.fate, (t.applyAll [.save c]).office) := by
  rw [Office.visit_of_some (office_of_row hrow) hm, ← ticket_refreshExpiry]
  refine congrArg (Prod.mk _) (funext fun id => ?_)
  change _ = ((t.write (.save c)).row? id).map _
  by_cases hne : id = c₀.id
  · subst hne
    rw [Function.update_self, ← hid, hc.row?_save, ← hchange]
    rfl
  · rw [Function.update_of_ne hne, (save_other t (hid ▸ Ne.symm hne)).1]
    rfl

/-- The commit of `consume`. -/
theorem consume_logged (hw : WorldOK w) (hg : w.tables.getForUpdate jti = some c)
    (now : Instant) (actor : String) :
    w.tables.office.step ⟨i, now, .use jti, .found (c.refreshExpiry now).2.estado.fate⟩ =
      some (w.tables.applyAll [.save (consumed c now actor).2]).office := by
  obtain ⟨hr, hp, rfl⟩ := getForUpdate_eq_some hg
  have hcont : Continues w.tables (consumed c now actor).2 :=
    (Continues.of_row hw.tables hr hp).consumir now actor
  refine Office.step_eq_some.2 (congrArg some ?_)
  exact office_save hcont hr (consumed_id c now actor) rfl
    (ticket_consumed (hw.noEmitida hr) now actor)

/-- What `consume` answers is what the office found. -/
theorem consumed_answer (now : Instant) (actor : String)
    (h : (consumed c now actor).1.aceptada = true) :
    (c.refreshExpiry now).2.estado.fate = .live := by
  rcases consumed_cases c now actor with ⟨ha, hlt, -, -⟩ | ⟨-, hno, -⟩
  · rcases refreshExpiry_cases c now with ⟨-, hdue, -⟩ | ⟨-, hr⟩
    · exact absurd hlt (Int.not_lt.2 hdue)
    · rw [hr, ha]
      rfl
  · rw [hno] at h
    cases h

theorem rejection_answer {e : EstadoCredencial} {r : ConsumeResult} (he : e ≠ .emitida)
    (h : rejection e = some r) : r.answer = .found e.fate := by
  cases e with
  | emitida => exact absurd rfl he
  | activa => cases h
  | consumida | expirada | revocada => cases h; rfl

/-- The commit of `revoke_by_id`. -/
theorem revoke_logged {c₀ : CredencialAcceso} {motivo : String} (hc : Continues w.tables c)
    (hrow : w.tables.row? c₀.id = some c₀.toCredencialAccesoRow) {r : TransitionResult}
    (hrev : (r, c) = (c₀.refreshExpiry now).2.revocar motivo ahora) :
    w.tables.office.step ⟨i, now, .withdraw c₀.id, r.answer⟩ =
      some (w.tables.applyAll [.save c]).office := by
  have hr : r = ((c₀.refreshExpiry now).2.revocar motivo ahora).1 := congrArg Prod.fst hrev
  have hc' : c = ((c₀.refreshExpiry now).2.revocar motivo ahora).2 := congrArg Prod.snd hrev
  subst hr hc'
  obtain ⟨-, hacc, -⟩ := revocar_spec (c₀.refreshExpiry now).2 motivo ahora
  have hans : ((c₀.refreshExpiry now).2.revocar motivo ahora).1.answer =
      .found (c₀.refreshExpiry now).2.estado.fate := by
    rw [TransitionResult.answer, hacc]
    cases hl : (c₀.refreshExpiry now).2.estado.live with
    | true => rw [if_pos rfl, fate_live.2 hl]
    | false =>
      have hcan : (stateFor (c₀.refreshExpiry now).2.estado).canTransitionTo .revocada = false :=
        canTransitionTo_of_not_live hl
      rw [if_neg (by simp)]
      have hest : ((c₀.refreshExpiry now).2.revocar motivo ahora).2.estado =
          (c₀.refreshExpiry now).2.estado := transition_estado_of_rejected hcan
      exact congrArg (fun e : EstadoCredencial => Answer.found e.fate) hest
  rw [hans]
  refine Office.step_eq_some.2 (congrArg some ?_)
  exact office_save hc hrow (refreshExpiry_id c₀ now) rfl (ticket_revocar c₀ motivo now ahora)

/-- The commit of `detail_for_owner`. -/
theorem detail_logged {c₀ : CredencialAcceso} {pasajeroId : UUID} {writes : List Write}
    (hc : Continues w.tables c) (hrow : w.tables.row? c₀.id = some c₀.toCredencialAccesoRow)
    (hown : c₀.pasajeroId = pasajeroId) (href : c = (c₀.refreshExpiry now).2)
    (hwr : writes = [.save c] ∨ writes = [] ∧ c = c₀) :
    w.tables.office.step
        ⟨i, now, .look c₀.id fun k => k.1 = pasajeroId, .found c.estado.fate⟩ =
      some (w.tables.applyAll writes).office := by
  subst href
  refine Office.step_eq_some.2 (congrArg some ?_)
  have hm : decide (c₀.ticket.key.1 = pasajeroId) = true := decide_eq_true hown
  rcases hwr with rfl | ⟨rfl, hsame⟩
  · exact office_save hc hrow (refreshExpiry_id c₀ now) hm (ticket_refreshExpiry c₀ now)
  · dsimp only
    rw [Office.visit_of_some (office_of_row hrow) hm, ← ticket_refreshExpiry, hsame]
    refine congrArg (Prod.mk _) (funext fun id => ?_)
    by_cases hne : id = c₀.id
    · subst hne
      rw [Function.update_self]
      exact (office_of_row hrow).symm
    · rw [Function.update_of_ne hne]
      rfl

/-- The commit of `sweep_expired`. -/
theorem sweep_logged (hw : WorldOK w) (now : Instant) (limit : Nat) (skip : UUID → Bool) :
    let vencidas := w.tables.expiredLiveForUpdate now limit skip
    w.tables.office.step
        ⟨i, now, .lapse (vencidas.map fun c => c.id), .lapsed vencidas.length⟩ =
      some (w.tables.applyAll (vencidas.map fun c => .save (c.expirar now).2)).office := by
  intro vencidas
  obtain ⟨hv, hnd⟩ := expiredLiveForUpdate_spec w.tables now limit skip
  obtain ⟨hs, -⟩ := swept_saved hw.tables now limit skip
  have hdue : ∀ id ∈ vencidas.map fun c => c.id, w.tables.office.Due now id := by
    intro id hid
    obtain ⟨c, hc, rfl⟩ := List.mem_map.1 hid
    obtain ⟨hr, -, hl, he, -⟩ := hv c hc
    rw [Office.Due, office_of_row hr]
    exact decide_eq_true ⟨fate_live.2 hl, he⟩
  refine Office.step_eq_some.2 ?_
  rw [Office.apply, if_pos ⟨hnd, hdue⟩, List.length_map]
  refine congrArg (fun s => some (_, s)) (funext fun id => ?_)
  split
  · next hid =>
    obtain ⟨c, hc, rfl⟩ := List.mem_map.1 hid
    obtain ⟨hr, -, hl, he, -⟩ := hv c hc
    have hrow : (w.tables.applyAll (vencidas.map fun c => .save (c.expirar now).2)).row? c.id =
        some (c.expirar now).2.toCredencialAccesoRow :=
      hs.row (c.expirar now).2 (List.mem_map_of_mem hc)
    rw [office_of_row hr, office_of_row hrow, Option.map_some]
    rcases refreshExpiry_cases c now with ⟨-, -, hre, -⟩ | ⟨hlt, -⟩
    · have hsettle := ticket_refreshExpiry c now
      rw [hre] at hsettle
      exact congrArg some hsettle.symm
    · exact absurd he (Int.not_le.2 (hlt hl))
  · next hid =>
    have hother := (hs.other id fun c hc he => hid ?_).1
    · exact congrArg (Option.map _) hother.symm
    · obtain ⟨a, ha, rfl⟩ := List.mem_map.1 hc
      exact List.mem_map.2 ⟨a, ha, he⟩

section
variable {tx : IssueTx} {old : Option CredencialAcceso} {c₀ c₁ : CredencialAcceso} {id : UUID}

/-- The commit of `issue` leaves of the rows of other passes what saving the previous one does. -/
theorem issue_other (hw : WorldOK w) (h : TxReady i w tx old) (hb : Built cfg i w tx c₀)
    (hid : c₁.id = c₀.id) (hne : id ≠ c₀.id) :
    (w.tables.applyAll (insertWrites old c₀ ++ [.save c₁])).row? id =
      (w.tables.applyAll (old.toList.map .save)).row? id := by
  have heq : w.tables.applyAll (insertWrites old c₀ ++ [.save c₁]) =
      (w.tables.applyAll (insertWrites old c₀)).write (.save c₁) := by
    simp [applyAll]
  have hsave := (save_other (w.tables.applyAll (insertWrites old c₀))
    (show c₁.id ≠ id by rw [hid]; exact hne.symm)).1
  rw [heq, hsave]
  exact ((inserted_spec hw h hb).2.2.2 id hne).1

/-- Saving the previous pass ends the live ticket of the key. -/
theorem renew_logged (hw : WorldOK w) (h : TxReady i w tx old) (hends : ∀ a ∈ old, tx.Ends a) :
    (w.tables.applyAll (old.toList.map .save)).office =
      w.tables.office.renew tx.now (tx.pasajeroId, tx.codigo) := by
  have hs := (h.saved hw).1
  funext id
  by_cases hold : ∃ a ∈ old, a.id = id
  · obtain ⟨a, ha, rfl⟩ := hold
    obtain ⟨hp, hcod, hest⟩ := hends a ha
    obtain ⟨r, hr, hsame⟩ := (h.held a ha).continues.row
    obtain ⟨-, e1, e2, e3⟩ := hsame.eqs
    have hkey : r.ticket.key = (tx.pasajeroId, tx.codigo) :=
      Prod.ext (e1.symm.trans hp) (e2.symm.trans hcod)
    have hticket : a.ticket = { r.ticket with fate := a.estado.fate } := by
      simp only [CredencialAccesoRow.ticket, e1, e2, e3]
    rw [office_of_row (hs.row a (Option.mem_toList.2 ha)), Office.renew, office_of_row hr,
      Option.map_some, if_pos hkey, hticket]
    by_cases hl : r.estado.live = true
    · by_cases hd : r.expiraAt ≤ tx.now
      · rw [Ticket.close_of_due (t := r.ticket) (fate_live.2 hl) hd, hest, e3, if_pos hd]
        rfl
      · rw [Ticket.close_of_lt (t := r.ticket) (fate_live.2 hl) (Int.not_le.1 hd), hest, e3,
          if_neg hd]
        rfl
    · have hl : r.estado.live = false := Bool.not_eq_true _ ▸ hl
      have hended : r.ticket.fate ≠ .live := by
        intro hf
        have hlive := fate_live.1 hf
        rw [hl] at hlive
        cases hlive
      rw [Ticket.close_of_ended hended, (h.held a ha).continues.final hw.tables hr hl]
      rfl
  · have hother := (hs.other id fun a ha he => hold ⟨a, Option.mem_toList.1 ha, he⟩).1
    rw [office, hother, Office.renew]
    cases hr : w.tables.row? id with
    | none => rw [office, hr]; rfl
    | some r =>
      rw [office_of_row hr, Option.map_some, Option.map_some]
      split
      · next hkey =>
        refine congrArg some (Ticket.close_of_ended (t := r.ticket) fun hf => hold ?_).symm
        exact h.only hr (fate_live.1 hf) (congrArg Prod.fst hkey) (congrArg Prod.snd hkey)
      · rfl

/-- The commit of `issue`, of a pass that is ACTIVA or REVOCADA. -/
theorem issue_logged (hw : WorldOK w) (h : TxReady i w tx old) (hb : Built cfg i w tx c₀)
    (hends : ∀ a ∈ old, tx.Ends a) (hid : c₁.id = c₀.id)
    (hc : Continues (w.tables.applyAll (insertWrites old c₀)) c₁)
    (hkey : c₁.ticket = { c₀.ticket with fate := c₁.estado.fate }) :
    w.tables.office.take tx.now c₀.id c₁.ticket =
      some (.done, (w.tables.applyAll (insertWrites old c₀ ++ [.save c₁])).office) := by
  have hkey' : c₁.ticket.key = (tx.pasajeroId, tx.codigo) := by
    rw [hkey]
    exact Prod.ext hb.pasajero hb.codigo
  have hnone : w.tables.office c₀.id = none := by
    rw [office, hb.row]
    rfl
  have hrow : (w.tables.applyAll (insertWrites old c₀ ++ [.save c₁])).row? c₀.id =
      some c₁.toCredencialAccesoRow := by
    rw [← hid, show w.tables.applyAll (insertWrites old c₀ ++ [.save c₁]) =
      (w.tables.applyAll (insertWrites old c₀)).write (.save c₁) by simp [applyAll]]
    exact hc.row?_save
  rw [Office.take, if_neg (by rw [hnone]; simp), hkey', ← renew_logged hw h hends]
  refine congrArg (fun s => some (_, s)) (funext fun id => ?_)
  by_cases hne : id = c₀.id
  · subst hne
    rw [Function.update_self, office_of_row hrow]
  · rw [Function.update_of_ne hne, office, office, issue_other hw h hb hid hne]

end

end Aeropass
