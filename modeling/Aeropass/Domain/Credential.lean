import Aeropass.Domain.Basic
import Aeropass.Lib.AuditLog

/-!
# The access credential

`CredencialAcceso` and its state machine (`domain/credential/states.py`, `credential.py`). The
transition methods never raise: they return a `TransitionResult` and buffer the attempt, accepted
or not, in `pendingTransitions`, from where the repository writes it to the history. `HistoryOK`
is what a history says about the credential it belongs to, and `HistoryOK.transition` that every
transition method keeps it, the buffer counted as part of the history.
-/

namespace Aeropass

/-! ## States -/

/-- `CredentialState`: a state and the transitions it allows. -/
structure CredentialState where
  estado : EstadoCredencial
  allowed : List EstadoCredencial := []

/-- `can_transition_to`. -/
def CredentialState.canTransitionTo (s : CredentialState) (target : EstadoCredencial) : Bool :=
  s.allowed.contains target

/-- `is_final`. -/
def CredentialState.isFinal (s : CredentialState) : Bool := s.allowed.isEmpty

/-- `state_for`. -/
def stateFor : EstadoCredencial → CredentialState
  | .emitida => { estado := .emitida, allowed := [.activa, .expirada, .revocada] }
  | .activa => { estado := .activa, allowed := [.consumida, .expirada, .revocada] }
  | .consumida => { estado := .consumida }
  | .expirada => { estado := .expirada }
  | .revocada => { estado := .revocada }

/-- `_LIVE` of the credential repository. -/
def EstadoCredencial.live (e : EstadoCredencial) : Bool := e = .emitida || e = .activa

/-- The live states are the ones that are not final. -/
theorem isFinal_stateFor (e : EstadoCredencial) : (stateFor e).isFinal = !e.live := by
  cases e <;> rfl

/-- A final state allows nothing. -/
theorem canTransitionTo_of_not_live {e t : EstadoCredencial} (h : e.live = false) :
    (stateFor e).canTransitionTo t = false := by
  cases e with
  | emitida | activa => cases h
  | consumida | expirada | revocada => simp [CredentialState.canTransitionTo, stateFor]

/-! ## The aggregate -/

def sistema : String := "sistema"

def motivoEmision : String := "EMISION"
def motivoActivacion : String := "ACTIVACION"
def motivoConsumo : String := "CONSUMO"
def motivoExpiracion : String := "EXPIRACION"
def motivoRenovacion : String := "RENOVACION"
def motivoInvalida : String := "TRANSICION_INVALIDA"

/-- `Transicion`: one attempted transition. -/
structure Transicion where
  estadoAnterior : Option EstadoCredencial
  estadoSolicitado : EstadoCredencial
  aceptada : Bool
  motivo : String
  actor : String
  createdAt : Instant
  deriving DecidableEq, Repr

/-- `TransitionResult`. -/
structure TransitionResult where
  aceptada : Bool
  estadoActual : EstadoCredencial
  deriving DecidableEq, Repr

/-- `CredencialAccesoRow`: the columns of `credenciales_acceso`. -/
structure CredencialAccesoRow where
  id : UUID
  pasajeroId : UUID
  identidadId : UUID
  codigoVuelo : String
  permisos : List String
  firma : String
  kid : String
  emitidaAt : Instant
  expiraAt : Instant
  estado : EstadoCredencial
  updatedAt : Instant
  deriving DecidableEq, Repr

/-- `CredencialAcceso`: the columns and the transitions not written yet. -/
structure CredencialAcceso extends CredencialAccesoRow where
  pendingTransitions : List Transicion := []
  deriving DecidableEq, Repr

namespace CredencialAcceso

/-- `CredencialAcceso.emitir`. -/
def emitir (id pasajeroId identidadId : UUID) (codigoVuelo : String) (permisos : List String)
    (firma kid : String) (emitidaAt expiraAt : Instant) : CredencialAcceso :=
  { id, pasajeroId, identidadId, codigoVuelo, permisos, firma, kid, emitidaAt, expiraAt
    estado := .emitida
    updatedAt := emitidaAt
    pendingTransitions := [⟨none, .emitida, true, motivoEmision, sistema, emitidaAt⟩] }

/-- `_transition`. -/
def transition (c : CredencialAcceso) (target : EstadoCredencial) (motivo actor : String)
    (ahora : Instant) : TransitionResult × CredencialAcceso :=
  let anterior := c.estado
  let aceptada := (stateFor anterior).canTransitionTo target
  let estado := if aceptada then target else anterior
  (⟨aceptada, estado⟩,
    { c with
      estado := estado
      updatedAt := if aceptada then ahora else c.updatedAt
      pendingTransitions := c.pendingTransitions ++
        [⟨some anterior, target, aceptada, if aceptada then motivo else motivoInvalida, actor,
          ahora⟩] })

/-- `activar`. -/
def activar (c : CredencialAcceso) (ahora : Instant) : TransitionResult × CredencialAcceso :=
  c.transition .activa motivoActivacion sistema ahora

/-- `consumir`. -/
def consumir (c : CredencialAcceso) (ahora : Instant) (actor : String) :
    TransitionResult × CredencialAcceso :=
  c.transition .consumida motivoConsumo actor ahora

/-- `expirar`. -/
def expirar (c : CredencialAcceso) (ahora : Instant) : TransitionResult × CredencialAcceso :=
  c.transition .expirada motivoExpiracion sistema ahora

/-- `revocar`, always by the system. -/
def revocar (c : CredencialAcceso) (motivo : String) (ahora : Instant) :
    TransitionResult × CredencialAcceso :=
  c.transition .revocada motivo sistema ahora

/-- `is_expired`. -/
def isExpired (c : CredencialAcceso) (now : Instant) : Bool := c.expiraAt ≤ now

/-- `is_final`. -/
def isFinal (c : CredencialAcceso) : Bool := (stateFor c.estado).isFinal

/-- `refresh_expiry`: a live, past-due credential moves to EXPIRADA. -/
def refreshExpiry (c : CredencialAcceso) (now : Instant) : Bool × CredencialAcceso :=
  if !c.isFinal && c.isExpired now then
    let (r, c') := c.expirar now
    (r.aceptada, c')
  else (false, c)

/-- The transition methods change the state, its instant and the buffer only. -/
def SameIssue (r r' : CredencialAccesoRow) : Prop :=
  { r with estado := r'.estado, updatedAt := r'.updatedAt } = r'

end CredencialAcceso

/-! ## Histories -/

/-- The state machine of the credential as a machine with a log: `transiciones_credencial`. -/
def historial : AuditLog Transicion EstadoCredencial where
  previous := Transicion.estadoAnterior
  requested := Transicion.estadoSolicitado
  accepted := Transicion.aceptada
  allowed
    | none, target => target = .emitida
    | some anterior, target => (stateFor anterior).canTransitionTo target

/-- What the history of a credential says about it: it starts with its issue, it replays to the
stored state, rejected entries carry `TRANSICION_INVALIDA`, nothing was consumed at or after the
expiry and nothing expired before it. -/
structure HistoryOK (expiraAt : Instant) (estado : EstadoCredencial) (h : List Transicion) :
    Prop where
  emision : ∃ t rest, h = t :: rest ∧ t.aceptada = true
  faithful : historial.Faithful h
  replay : historial.replay h = some estado
  invalida : ∀ t ∈ h, t.aceptada = false → t.motivo = motivoInvalida
  consumida : ∀ t ∈ h, t.aceptada = true → t.estadoSolicitado = .consumida → t.createdAt < expiraAt
  expirada : ∀ t ∈ h, t.aceptada = true → t.estadoSolicitado = .expirada → expiraAt ≤ t.createdAt

namespace CredencialAcceso

variable {c : CredencialAcceso} {target : EstadoCredencial} {motivo actor : String}
  {ahora : Instant}

theorem SameIssue.refl (r : CredencialAccesoRow) : SameIssue r r := rfl

theorem SameIssue.trans {r r' r'' : CredencialAccesoRow} (h : SameIssue r r')
    (h' : SameIssue r' r'') : SameIssue r r'' := by
  unfold SameIssue at *
  rw [← h', ← h]

/-- The columns that identify the pass are those of the same issue. -/
theorem SameIssue.eqs {r r' : CredencialAccesoRow} (h : SameIssue r r') :
    r'.id = r.id ∧ r'.pasajeroId = r.pasajeroId ∧ r'.codigoVuelo = r.codigoVuelo ∧
      r'.expiraAt = r.expiraAt := by
  unfold SameIssue at h
  rw [← h]
  simp

@[simp] theorem transition_expiraAt :
    (c.transition target motivo actor ahora).2.expiraAt = c.expiraAt := rfl

@[simp] theorem transition_id : (c.transition target motivo actor ahora).2.id = c.id := rfl

theorem sameIssue_transition :
    SameIssue c.toCredencialAccesoRow
      (c.transition target motivo actor ahora).2.toCredencialAccesoRow := rfl

theorem transition_aceptada :
    (c.transition target motivo actor ahora).1.aceptada =
      (stateFor c.estado).canTransitionTo target := rfl

/-- An accepted transition reaches its target. -/
theorem transition_estado_of_accepted (h : (stateFor c.estado).canTransitionTo target = true) :
    (c.transition target motivo actor ahora).2.estado = target := by
  simp [transition, h]

/-- A rejected transition stays where it was. -/
theorem transition_estado_of_rejected (h : (stateFor c.estado).canTransitionTo target = false) :
    (c.transition target motivo actor ahora).2.estado = c.estado := by
  simp [transition, h]

/-- The transition that a method appends to the buffer. -/
def record (c : CredencialAcceso) (target : EstadoCredencial) (motivo actor : String)
    (ahora : Instant) : Transicion :=
  let aceptada := (stateFor c.estado).canTransitionTo target
  ⟨some c.estado, target, aceptada, if aceptada then motivo else motivoInvalida, actor, ahora⟩

theorem transition_pendingTransitions :
    (c.transition target motivo actor ahora).2.pendingTransitions =
      c.pendingTransitions ++ [c.record target motivo actor ahora] := rfl

/-- A lazy expiry that moves the credential is an accepted transition to EXPIRADA at or after
`expira_at`; one that does not leaves it unchanged, final or not yet due. -/
theorem refreshExpiry_cases (c : CredencialAcceso) (now : Instant) :
    (c.estado.live = true ∧ c.expiraAt ≤ now ∧ c.refreshExpiry now = (true, (c.expirar now).2) ∧
      (c.expirar now).2.estado = .expirada) ∨
    ((c.estado.live = true → now < c.expiraAt) ∧ c.refreshExpiry now = (false, c)) := by
  unfold refreshExpiry isFinal isExpired
  rw [isFinal_stateFor, Bool.not_not]
  by_cases hl : c.estado.live = true
  · by_cases he : c.expiraAt ≤ now
    · have ha : (stateFor c.estado).canTransitionTo .expirada = true := by
        revert hl
        cases c.estado <;> decide
      refine .inl ⟨hl, he, ?_, transition_estado_of_accepted ha⟩
      simp [hl, he, expirar, transition_aceptada, ha]
    · exact .inr ⟨fun _ => Int.not_le.1 he, by simp [he]⟩
  · exact .inr ⟨fun h => absurd h hl, by simp [hl]⟩

@[simp] theorem refreshExpiry_id (c : CredencialAcceso) (now : Instant) :
    (c.refreshExpiry now).2.id = c.id := by
  rcases refreshExpiry_cases c now with ⟨-, -, hr, -⟩ | ⟨-, hr⟩ <;> rw [hr]
  rfl

@[simp] theorem refreshExpiry_expiraAt (c : CredencialAcceso) (now : Instant) :
    (c.refreshExpiry now).2.expiraAt = c.expiraAt := by
  rcases refreshExpiry_cases c now with ⟨-, -, hr, -⟩ | ⟨-, hr⟩ <;> rw [hr]
  rfl

/-- Lazy expiry leaves no live, past-due credential. -/
theorem lt_of_refreshExpiry_live {c : CredencialAcceso} {now : Instant}
    (h : (c.refreshExpiry now).2.estado.live = true) :
    now < c.expiraAt ∧ c.refreshExpiry now = (false, c) := by
  rcases refreshExpiry_cases c now with ⟨-, -, hr, he⟩ | ⟨hl, hr⟩
  · rw [hr] at h
    simp only [he] at h
    cases h
  · rw [hr] at h
    exact ⟨hl h, hr⟩

/-- No transition goes back to EMITIDA. -/
theorem transition_ne_emitida (h : c.estado ≠ .emitida) (ht : target ≠ .emitida) :
    (c.transition target motivo actor ahora).2.estado ≠ .emitida := by
  by_cases ha : (stateFor c.estado).canTransitionTo target = true
  · rwa [transition_estado_of_accepted ha]
  · rwa [transition_estado_of_rejected (Bool.not_eq_true _ ▸ ha)]

theorem refreshExpiry_ne_emitida (h : c.estado ≠ .emitida) (now : Instant) :
    (c.refreshExpiry now).2.estado ≠ .emitida := by
  rcases refreshExpiry_cases c now with ⟨-, -, hr, he⟩ | ⟨-, hr⟩
  · rw [hr]
    simp [he]
  · rwa [hr]

/-- The transitions in the buffer do not request `target`. -/
def Spares (target : EstadoCredencial) (c : CredencialAcceso) : Prop :=
  ∀ p ∈ c.pendingTransitions, p.estadoSolicitado ≠ target

/-- An empty buffer requests nothing. -/
theorem Spares.of_nil {t : EstadoCredencial} (h : c.pendingTransitions = []) : c.Spares t := by
  rw [Spares, h]
  simp

/-- A transition to another state does not request `t`. -/
theorem Spares.transition {t : EstadoCredencial} (h : c.Spares t) (ht : target ≠ t) :
    (c.transition target motivo actor ahora).2.Spares t := by
  intro p hp
  rw [transition_pendingTransitions] at hp
  rcases List.mem_append.1 hp with hp | hp
  · exact h p hp
  · rw [List.mem_singleton.1 hp]
    exact ht

theorem Spares.refreshExpiry {t : EstadoCredencial} (h : c.Spares t) (ht : .expirada ≠ t)
    (now : Instant) : (c.refreshExpiry now).2.Spares t := by
  rcases refreshExpiry_cases c now with ⟨-, -, hr, -⟩ | ⟨-, hr⟩ <;> rw [hr]
  · exact h.transition ht
  · exact h

/-- Revocation is accepted exactly from the live states, and none is left after it. -/
theorem revocar_spec (c : CredencialAcceso) (motivo : String) (ahora : Instant) :
    (c.revocar motivo ahora).2.estado.live = false ∧
      ((c.revocar motivo ahora).1.aceptada = c.estado.live) ∧
      (c.estado.live = true → (c.revocar motivo ahora).2.estado = .revocada) := by
  unfold revocar
  have hcan : (stateFor c.estado).canTransitionTo .revocada = c.estado.live := by
    cases c.estado <;> decide
  rw [transition_aceptada, hcan]
  cases hl : c.estado.live with
  | true =>
    rw [transition_estado_of_accepted (hcan.trans hl)]
    exact ⟨rfl, rfl, fun _ => rfl⟩
  | false =>
    rw [transition_estado_of_rejected (hcan.trans hl)]
    exact ⟨hl, rfl, fun h => by cases h⟩

end CredencialAcceso

open CredencialAcceso

namespace HistoryOK

variable {c : CredencialAcceso} {target : EstadoCredencial} {motivo actor : String}
  {ahora : Instant} {h : List Transicion}

/-- The history of a new credential, not written yet. -/
theorem emitir {id pasajeroId identidadId : UUID} {codigoVuelo : String} {permisos : List String}
    {firma kid : String} {emitidaAt expiraAt : Instant} :
    HistoryOK expiraAt .emitida
      (CredencialAcceso.emitir id pasajeroId identidadId codigoVuelo permisos firma kid emitidaAt
        expiraAt).pendingTransitions where
  emision := ⟨_, _, rfl, rfl⟩
  faithful := (AuditLog.faithful_snoc (l := [])).2 ⟨AuditLog.faithful_nil, rfl, rfl⟩
  replay := rfl
  invalida := by simp [CredencialAcceso.emitir]
  consumida := by simp [CredencialAcceso.emitir]
  expirada := by simp [CredencialAcceso.emitir]

/-- **Transitions keep the history.** With the buffer counted as part of it, the history of a
credential stays true of it under every transition method, if it consumes only before the expiry
and expires only from then on. -/
theorem transition (hc : HistoryOK c.expiraAt c.estado (h ++ c.pendingTransitions))
    (hcons : target = .consumida → (stateFor c.estado).canTransitionTo target = true →
      ahora < c.expiraAt)
    (hexp : target = .expirada → (stateFor c.estado).canTransitionTo target = true →
      c.expiraAt ≤ ahora) :
    HistoryOK c.expiraAt (c.transition target motivo actor ahora).2.estado
      (h ++ (c.transition target motivo actor ahora).2.pendingTransitions) := by
  rw [transition_pendingTransitions, ← List.append_assoc]
  have hmem : ∀ {p : Transicion → Prop}, (∀ t ∈ h ++ c.pendingTransitions, p t) →
      p (c.record target motivo actor ahora) →
      ∀ t ∈ h ++ c.pendingTransitions ++ [c.record target motivo actor ahora], p t := by
    intro p hall hlast t ht
    rcases List.mem_append.1 ht with ht | ht
    · exact hall t ht
    · rw [List.mem_singleton.1 ht]; exact hlast
  constructor
  · obtain ⟨t, rest, heq, ha⟩ := hc.emision
    exact ⟨t, _, by rw [heq]; rfl, ha⟩
  · exact AuditLog.faithful_snoc.2 ⟨hc.faithful, hc.replay.symm, by rw [hc.replay]; rfl⟩
  · rw [AuditLog.replay_snoc, hc.replay]
    simp only [historial, record, CredencialAcceso.transition]
    by_cases ha : (stateFor c.estado).canTransitionTo target = true <;> simp [ha]
  · refine hmem hc.invalida fun hr => ?_
    simp only [record] at hr ⊢
    simp [hr]
  · exact hmem hc.consumida fun ha ht => hcons ht ha
  · exact hmem hc.expirada fun ha ht => hexp ht ha

/-- Lazy expiry keeps the history. -/
theorem refreshExpiry (hc : HistoryOK c.expiraAt c.estado (h ++ c.pendingTransitions))
    (now : Instant) :
    HistoryOK c.expiraAt (c.refreshExpiry now).2.estado
      (h ++ (c.refreshExpiry now).2.pendingTransitions) := by
  rcases refreshExpiry_cases c now with ⟨-, he, hr, -⟩ | ⟨-, hr⟩
  · rw [hr]
    exact hc.transition (fun h => by cases h) (fun _ _ => he)
  · rwa [hr]

/-- The first entry is the issue: from no state to EMITIDA. -/
theorem first {e : Instant} {s : EstadoCredencial} (hh : HistoryOK e s h) :
    ∃ t rest, h = t :: rest ∧ t.estadoAnterior = none ∧ t.estadoSolicitado = .emitida ∧
      t.aceptada = true := by
  obtain ⟨t, rest, rfl, ha⟩ := hh.emision
  obtain ⟨hprev, hacc⟩ := hh.faithful [] t rest rfl
  refine ⟨t, rest, rfl, hprev, ?_, ha⟩
  have : t.aceptada = decide (t.estadoSolicitado = .emitida) := hacc
  rw [ha] at this
  exact of_decide_eq_true this.symm

/-- After the first entry accepted into a final state nothing is accepted. -/
theorem rejected_after_final {e : Instant} {s : EstadoCredencial} (hh : HistoryOK e s h)
    {pre post : List Transicion} {t : Transicion} (heq : h = pre ++ t :: post)
    (ha : t.aceptada = true) (hf : t.estadoSolicitado.live = false) :
    ∀ u ∈ post, u.aceptada = false := by
  have hf' : historial.Faithful ((pre ++ [t]) ++ post) := by
    have := hh.faithful
    rwa [heq, List.append_cons] at this
  refine (hf'.rejected_after (s := t.estadoSolicitado) ?_ fun u => ?_).1
  · rw [AuditLog.replay_snoc]
    simp [historial, ha]
  · exact canTransitionTo_of_not_live hf

/-- A history has at most one entry accepted into a final state. -/
theorem length_final_le {e : Instant} {s : EstadoCredencial} (hh : HistoryOK e s h) :
    (h.filter fun t => t.aceptada && !t.estadoSolicitado.live).length ≤ 1 := by
  cases hf : h.filter fun t => t.aceptada && !t.estadoSolicitado.live with
  | nil => simp
  | cons t rest =>
    obtain ⟨pre, post, heq, -, ht, hrest⟩ := List.filter_eq_cons_iff.1 hf
    rw [Bool.and_eq_true, Bool.not_eq_true'] at ht
    have hnone : rest = [] := by
      rw [← hrest, List.filter_eq_nil_iff]
      intro u hu
      simp [hh.rejected_after_final heq ht.1 ht.2 u hu]
    simp [hnone]

/-- An entry accepted into a final state is the state of the credential. -/
theorem estado_of_final {e : Instant} {s : EstadoCredencial} (hh : HistoryOK e s h)
    {t : Transicion} (ht : t ∈ h) (ha : t.aceptada = true) (hf : t.estadoSolicitado.live = false) :
    s = t.estadoSolicitado := by
  obtain ⟨pre, post, rfl⟩ := List.append_of_mem ht
  have hfaithful := hh.faithful
  have hrep := hh.replay
  rw [List.append_cons] at hfaithful hrep
  have := (hfaithful.rejected_after (s := t.estadoSolicitado) (by simp [historial, ha])
    fun u => canTransitionTo_of_not_live hf).2
  rw [hrep, Option.some.injEq] at this
  exact this

end HistoryOK

end Aeropass
