import Aeropass.Credentials.Failed

/-!
# What lazy expiry makes of the tables

`CredentialTables.view n` is what an operation sees of a credential that locks it and expires it at
the instant `n` if it is due, up to when exactly it expired. Whether it had been expired before
makes no difference to the view (`view_save_expired`), and what an operation does next to the
credential depends on the view only (`seen_transition`, `SameView.save`).
-/

namespace Aeropass

open CredentialTables CredencialAcceso

/-! ## Expiries without their instants -/

/-- An entry of the history; one of an expiry without its instant. -/
def Transicion.undated (t : Transicion) : Transicion :=
  if t.estadoSolicitado = .expirada then { t with createdAt := 0 } else t

/-- A credential; an expired one without the instant of its last update. -/
def CredencialAccesoRow.undated (r : CredencialAccesoRow) : CredencialAccesoRow :=
  if r.estado = .expirada then { r with updatedAt := 0 } else r

namespace CredencialAcceso

/-- An aggregate with its history, the buffer included, without the instants of expiries. -/
def seen (h : List Transicion) (c : CredencialAcceso) : CredencialAccesoRow × List Transicion :=
  (c.toCredencialAccesoRow.undated, (h ++ c.pendingTransitions).map Transicion.undated)

variable {c c' : CredencialAcceso} {h h' : List Transicion} {n m : Instant}
  {r r' : CredencialAccesoRow}

@[simp] theorem undated_estado (r : CredencialAccesoRow) : r.undated.estado = r.estado := by
  unfold CredencialAccesoRow.undated
  split <;> rfl

@[simp] theorem undated_id (r : CredencialAccesoRow) : r.undated.id = r.id := by
  unfold CredencialAccesoRow.undated
  split <;> rfl

@[simp] theorem undated_pasajeroId (r : CredencialAccesoRow) :
    r.undated.pasajeroId = r.pasajeroId := by
  unfold CredencialAccesoRow.undated
  split <;> rfl

@[simp] theorem undated_expiraAt (r : CredencialAccesoRow) : r.undated.expiraAt = r.expiraAt := by
  unfold CredencialAccesoRow.undated
  split <;> rfl

/-- Credentials that are the same but for the instant of an expiry. -/
theorem undated_eqs (he : r.undated = r'.undated) :
    r.id = r'.id ∧ r.expiraAt = r'.expiraAt ∧ r.estado = r'.estado ∧
      (r.estado ≠ .expirada → r = r') := by
  have hest : r.estado = r'.estado := by
    rw [← undated_estado r, he, undated_estado]
  refine ⟨?_, ?_, hest, fun hne => ?_⟩
  · rw [← undated_id r, he, undated_id]
  · rw [← undated_expiraAt r, he, undated_expiraAt]
  · rw [CredencialAccesoRow.undated, if_neg hne, CredencialAccesoRow.undated,
      if_neg (by rw [← hest]; exact hne)] at he
    exact he

/-- What aggregates that look the same have in common. -/
theorem seen_eqs (he : c.seen h = c'.seen h') :
    c.id = c'.id ∧ c.expiraAt = c'.expiraAt ∧ c.estado = c'.estado ∧
      (c.estado ≠ .expirada → c.toCredencialAccesoRow = c'.toCredencialAccesoRow) ∧
      (h ++ c.pendingTransitions).map Transicion.undated =
        (h' ++ c'.pendingTransitions).map Transicion.undated := by
  obtain ⟨h1, h2⟩ := Prod.mk.inj he
  obtain ⟨e1, e2, e3, e4⟩ := undated_eqs h1
  exact ⟨e1, e2, e3, e4, h2⟩

/-- **Transitions depend on the view.** -/
theorem seen_transition (he : c.seen h = c'.seen h') (target : EstadoCredencial)
    (motivo actor : String) (ahora : Instant) :
    (c.transition target motivo actor ahora).1 = (c'.transition target motivo actor ahora).1 ∧
      (c.transition target motivo actor ahora).2.seen h =
        (c'.transition target motivo actor ahora).2.seen h' := by
  obtain ⟨-, -, hest, hrow, hhist⟩ := seen_eqs he
  have hrec : c.record target motivo actor ahora = c'.record target motivo actor ahora := by
    simp only [record, hest]
  refine ⟨by simp only [transition, hest], ?_⟩
  unfold seen
  have happ : ∀ (k : List Transicion) (d : CredencialAcceso),
      (k ++ (d.transition target motivo actor ahora).2.pendingTransitions).map
        Transicion.undated = (k ++ d.pendingTransitions).map Transicion.undated ++
          [(d.record target motivo actor ahora).undated] := by
    intro k d
    rw [transition_pendingTransitions, ← List.append_assoc, List.map_append]
    rfl
  rw [happ, happ, hhist, hrec]
  congr 1
  by_cases hexp : c.estado = .expirada
  · -- EXPIRADA allows nothing
    have hexp' : c'.estado = .expirada := hest ▸ hexp
    have hno : (stateFor .expirada).canTransitionTo target = false :=
      canTransitionTo_of_not_live rfl
    have hkeep : ∀ d : CredencialAcceso, d.estado = .expirada →
        (d.transition target motivo actor ahora).2.toCredencialAccesoRow =
          d.toCredencialAccesoRow := by
      intro d hd
      simp only [transition, hd, hno, Bool.false_eq_true, if_false]
      rw [← hd]
    rw [hkeep c hexp, hkeep c' hexp']
    exact (Prod.mk.inj he).1
  · have hrow := hrow hexp
    have : (c.transition target motivo actor ahora).2.toCredencialAccesoRow =
        (c'.transition target motivo actor ahora).2.toCredencialAccesoRow := by
      simp only [transition, hrow]
    rw [this]

/-- Expiring now or then looks the same. -/
theorem seen_expirar (hl : c.estado.live = true) (h : List Transicion) (n m : Instant) :
    (c.expirar n).2.seen h = (c.expirar m).2.seen h := by
  have ha : (stateFor c.estado).canTransitionTo .expirada = true := by
    revert hl
    cases c.estado <;> decide
  simp [seen, expirar, transition, ha, CredencialAccesoRow.undated, Transicion.undated]

/-- Lazy expiry depends on the view. -/
theorem seen_refreshExpiry (he : c.seen h = c'.seen h') (n : Instant) :
    (c.refreshExpiry n).2.seen h = (c'.refreshExpiry n).2.seen h' := by
  obtain ⟨-, hexp, hest, -, -⟩ := seen_eqs he
  rcases refreshExpiry_cases c n with ⟨hl, hdue, hr, -⟩ | ⟨hkeep, hr⟩
  · rcases refreshExpiry_cases c' n with ⟨-, -, hr', -⟩ | ⟨hkeep', -⟩
    · rw [hr, hr']
      exact (seen_transition he _ _ _ _).2
    · have := hkeep' (hest ▸ hl)
      rw [← hexp] at this
      exact absurd hdue (Int.not_le.2 this)
  · rcases refreshExpiry_cases c' n with ⟨hl', hdue', -⟩ | ⟨-, hr'⟩
    · have := hkeep (hest ▸ hl')
      rw [hexp] at this
      exact absurd hdue' (Int.not_le.2 this)
    · rw [hr, hr']
      exact he

/-- A later expiry makes an earlier one invisible. -/
theorem seen_refreshExpiry_refreshExpiry (hnm : n ≤ m) (c : CredencialAcceso)
    (h : List Transicion) :
    ((c.refreshExpiry n).2.refreshExpiry m).2.seen h = (c.refreshExpiry m).2.seen h := by
  rcases refreshExpiry_cases c n with ⟨hl, hdue, hr, hexp⟩ | ⟨-, hr⟩
  · have hmoved : ((c.expirar n).2.refreshExpiry m).2 = (c.expirar n).2 := by
      rcases refreshExpiry_cases (c.expirar n).2 m with ⟨hl', -⟩ | ⟨-, hr'⟩
      · rw [hexp] at hl'
        cases hl'
      · rw [hr']
    have hdue' : (c.refreshExpiry m).2 = (c.expirar m).2 := by
      rcases refreshExpiry_cases c m with ⟨-, -, hr', -⟩ | ⟨hlt, -⟩
      · rw [hr']
      · exact absurd (Int.le_trans hdue hnm) (Int.not_le.2 (hlt hl))
    rw [hr, hmoved, hdue']
    exact seen_expirar hl h n m
  · rw [hr]

/-- Writing the buffer is not visible. -/
theorem seen_flushed (c : CredencialAcceso) (h : List Transicion) (m : Instant) :
    (c.flushed.refreshExpiry m).2.seen (h ++ c.pendingTransitions) =
      (c.refreshExpiry m).2.seen h := by
  have hmove : (c.flushed.expirar m).2.seen (h ++ c.pendingTransitions) =
      (c.expirar m).2.seen h := by
    unfold seen expirar
    rw [transition_pendingTransitions, transition_pendingTransitions, ← List.append_assoc h]
    simp only [flushed, List.nil_append]
    rfl
  rcases refreshExpiry_cases c m with ⟨hl, hdue, hr, -⟩ | ⟨hkeep, hr⟩
  · rcases refreshExpiry_cases c.flushed m with ⟨-, -, hr', -⟩ | ⟨hkeep', -⟩
    · rw [hr, hr']
      exact hmove
    · exact absurd hdue (Int.not_le.2 (hkeep' hl))
  · rcases refreshExpiry_cases c.flushed m with ⟨hl', hdue', -⟩ | ⟨-, hr'⟩
    · exact absurd hdue' (Int.not_le.2 (hkeep hl'))
    · rw [hr, hr']
      simp [seen, flushed]

end CredencialAcceso

/-! ## Views -/

/-- What `get_for_update` and lazy expiry at `n` make of a credential, with its history. -/
def CredentialTables.view (t : CredentialTables) (n : Instant) (id : UUID) :
    Option (CredencialAccesoRow × List Transicion) :=
  (t.getForUpdate id).map fun c => (c.refreshExpiry n).2.seen (t.history id)

namespace CredentialTables

/-- Tables that look the same once everything due at `n` has expired. -/
def SameView (n : Instant) (t t' : CredentialTables) : Prop := ∀ id, t.view n id = t'.view n id

variable {t t' t'' : CredentialTables} {c c' : CredencialAcceso} {n m : Instant} {id : UUID}

theorem SameView.refl (n : Instant) (t : CredentialTables) : SameView n t t := fun _ => rfl

theorem SameView.symm (h : SameView n t t') : SameView n t' t := fun id => (h id).symm

theorem SameView.trans (h : SameView n t t') (h' : SameView n t' t'') : SameView n t t'' :=
  fun id => (h id).trans (h' id)

/-- Lazy expiry keeps the owner. -/
theorem seen_pasajeroId {h h' : List Transicion}
    (he : (c.refreshExpiry n).2.seen h = (c'.refreshExpiry n).2.seen h') :
    c.pasajeroId = c'.pasajeroId := by
  have hkeep : ∀ d : CredencialAcceso, (d.refreshExpiry n).2.pasajeroId = d.pasajeroId := by
    intro d
    rcases refreshExpiry_cases d n with ⟨-, -, hr, -⟩ | ⟨-, hr⟩ <;> rw [hr]
    rfl
  have := congrArg CredencialAccesoRow.pasajeroId (Prod.mk.inj he).1
  rwa [undated_pasajeroId, undated_pasajeroId, hkeep, hkeep] at this

/-- What one of them finds, the other finds too, the same after lazy expiry. -/
theorem SameView.find (h : SameView n t t') (hc : t.getForUpdate id = some c) :
    ∃ c', t'.getForUpdate id = some c' ∧
      (c.refreshExpiry n).2.seen (t.history id) = (c'.refreshExpiry n).2.seen (t'.history id) := by
  have := h id
  unfold CredentialTables.view at this
  rw [hc, Option.map_some, eq_comm, Option.map_eq_some_iff] at this
  obtain ⟨c', hc', he⟩ := this
  exact ⟨c', hc', he.symm⟩

/-- What is not found in one table is not found in the other. -/
theorem SameView.find_none (h : SameView n t t') (hc : t.getForUpdate id = none) :
    t'.getForUpdate id = none := by
  cases hc' : t'.getForUpdate id with
  | none => rfl
  | some c' =>
    obtain ⟨c, hc'', -⟩ := h.symm.find hc'
    rw [hc] at hc''
    cases hc''

/-- Tables that look the same at an instant look the same from then on. -/
theorem SameView.later (h : SameView n t t') (hnm : n ≤ m) : SameView m t t' := by
  intro id
  cases hc : t.getForUpdate id with
  | none => simp [CredentialTables.view, hc, h.find_none hc]
  | some c =>
    obtain ⟨c', hc', he⟩ := h.find hc
    simp only [CredentialTables.view, hc, hc', Option.map_some, Option.some.injEq]
    rw [← seen_refreshExpiry_refreshExpiry hnm c, ← seen_refreshExpiry_refreshExpiry hnm c']
    exact seen_refreshExpiry he m

/-- A live credential that is not due is the same in both. -/
theorem SameView.live (h : SameView n t t') (hc : t.getForUpdate id = some c)
    (hl : c.estado.live = true) (hn : n < c.expiraAt) :
    t'.getForUpdate id = some c ∧
      (t.history id).map Transicion.undated = (t'.history id).map Transicion.undated := by
  obtain ⟨c', hc', he⟩ := h.find hc
  have hr : c.refreshExpiry n = (false, c) := by
    rcases refreshExpiry_cases c n with ⟨-, hdue, -⟩ | ⟨-, hr⟩
    · exact absurd hdue (Int.not_le.2 hn)
    · exact hr
  rw [hr] at he
  have hest : c.estado = (c'.refreshExpiry n).2.estado := (seen_eqs he).2.2.1
  obtain ⟨-, hr'⟩ := lt_of_refreshExpiry_live (by rw [← hest]; exact hl)
  rw [hr'] at he
  obtain ⟨-, -, -, hrow, hhist⟩ := seen_eqs he
  have hp := (getForUpdate_eq_some hc).2.1
  have hp' := (getForUpdate_eq_some hc').2.1
  have hcc : c = c' := by
    have hrow := hrow (by intro h; rw [h] at hl; cases hl)
    cases c
    cases c'
    simp_all
  rw [hp, hp', List.append_nil, List.append_nil] at hhist
  exact ⟨hcc ▸ hc', hhist⟩

/-- A row that is the aggregate's is what `get_for_update` finds. -/
theorem getForUpdate_of_row (h : t.row? c.id = some c.toCredencialAccesoRow) :
    t.getForUpdate c.id = some c.flushed := by
  unfold getForUpdate
  rw [show t.credenciales.find? c.id = some c.toCredencialAccesoRow from h]
  rfl

/-- The view of a credential that was saved. -/
theorem view_save (hc : Continues t c) :
    (t.write (.save c)).view n c.id = some ((c.refreshExpiry n).2.seen (t.history c.id)) := by
  unfold CredentialTables.view
  rw [getForUpdate_of_row hc.row?_save, history_write, Write.credencial, if_pos rfl,
    Option.map_some, seen_flushed]

/-- The views of the others stay. -/
theorem view_save_other (hne : c.id ≠ id) : (t.write (.save c)).view n id = t.view n id := by
  obtain ⟨h1, h2⟩ := save_other t hne
  unfold CredentialTables.view getForUpdate
  rw [h2, show (t.write (.save c)).credenciales.find? id = t.credenciales.find? id from h1]

/-- Saving aggregates that look the same keeps the views the same. -/
theorem SameView.save (h : SameView n t t') (hc : Continues t c) (hc' : Continues t' c')
    (he : c.seen (t.history c.id) = c'.seen (t'.history c'.id)) :
    SameView n (t.write (.save c)) (t'.write (.save c')) := by
  have hid : c.id = c'.id := (seen_eqs he).1
  intro id
  by_cases hk : c.id = id
  · subst hk
    rw [view_save hc, seen_refreshExpiry he n, hid, view_save hc']
  · rw [view_save_other hk, view_save_other (hid ▸ hk)]
    exact h id

/-- **Whether it had been expired before makes no difference**: saving what lazy expiry at `n` makes
of a credential leaves the views from then on. -/
theorem view_save_expired (hnm : n ≤ m) (hg : t.getForUpdate id = some c) (hc : Continues t c) :
    SameView m (t.write (.save (c.refreshExpiry n).2)) t := by
  obtain ⟨-, -, hid⟩ := getForUpdate_eq_some hg
  intro k
  by_cases hk : c.id = k
  · have hk' : (c.refreshExpiry n).2.id = k := by rw [refreshExpiry_id]; exact hk
    subst hk
    rw [← hk', view_save (hc.refreshExpiry n), hk', seen_refreshExpiry_refreshExpiry hnm c]
    unfold CredentialTables.view
    rw [hid, hg]
    rfl
  · exact view_save_other (by rw [refreshExpiry_id]; exact hk)

/-- Inserting the same new credential keeps the views the same. -/
theorem SameView.add (h : SameView n t t') (hnew : t.row? c.id = none)
    (hnew' : t'.row? c.id = none) (hh : t.history c.id = []) (hh' : t'.history c.id = []) :
    SameView n (t.write (.add c)) (t'.write (.add c)) := by
  have hrow : ∀ (u : CredentialTables) (k : UUID), u.row? c.id = none →
      (u.write (.add c)).getForUpdate k =
        if c.id = k then some c.flushed else u.getForUpdate k := by
    intro u k hu
    have hadd := row?_add hu k
    unfold getForUpdate
    rw [show (u.write (.add c)).credenciales.find? k = _ from hadd]
    split <;> rfl
  intro k
  unfold CredentialTables.view
  rw [hrow t k hnew, hrow t' k hnew', history_write, history_write, Write.credencial]
  split
  · next hk => rw [← hk, hh, hh']
  · rw [List.append_nil, List.append_nil]
    exact h k

end CredentialTables

end Aeropass
