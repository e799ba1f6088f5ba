import Aeropass.Credentials.Store

/-!
# What repository calls do to the tables

`TablesOK` couples every row with its history, `Continues` an aggregate in memory with its row: the
transitions it has not written yet continue the stored history. `saves_spec` is what a unit of work
that saves such aggregates does, and `Evolves` what every unit of work guarantees: rows and history
entries stay, and a final state is kept.
-/

namespace Aeropass

open CredencialAcceso

/-- The aggregate of a repository call. -/
def Write.credencial : Write → CredencialAcceso
  | .add c | .save c => c

namespace CredentialTables

variable {t t' t'' : CredentialTables} {c : CredencialAcceso} {r r' : CredencialAccesoRow}
  {id : UUID}

/-- The row of a credential. -/
def row? (t : CredentialTables) (id : UUID) : Option CredencialAccesoRow := t.credenciales.find? id

theorem row?_id (h : t.row? id = some r) : r.id = id := Rows.find?_key h

theorem mem_rows : r ∈ t.credenciales.rows ↔ t.row? r.id = some r := by
  simp [row?, Rows.find?_eq_some]

@[simp] theorem row?_empty : empty.row? id = none := rfl

@[simp] theorem history_empty : empty.history id = [] := rfl

/-! ## Reads -/

/-- `get_for_update` finds the row, with nothing to write. -/
theorem getForUpdate_eq_some (h : t.getForUpdate id = some c) :
    t.row? id = some c.toCredencialAccesoRow ∧ c.pendingTransitions = [] ∧ c.id = id := by
  obtain ⟨r, hr, rfl⟩ := Option.map_eq_some_iff.1 h
  exact ⟨hr, rfl, row?_id hr⟩

theorem getForUpdate_eq_none : t.getForUpdate id = none ↔ t.row? id = none :=
  Option.map_eq_none_iff

/-- `get_live_for_update` finds a live row of the key. -/
theorem getLiveForUpdate_eq_some {p : UUID} {codigo : String}
    (h : t.getLiveForUpdate p codigo = some c) :
    t.row? c.id = some c.toCredencialAccesoRow ∧ c.pendingTransitions = [] ∧
      c.pasajeroId = p ∧ c.codigoVuelo = codigo ∧ c.estado.live = true := by
  obtain ⟨r, hr, rfl⟩ := Option.map_eq_some_iff.1 h
  have hp := List.find?_some hr
  simp only [Bool.and_eq_true, decide_eq_true_eq] at hp
  exact ⟨mem_rows.1 (List.mem_of_find?_eq_some hr), rfl, hp.1.1, hp.1.2, hp.2⟩

/-- `get_live_for_update` finds nothing only if no row of the key is live. -/
theorem getLiveForUpdate_eq_none {p : UUID} {codigo : String}
    (h : t.getLiveForUpdate p codigo = none) (hr : t.row? id = some r) (hp : r.pasajeroId = p)
    (hc : r.codigoVuelo = codigo) : r.estado.live = false := by
  have := List.find?_eq_none.1 (Option.map_eq_none_iff.1 h) r
    (mem_rows.2 (by rw [row?_id hr]; exact hr))
  simpa [hp, hc] using this

/-- `expired_live_for_update` returns past-due live rows that nobody holds, each once. -/
theorem expiredLiveForUpdate_spec (t : CredentialTables) (now : Instant) (limit : Nat)
    (skip : UUID → Bool) :
    (∀ c ∈ t.expiredLiveForUpdate now limit skip,
      t.row? c.id = some c.toCredencialAccesoRow ∧ c.pendingTransitions = [] ∧
        c.estado.live = true ∧ c.expiraAt ≤ now ∧ skip c.id = false) ∧
    ((t.expiredLiveForUpdate now limit skip).map (·.id)).Nodup := by
  unfold expiredLiveForUpdate
  constructor
  · intro c hc
    obtain ⟨r, hr, rfl⟩ := List.mem_map.1 hc
    have hr := (List.mem_insertionSort _).1 (List.mem_of_mem_take hr)
    simp only [List.mem_filter, Bool.and_eq_true, decide_eq_true_eq, Bool.not_eq_true'] at hr
    exact ⟨mem_rows.1 hr.1, rfl, hr.2.1.1, hr.2.1.2, hr.2.2⟩
  · rw [List.map_map]
    refine List.Sublist.nodup ((List.take_sublist _ _).map _) ?_
    refine ((List.perm_insertionSort _ _).map _).nodup_iff.2 ?_
    exact List.Sublist.nodup (List.Sublist.map _ List.filter_sublist) t.credenciales.nodup

/-! ## Writes -/

theorem transiciones_write (t : CredentialTables) (w : Write) :
    (t.write w).transiciones = t.transiciones ++
      w.credencial.pendingTransitions.map fun p => { p with credencialId := w.credencial.id } := by
  cases w <;> rfl

/-- The rows of `transiciones_credencial` that repository calls append. -/
def newRows (ws : List Write) : List TransicionCredencialRow :=
  ws.flatMap fun w => w.credencial.pendingTransitions.map fun p =>
    { p with credencialId := w.credencial.id }

/-- Writes add their transitions behind. -/
theorem transiciones_applyAll (t : CredentialTables) (ws : List Write) :
    (t.applyAll ws).transiciones = t.transiciones ++ newRows ws := by
  induction ws generalizing t with
  | nil => simp [applyAll, newRows]
  | cons w ws ih =>
    have : (t.applyAll (w :: ws)).transiciones = ((t.write w).applyAll ws).transiciones := rfl
    rw [this, ih, transiciones_write, List.append_assoc]
    rfl

/-- A repository call appends the buffered transitions to the history of its credential. -/
theorem history_write (t : CredentialTables) (w : Write) (id : UUID) :
    (t.write w).history id =
      t.history id ++ if w.credencial.id = id then w.credencial.pendingTransitions else [] := by
  unfold history
  rw [transiciones_write, List.filter_append, List.map_append]
  congr 1
  rw [List.filter_map, List.map_map]
  split
  · next h =>
    have : ((fun r : TransicionCredencialRow => decide (r.credencialId = id)) ∘ fun p =>
        { p with credencialId := w.credencial.id }) = fun _ : Transicion => true := by
      funext p; simp [h]
    rw [this, List.filter_true]
    exact List.map_id _
  · next h =>
    have : ((fun r : TransicionCredencialRow => decide (r.credencialId = id)) ∘ fun p =>
        { p with credencialId := w.credencial.id }) = fun _ : Transicion => false := by
      funext p; simp [h]
    rw [this, List.filter_false]
    rfl

theorem row?_save (t : CredentialTables) (c : CredencialAcceso) (id : UUID) :
    (t.write (.save c)).row? id =
      if c.id = id then (t.row? id).map (saveRow c) else t.row? id :=
  Rows.find?_modify t.credenciales c.id id (saveRow c) fun _ => rfl

/-- Saving a credential leaves all others. -/
theorem save_other (t : CredentialTables) (hne : c.id ≠ id) :
    (t.write (.save c)).row? id = t.row? id ∧
      (t.write (.save c)).history id = t.history id := by
  rw [row?_save, if_neg hne, history_write, Write.credencial, if_neg hne, List.append_nil]
  exact ⟨rfl, rfl⟩

theorem row?_add (h : t.row? c.id = none) (id : UUID) :
    (t.write (.add c)).row? id =
      if c.id = id then some c.toCredencialAccesoRow else t.row? id := by
  obtain ⟨t', ht', -⟩ := Rows.insert?_of_free (show t.credenciales.find? c.id = none from h)
  have := Rows.find?_insert? ht' id
  simpa [row?, write, flushTransitions, ht'] using this

/-! ## Rows and their histories -/

/-- Every row has a true history, and only rows have one. -/
structure TablesOK (t : CredentialTables) : Prop where
  history : ∀ {id r}, t.row? id = some r → HistoryOK r.expiraAt r.estado (t.history id)
  orphan : ∀ {id}, t.row? id = none → t.history id = []

/-- An aggregate in memory is its row with more transitions, which continue the stored history. -/
structure Continues (t : CredentialTables) (c : CredencialAcceso) : Prop where
  row : ∃ r, t.row? c.id = some r ∧ SameIssue r c.toCredencialAccesoRow
  history : HistoryOK c.expiraAt c.estado (t.history c.id ++ c.pendingTransitions)

/-- What a unit of work guarantees: rows stay, of the same issue, final states are kept, and the
history grows at its end. -/
structure Evolves (t t' : CredentialTables) : Prop where
  row : ∀ {id r}, t.row? id = some r →
    ∃ r', t'.row? id = some r' ∧ SameIssue r r' ∧ (r.estado.live = false → r'.estado = r.estado)
  log : t.transiciones <+: t'.transiciones

theorem TablesOK.empty : TablesOK .empty where
  history h := by cases h
  orphan _ := rfl

theorem Evolves.refl (t : CredentialTables) : Evolves t t where
  row h := ⟨_, h, .refl _, fun _ => rfl⟩
  log := List.prefix_rfl

theorem Evolves.trans (h : Evolves t t') (h' : Evolves t' t'') : Evolves t t'' where
  row hr := by
    obtain ⟨r', hr', hs, hf⟩ := h.row hr
    obtain ⟨r'', hr'', hs', hf'⟩ := h'.row hr'
    exact ⟨r'', hr'', hs.trans hs', fun hd => by rw [hf' (by rw [hf hd]; exact hd), hf hd]⟩
  log := h.log.trans h'.log

/-- A row that was read is continued by its aggregate. -/
theorem Continues.of_row (ht : TablesOK t) (h : t.row? c.id = some c.toCredencialAccesoRow)
    (hp : c.pendingTransitions = []) : Continues t c where
  row := ⟨_, h, .refl _⟩
  history := by rw [hp, List.append_nil]; exact ht.history h

/-- A transition continues what its aggregate continued. -/
theorem Continues.transition {target : EstadoCredencial} {motivo actor : String} {ahora : Instant}
    (h : Continues t c)
    (hcons : target = .consumida → (stateFor c.estado).canTransitionTo target = true →
      ahora < c.expiraAt)
    (hexp : target = .expirada → (stateFor c.estado).canTransitionTo target = true →
      c.expiraAt ≤ ahora) :
    Continues t (c.transition target motivo actor ahora).2 where
  row := by
    obtain ⟨r, hr, hs⟩ := h.row
    exact ⟨r, hr, hs.trans sameIssue_transition⟩
  history := h.history.transition hcons hexp

/-- Lazy expiry continues what its aggregate continued. -/
theorem Continues.refreshExpiry (h : Continues t c) (now : Instant) :
    Continues t (c.refreshExpiry now).2 := by
  rcases refreshExpiry_cases c now with ⟨-, he, hr, -⟩ | ⟨-, hr⟩
  · rw [hr]
    exact h.transition (fun h => by cases h) (fun _ _ => he)
  · rwa [hr]

/-- Revocation continues what its aggregate continued. -/
theorem Continues.revocar (h : Continues t c) (motivo : String) (ahora : Instant) :
    Continues t (c.revocar motivo ahora).2 :=
  h.transition (fun h => by cases h) (fun h => by cases h)

/-- Expiry at or after `expira_at` continues what its aggregate continued. -/
theorem Continues.expirar (h : Continues t c) {ahora : Instant} (he : c.expiraAt ≤ ahora) :
    Continues t (c.expirar ahora).2 :=
  h.transition (fun h => by cases h) (fun _ _ => he)

/-- Consumption after a lazy expiry at the same instant continues what the aggregate continued. -/
theorem Continues.consumir (h : Continues t c) (now : Instant) (actor : String) :
    Continues t ((c.refreshExpiry now).2.consumir now actor).2 := by
  refine (h.refreshExpiry now).transition (fun _ ha => ?_) (fun h => by cases h)
  rcases refreshExpiry_cases c now with ⟨-, -, hr, he⟩ | ⟨hlive, hr⟩
  · rw [hr] at ha
    simp only [he] at ha
    cases ha
  · rw [hr] at ha ⊢
    refine hlive ?_
    revert ha
    cases c.estado <;> decide

/-- A final state is the state of every aggregate that continues the row. -/
theorem Continues.final (ht : TablesOK t) (h : Continues t c) (hr : t.row? c.id = some r)
    (hf : r.estado.live = false) : c.estado = r.estado := by
  have hfin := h.history.faithful.rejected_after (ht.history hr).replay
    fun u => canTransitionTo_of_not_live hf
  have := h.history.replay
  rw [hfin.2] at this
  exact (Option.some.inj this).symm

/-- The row after an aggregate that continues it was saved is the aggregate's. -/
theorem Continues.row?_save (h : Continues t c) :
    (t.write (.save c)).row? c.id = some c.toCredencialAccesoRow := by
  obtain ⟨r, hr, hs⟩ := h.row
  rw [CredentialTables.row?_save, if_pos rfl, hr]
  exact congrArg some hs

/-- A unit of work that touches another credential leaves what an aggregate continues. -/
theorem Continues.congr (h : Continues t c) (hrow : t'.row? c.id = t.row? c.id)
    (hhist : t'.history c.id = t.history c.id) : Continues t' c where
  row := by rw [hrow]; exact h.row
  history := by rw [hhist]; exact h.history

/-! ## Units of work -/

/-- Saving an aggregate that continues its row. -/
theorem save_spec (ht : TablesOK t) (h : Continues t c) :
    TablesOK (t.write (.save c)) ∧ Evolves t (t.write (.save c)) := by
  have hhist : (t.write (.save c)).history c.id = t.history c.id ++ c.pendingTransitions := by
    rw [history_write, Write.credencial, if_pos rfl]
  refine ⟨⟨fun {id r} hr => ?_, fun {id} hr => ?_⟩, ⟨fun {id r} hr => ?_, ?_⟩⟩
  · by_cases hid : c.id = id
    · subst hid
      rw [h.row?_save, Option.some.injEq] at hr
      rw [hhist, ← hr]
      exact h.history
    · rw [(save_other t hid).1] at hr
      rw [(save_other t hid).2]
      exact ht.history hr
  · by_cases hid : c.id = id
    · subst hid
      rw [h.row?_save] at hr
      cases hr
    · rw [(save_other t hid).1] at hr
      rw [(save_other t hid).2]
      exact ht.orphan hr
  · by_cases hid : c.id = id
    · subst hid
      obtain ⟨r', hr', hs⟩ := h.row
      rw [hr] at hr'
      cases hr'
      exact ⟨_, h.row?_save, hs, h.final ht hr⟩
    · rw [(save_other t hid).1]
      exact ⟨r, hr, .refl _, fun _ => rfl⟩
  · rw [transiciones_write]
    exact List.prefix_append _ _

/-- Inserting a new credential with its first transitions. -/
theorem add_spec (ht : TablesOK t) (hnew : t.row? c.id = none)
    (hh : HistoryOK c.expiraAt c.estado c.pendingTransitions) :
    TablesOK (t.write (.add c)) ∧ Evolves t (t.write (.add c)) := by
  have hhist : ∀ id, (t.write (.add c)).history id =
      t.history id ++ if c.id = id then c.pendingTransitions else [] := history_write t (.add c)
  refine ⟨⟨fun {id r} hr => ?_, fun {id} hr => ?_⟩, ⟨fun {id r} hr => ?_, ?_⟩⟩
  · rw [row?_add hnew] at hr
    rw [hhist]
    split at hr
    · next hid =>
      subst hid
      cases hr
      rw [if_pos rfl, ht.orphan hnew]
      exact hh
    · next hid =>
      rw [if_neg hid, List.append_nil]
      exact ht.history hr
  · rw [row?_add hnew] at hr
    split at hr
    · cases hr
    · next hid => rw [hhist, if_neg hid, List.append_nil]; exact ht.orphan hr
  · have hid : c.id ≠ id := by rintro rfl; rw [hnew] at hr; cases hr
    rw [row?_add hnew, if_neg hid]
    exact ⟨r, hr, .refl _, fun _ => rfl⟩
  · rw [transiciones_write]
    exact List.prefix_append _ _

/-- What a unit of work does that saves aggregates of different credentials, each continuing its
row: their rows and histories are the aggregates', all others stay. -/
structure Saved (t t' : CredentialTables) (cs : List CredencialAcceso) : Prop where
  ok : TablesOK t'
  evolves : Evolves t t'
  row : ∀ c ∈ cs, t'.row? c.id = some c.toCredencialAccesoRow
  history : ∀ c ∈ cs, t'.history c.id = t.history c.id ++ c.pendingTransitions
  other : ∀ id, (∀ c ∈ cs, c.id ≠ id) → t'.row? id = t.row? id ∧ t'.history id = t.history id

/-- **Units of work of saves.** -/
theorem saves_spec (ht : TablesOK t) {cs : List CredencialAcceso}
    (hnd : (cs.map fun c => c.id).Nodup) (hcs : ∀ c ∈ cs, Continues t c) :
    Saved t (t.applyAll (cs.map .save)) cs := by
  induction cs generalizing t with
  | nil => exact ⟨ht, .refl t, by simp, by simp, fun _ _ => ⟨rfl, rfl⟩⟩
  | cons c cs ih =>
    simp only [List.map_cons, List.nodup_cons, List.mem_map, not_exists, not_and] at hnd
    have hc := hcs c (by simp)
    obtain ⟨ht', hev⟩ := save_spec ht hc
    have hne : ∀ d ∈ cs, c.id ≠ d.id := fun d hd he => hnd.1 d hd he.symm
    have hs := ih ht' hnd.2 fun d hd => (hcs d (by simp [hd])).congr (save_other t (hne d hd)).1
      (save_other t (hne d hd)).2
    have hkeep := hs.other c.id fun d hd he => hne d hd he.symm
    rw [List.map_cons]
    refine ⟨hs.ok, hev.trans hs.evolves, fun d hd => ?_, fun d hd => ?_, fun id hid => ?_⟩
    · rcases List.mem_cons.1 hd with rfl | hd
      · exact hkeep.1.trans hc.row?_save
      · exact hs.row d hd
    · rcases List.mem_cons.1 hd with rfl | hd
      · refine hkeep.2.trans ?_
        rw [history_write, Write.credencial, if_pos rfl]
      · exact (hs.history d hd).trans (by rw [(save_other t (hne d hd)).2])
    · have h1 := hs.other id fun d hd => hid d (by simp [hd])
      have h2 := save_other t (hid c (by simp))
      exact ⟨h1.1.trans h2.1, h1.2.trans h2.2⟩

end CredentialTables

end Aeropass
