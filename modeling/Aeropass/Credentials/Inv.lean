import Aeropass.Credentials.System
import Aeropass.Credentials.Tables

/-!
# The invariant of the credential services

`WorldOK` is what holds of the shared state: every row has its history, none is EMITIDA, at most
one is live for each passenger and flight, and the Redis key of an ACTIVA credential says ACTIVA
until its expiry at least. `Call.OK` is what a call knows about the shared state where it stands,
from the locks it holds, and `Guar` what one step of a call leaves to the others. The three meet in
`Call.OK.stable`: whatever another call guarantees keeps what a call knows.
-/

namespace Aeropass

open CredentialTables CredencialAcceso

/-! ## The shared state -/

/-- The invariant of the shared state. -/
structure WorldOK (w : World) : Prop where
  tables : TablesOK w.tables
  noEmitida : ∀ {id r}, w.tables.row? id = some r → r.estado ≠ .emitida
  unaViva : ∀ {id id' r r'}, w.tables.row? id = some r → w.tables.row? id' = some r' →
    r.estado.live = true → r'.estado.live = true → r.pasajeroId = r'.pasajeroId →
    r.codigoVuelo = r'.codigoVuelo → id = id'
  codigo : ∀ {id r}, w.tables.row? id = some r → matchCodigoVuelo r.codigoVuelo.toList = true
  issued : ∀ {id r}, w.tables.row? id = some r → w.issuer id ≠ none
  token : ∀ {id r}, w.tables.row? id = some r → r.estado = .activa →
    ∃ e, w.redis id = some e ∧ e.valor = .activa ∧ r.expiraAt ≤ e.expira

/-- What call `j` relies on of the tables, the locks and the ids: time does not go back, rows and
histories evolve, the rows it holds stay as they are, no credential of a passenger it holds becomes
live, and the ids drawn for it stay its own. -/
structure Keeps (j : Nat) (w w' : World) : Prop where
  clock : w.clock ≤ w'.clock
  evolves : Evolves w.tables w'.tables
  locks : ∀ l, w.locks l = some j → w'.locks l = some j
  held : ∀ {id r}, w.locks (.credencial id) = some j → w.tables.row? id = some r →
    w'.tables.row? id = some r ∧ w'.tables.history id = w.tables.history id
  live : ∀ {id r'}, w'.tables.row? id = some r' → r'.estado.live = true →
    w.locks (.pasajero r'.pasajeroId) = some j →
    ∃ r, w.tables.row? id = some r ∧ r.estado.live = true ∧ SameIssue r r'
  issuer : ∀ id, w.issuer id ≠ none → w'.issuer id = w.issuer id
  fresh : ∀ {id}, w.issuer id = some j → w.tables.row? id = none → w'.tables.row? id = none

/-- What call `j` relies on: also the Redis keys of the ids drawn for it are left alone. -/
structure Rely (j : Nat) (w w' : World) : Prop extends Keeps j w w' where
  redis : ∀ {id}, w.issuer id = some j → w.tables.row? id = none → w'.redis id = w.redis id

/-- What a step of call `i` guarantees to the other calls. -/
def Guar (i : Nat) (w w' : World) : Prop := ∀ j, j ≠ i → Rely j w w'

/-! ## What calls know -/

section
variable (cfg : PassSettings) (i : Nat) (w : World)

/-- The call holds the row of the aggregate, which continues it and is not being consumed. -/
structure Held (c : CredencialAcceso) : Prop where
  lock : w.locks (.credencial c.id) = some i
  continues : Continues w.tables c
  estado : c.estado ≠ .emitida
  spares : c.Spares .consumida

/-- The transaction of `issue` holds its passenger. -/
structure TxOpen (tx : IssueTx) : Prop where
  lock : w.locks (.pasajero tx.pasajeroId) = some i
  codigo : matchCodigoVuelo tx.codigo.toList = true
  now : tx.now ≤ w.clock

/-- The transaction of `issue` has expired or revoked the live credential of its key, `old`, if
there was one. -/
structure TxReady (tx : IssueTx) (old : Option CredencialAcceso) : Prop extends TxOpen i w tx where
  held : ∀ a ∈ old, Held i w a
  dead : ∀ a ∈ old, a.estado.live = false
  only : ∀ {id r}, w.tables.row? id = some r → r.estado.live = true →
    r.pasajeroId = tx.pasajeroId → r.codigoVuelo = tx.codigo → ∃ a ∈ old, a.id = id
  forget : ∀ jti, tx.forget = some jti → ∃ a ∈ old, a.id = jti ∧ a.estado = .revocada

/-- The credential that the transaction of `issue` has built. -/
structure Built (tx : IssueTx) (c : CredencialAcceso) : Prop where
  issuer : w.issuer c.id = some i
  row : w.tables.row? c.id = none
  estado : c.estado = .emitida
  pasajero : c.pasajeroId = tx.pasajeroId
  codigo : c.codigoVuelo = tx.codigo
  permisos : c.permisos.isEmpty = false
  emitida : c.emitidaAt = tx.now
  expira : c.expiraAt = tx.now + seconds cfg.ttl
  ttl : ttlMinSeconds ≤ cfg.ttl ∧ cfg.ttl ≤ ttlMaxSeconds
  history : HistoryOK c.expiraAt c.estado c.pendingTransitions
  spares : c.Spares .consumida

/-- The row of a credential is in this state. -/
def InState (id : UUID) (e : EstadoCredencial) : Prop :=
  ∃ r, w.tables.row? id = some r ∧ r.estado = e

/-- The writes of `issue` up to the insert. -/
def insertWrites (old : Option CredencialAcceso) (c : CredencialAcceso) : List Write :=
  old.toList.map .save ++ [.add c]

/-- What an `issue` call knows. -/
def IssuePhase.OK : IssuePhase → Prop
  | .start => True
  | .done (.error e) => ∀ k, e ≠ .uniqueViolation k
  | .validated codigo | .found codigo _ | .admitted codigo _ =>
    matchCodigoVuelo codigo.toList = true
  | .locked codigo p _ =>
    matchCodigoVuelo codigo.toList = true ∧ w.locks (.pasajero p.id) = some i
  | .dated tx => TxOpen i w tx ∧ tx.writes = [] ∧ tx.forget = none
  | .renewing tx a => TxOpen i w tx ∧ tx.writes = [] ∧ Held i w a ∧
    a.estado.live = true ∧ a.pasajeroId = tx.pasajeroId ∧ a.codigoVuelo = tx.codigo ∧
    w.tables.row? a.id = some a.toCredencialAccesoRow
  | .ready tx => ∃ old, TxReady i w tx old ∧ tx.writes = old.toList.map .save
  | .built tx c _ =>
    ∃ old, TxReady i w tx old ∧ tx.writes = old.toList.map .save ∧ Built cfg i w tx c
  | .added tx c _ => ∃ old c₀, TxReady i w tx old ∧ Built cfg i w tx c₀ ∧ c = c₀.flushed ∧
    tx.writes = insertWrites old c₀
  | .registered tx c _ => ∃ old c₀, TxReady i w tx old ∧ Built cfg i w tx c₀ ∧
    c = (c₀.flushed.activar tx.now).2.flushed ∧
    tx.writes = insertWrites old c₀ ++ [.save (c₀.flushed.activar tx.now).2] ∧
    ∃ e, w.redis c₀.id = some e ∧ e.valor = .activa ∧ c₀.expiraAt ≤ e.expira
  | .unregistered tx _ => ∃ old c₀, TxReady i w tx old ∧ Built cfg i w tx c₀ ∧
    tx.writes = insertWrites old c₀ ++
      [.save (c₀.flushed.revocar motivoTokenNoRegistrado tx.now).2]
  | .committed jti pass => InState w jti .revocada ∧
    (w.tables.row? pass.credencial.id).isSome ∧ w.issuer pass.credencial.id = some i
  | .done (.ok pass) =>
    (w.tables.row? pass.credencial.id).isSome ∧ w.issuer pass.credencial.id = some i

/-- What a `consume` call knows. -/
def ConsumePhase.OK (jti : UUID) : ConsumePhase → Prop
  | .start | .read _ | .done (.ok _) => True
  | .marking => InState w jti .consumida
  | .done (.error e) => ∃ actor, e = writeError actor

/-- What a `revoke_by_id` call knows. -/
def RevokePhase.OK (jti : UUID) : RevokePhase → Prop
  | .start | .done _ => True
  | .locked c | .refreshed c => Held i w c ∧ c.id = jti
  | .revoked c r => Held i w c ∧ c.id = jti ∧ c.estado.live = false ∧
    (r.aceptada = true → c.estado = .revocada)
  | .forgetting _ => InState w jti .revocada

/-- What a `detail_for_owner` call knows. -/
def DetailPhase.OK (jti : UUID) : DetailPhase → Prop
  | .start | .done _ (.error _) => True
  | .locked c => Held i w c ∧ c.id = jti ∧ c.pendingTransitions = []
  | .refreshed now c writes => Held i w c ∧ c.id = jti ∧
    (c.estado.live = true → now < c.expiraAt) ∧
    (writes = [.save c] ∨ writes = [] ∧ c.pendingTransitions = [])
  | .done now (.ok (c, h)) => historial.replay h = some c.estado ∧ c.estado ≠ .emitida ∧
    (c.estado = .activa → now < c.expiraAt)

/-- What a call knows. -/
def Call.OK : Call → Prop
  | .idle | .sweep _ _ | .mayBeUsable _ _ => True
  | .issue _ _ ph => ph.OK cfg i w
  | .consume jti _ ph => ph.OK w jti
  | .revokeById jti _ ph => ph.OK i w jti
  | .detail jti _ ph => ph.OK i w jti

end

/-! ## Stability -/

section
variable {cfg : PassSettings} {i j : Nat} {w w' : World} {c : CredencialAcceso} {tx : IssueTx}
  {old : Option CredencialAcceso} {id : UUID}

/-- Steps that leave the tables alone keep what a call relies on of them. -/
theorem Keeps.of_tables (hc : w.clock ≤ w'.clock) (ht : w'.tables = w.tables)
    (hl : ∀ l, w.locks l = some j → w'.locks l = some j)
    (hi : ∀ id, w.issuer id ≠ none → w'.issuer id = w.issuer id) : Keeps j w w' where
  clock := hc
  evolves := ht ▸ .refl _
  locks := hl
  held _ hr := by rw [ht]; exact ⟨hr, rfl⟩
  live hr hlive _ := by rw [ht] at hr; exact ⟨_, hr, hlive, .refl _⟩
  issuer := hi
  fresh _ hr := by rw [ht]; exact hr

/-- Steps that leave tables and Redis alone keep what a call relies on. -/
theorem Rely.of_tables (hc : w.clock ≤ w'.clock) (ht : w'.tables = w.tables)
    (hr : w'.redis = w.redis) (hl : ∀ l, w.locks l = some j → w'.locks l = some j)
    (hi : ∀ id, w.issuer id ≠ none → w'.issuer id = w.issuer id) : Rely j w w' where
  toKeeps := .of_tables hc ht hl hi
  redis _ _ := by rw [hr]

/-- Steps that leave tables and Redis alone keep the invariant. -/
theorem WorldOK.of_tables (h : WorldOK w) (ht : w'.tables = w.tables) (hr : w'.redis = w.redis)
    (hi : ∀ id, w.issuer id ≠ none → w'.issuer id = w.issuer id) : WorldOK w' where
  tables := by rw [ht]; exact h.tables
  noEmitida := by rw [ht]; exact h.noEmitida
  unaViva := by rw [ht]; exact h.unaViva
  codigo := by rw [ht]; exact h.codigo
  issued hrow := by rw [ht] at hrow; rw [hi _ (h.issued hrow)]; exact h.issued hrow
  token := by rw [ht, hr]; exact h.token

theorem InState.stable (hk : Keeps j w w') {e : EstadoCredencial} (he : e.live = false)
    (h : InState w id e) : InState w' id e := by
  obtain ⟨r, hr, rfl⟩ := h
  obtain ⟨r', hr', -, hf⟩ := hk.evolves.row hr
  exact ⟨r', hr', hf he⟩

theorem row?_isSome_stable (hk : Keeps j w w') (h : (w.tables.row? id).isSome) :
    (w'.tables.row? id).isSome := by
  obtain ⟨r, hr⟩ := Option.isSome_iff_exists.1 h
  obtain ⟨r', hr', -⟩ := hk.evolves.row hr
  exact Option.isSome_iff_exists.2 ⟨r', hr'⟩

theorem Keeps.issuer_some (hk : Keeps j w w') (h : w.issuer id = some j) :
    w'.issuer id = some j := by
  rw [hk.issuer id (by rw [h]; simp), h]

theorem Held.stable (hk : Keeps j w w') (h : Held j w c) : Held j w' c :=
  { h with
    lock := hk.locks _ h.lock
    continues := by
      obtain ⟨r, hr, hs⟩ := h.continues.row
      obtain ⟨hr', hh⟩ := hk.held h.lock hr
      exact h.continues.congr (hr'.trans hr.symm) hh }

theorem TxOpen.stable (hk : Keeps j w w') (h : TxOpen j w tx) : TxOpen j w' tx where
  lock := hk.locks _ h.lock
  codigo := h.codigo
  now := h.now.trans hk.clock

/-- The passenger lock: no other call makes a credential of the key live. -/
theorem TxReady.stable (hk : Keeps j w w') (h : TxReady j w tx old) : TxReady j w' tx old where
  toTxOpen := h.toTxOpen.stable hk
  held a ha := (h.held a ha).stable hk
  dead := h.dead
  only hr hl hp hcod := by
    obtain ⟨r, hr', hl', hs⟩ := hk.live hr hl (by rw [hp]; exact h.lock)
    obtain ⟨-, e2, e3, -⟩ := hs.eqs
    exact h.only hr' hl' (e2 ▸ hp) (e3 ▸ hcod)
  forget := h.forget

theorem Built.stable (hk : Keeps j w w') (h : Built cfg j w tx c) : Built cfg j w' tx c :=
  { h with
    issuer := hk.issuer_some h.issuer
    row := hk.fresh h.issuer h.row }

/-- What `issue` knows survives the steps of the other calls. -/
theorem IssuePhase.OK.stable (hk : Rely j w w') {ph : IssuePhase} (h : ph.OK cfg j w) :
    ph.OK cfg j w' := by
  have hk' := hk.toKeeps
  cases ph with
  | start | validated | found | admitted => exact h
  | locked => exact ⟨h.1, hk.locks _ h.2⟩
  | dated => exact ⟨h.1.stable hk', h.2⟩
  | renewing tx a =>
    obtain ⟨h1, h2, h3, h4, h5, h6, h7⟩ := h
    exact ⟨h1.stable hk', h2, h3.stable hk', h4, h5, h6, (hk.held h3.lock h7).1⟩
  | ready => exact h.imp fun old h => ⟨h.1.stable hk', h.2⟩
  | built => exact h.imp fun old h => ⟨h.1.stable hk', h.2.1, h.2.2.stable hk'⟩
  | added | unregistered =>
    obtain ⟨old, c₀, h1, h2, h3⟩ := h
    exact ⟨old, c₀, h1.stable hk', h2.stable hk', h3⟩
  | registered =>
    obtain ⟨old, c₀, h1, h2, h3, h4, h5⟩ := h
    refine ⟨old, c₀, h1.stable hk', h2.stable hk', h3, h4, ?_⟩
    rw [hk.redis h2.issuer h2.row]
    exact h5
  | committed => exact ⟨h.1.stable hk' rfl, row?_isSome_stable hk' h.2.1, hk.issuer_some h.2.2⟩
  | done r =>
    cases r with
    | ok => exact ⟨row?_isSome_stable hk' h.1, hk.issuer_some h.2⟩
    | error => exact h

/-- **Stability.** What a call knows survives every step that it can rely on. -/
theorem Call.OK.stable (hk : Rely j w w') {l : Call} (h : l.OK cfg j w) : l.OK cfg j w' := by
  have hk' := hk.toKeeps
  cases l with
  | idle | sweep | mayBeUsable => trivial
  | issue _ _ ph => exact IssuePhase.OK.stable hk h
  | consume jti _ ph =>
    cases ph with
    | start | read => trivial
    | marking => exact InState.stable hk' rfl h
    | done r => cases r <;> exact h
  | revokeById jti _ ph =>
    cases ph with
    | start | done => trivial
    | locked | refreshed | revoked => exact ⟨h.1.stable hk', h.2⟩
    | forgetting => exact InState.stable hk' rfl h
  | detail jti _ ph =>
    cases ph with
    | start => trivial
    | locked | refreshed => exact ⟨h.1.stable hk', h.2⟩
    | done _ r => cases r <;> exact h

end

end Aeropass
