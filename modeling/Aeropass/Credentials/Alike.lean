import Aeropass.Credentials.AtRest

/-!
# Calls over tables that look the same

Two states are `Alike` when they differ in the credentials that are due only: one of them may have
expired them already. A call that takes a step in the first takes it in the second, and what it
carries stays the same but for the instants of expiries (`callStep_sim`). The call runs alone, so no
row that it needs is locked.
-/

namespace Aeropass

open CredentialTables CredencialAcceso Runs Threads

variable {cfg : PassSettings} {i j : Nat} {w w' : World} {ch : Choice} {id : UUID} {n m : Instant}

/-! ## States and calls -/

/-- States that differ in the credentials that are due, and in the locks. -/
structure Alike (w w' : World) : Prop where
  rest : w' = { w with tables := w'.tables, locks := w'.locks }
  view : SameView w.clock w.tables w'.tables

namespace Alike

theorem symm (h : Alike w w') : Alike w' w where
  rest := by rw [h.rest]
  view := by rw [h.rest]; exact h.view.symm

theorem pasajeros (h : Alike w w') : w'.pasajeros = w.pasajeros := by rw [h.rest]

theorem identidades (h : Alike w w') : w'.identidades = w.identidades := by rw [h.rest]

theorem redis (h : Alike w w') : w'.redis = w.redis := by rw [h.rest]

theorem clock (h : Alike w w') : w'.clock = w.clock := by rw [h.rest]

theorem issuer (h : Alike w w') : w'.issuer = w.issuer := by rw [h.rest]

theorem acquire (h : Alike w w') (i : Nat) (k : Lock) : Alike (w.acquire i k) (w'.acquire i k) where
  rest := by rw [h.rest]; rfl
  view := h.view

theorem acquire_left (h : Alike w w') (i : Nat) (k : Lock) : Alike (w.acquire i k) w' where
  rest := by rw [h.rest]; rfl
  view := h.view

theorem acquire_right (h : Alike w w') (i : Nat) (k : Lock) : Alike w (w'.acquire i k) where
  rest := by rw [h.rest]; rfl
  view := h.view

theorem release (h : Alike w w') (i : Nat) : Alike (w.release i) (w'.release i) where
  rest := by rw [h.rest]; rfl
  view := h.view

theorem commit (h : Alike w w') {ws ws' : List Write}
    (hv : SameView w.clock (w.tables.applyAll ws) (w'.tables.applyAll ws')) (i : Nat) :
    Alike (w.commit i ws) (w'.commit i ws') where
  rest := by rw [h.rest]; rfl
  view := hv

/-- A Redis command answers the same. -/
theorem setRedis (h : Alike w w') (redis : Redis) : Alike { w with redis } { w' with redis } where
  rest := by rw [h.rest]
  view := h.view

theorem setIssuer (h : Alike w w') (issuer : UUID → Option Nat) :
    Alike { w with issuer } { w' with issuer } where
  rest := by rw [h.rest]
  view := h.view

end Alike

/-- The phases of `issue` that carry nothing that was read from the credentials. -/
def IssuePhase.Plain : IssuePhase → Prop
  | .start | .validated _ | .found _ _ | .admitted _ _ | .locked _ _ _ | .committed _ _ | .done _ =>
    True
  | _ => False

/-- What `issue` carries: the same, and its open transaction makes tables that look the same at the
instant it has read. -/
inductive IssuePhase.Alike (w w' : World) : IssuePhase → IssuePhase → Prop
  | plain {ph : IssuePhase} (hp : ph.Plain) : IssuePhase.Alike w w' ph ph
  | dated {tx : IssueTx} (hv : SameView tx.now w.tables w'.tables) :
    IssuePhase.Alike w w' (.dated tx) (.dated tx)
  | renewing {tx : IssueTx} {a : CredencialAcceso} (hv : SameView tx.now w.tables w'.tables)
    (hh : (w.tables.history a.id).map Transicion.undated =
      (w'.tables.history a.id).map Transicion.undated) :
    IssuePhase.Alike w w' (.renewing tx a) (.renewing tx a)
  | ready {tx : IssueTx} {ws : List Write}
    (hv : SameView tx.now (w.tables.applyAll tx.writes) (w'.tables.applyAll ws)) :
    IssuePhase.Alike w w' (.ready tx) (.ready { tx with writes := ws })
  | built {tx : IssueTx} {c : CredencialAcceso} {token : String} {ws : List Write}
    (hv : SameView tx.now (w.tables.applyAll tx.writes) (w'.tables.applyAll ws)) :
    IssuePhase.Alike w w' (.built tx c token) (.built { tx with writes := ws } c token)
  | added {tx : IssueTx} {c : CredencialAcceso} {token : String} {ws : List Write}
    (hv : SameView tx.now (w.tables.applyAll tx.writes) (w'.tables.applyAll ws)) :
    IssuePhase.Alike w w' (.added tx c token) (.added { tx with writes := ws } c token)
  | registered {tx : IssueTx} {c : CredencialAcceso} {token : String} {ws : List Write}
    (hv : SameView tx.now (w.tables.applyAll tx.writes) (w'.tables.applyAll ws)) :
    IssuePhase.Alike w w' (.registered tx c token) (.registered { tx with writes := ws } c token)
  | unregistered {tx : IssueTx} {c : CredencialAcceso} {ws : List Write}
    (hv : SameView tx.now (w.tables.applyAll tx.writes) (w'.tables.applyAll ws)) :
    IssuePhase.Alike w w' (.unregistered tx c) (.unregistered { tx with writes := ws } c)

/-- What `consume` carries: an instant at which the tables look the same. -/
inductive ConsumePhase.Alike (w w' : World) : ConsumePhase → ConsumePhase → Prop
  | start : ConsumePhase.Alike w w' .start .start
  | read {now : Instant} (hv : SameView now w.tables w'.tables) :
    ConsumePhase.Alike w w' (.read now) (.read now)
  | marking : ConsumePhase.Alike w w' .marking .marking
  | done (r : Except Failure ConsumeResult) : ConsumePhase.Alike w w' (.done r) (.done r)

/-- What `revoke_by_id` carries: what it has read, or aggregates that look the same. -/
inductive RevokePhase.Alike (w w' : World) (jti : UUID) : RevokePhase → RevokePhase → Prop
  | start : RevokePhase.Alike w w' jti .start .start
  | locked {c c' : CredencialAcceso} (hc : w.tables.getForUpdate jti = some c)
    (hc' : w'.tables.getForUpdate jti = some c') :
    RevokePhase.Alike w w' jti (.locked c) (.locked c')
  | refreshed {c c' : CredencialAcceso}
    (hs : c.seen (w.tables.history jti) = c'.seen (w'.tables.history jti)) :
    RevokePhase.Alike w w' jti (.refreshed c) (.refreshed c')
  | revoked {c c' : CredencialAcceso} (res : TransitionResult)
    (hs : c.seen (w.tables.history jti) = c'.seen (w'.tables.history jti)) :
    RevokePhase.Alike w w' jti (.revoked c res) (.revoked c' res)
  | forgetting (res : TransitionResult) :
    RevokePhase.Alike w w' jti (.forgetting res) (.forgetting res)
  | done (q : Except Failure TransitionResult) : RevokePhase.Alike w w' jti (.done q) (.done q)

/-- What `detail_for_owner` returns, without the instants of expiries. -/
def undatedDetail (r : Except Failure (CredencialAcceso × List Transicion)) :
    Except Failure (CredencialAccesoRow × List Transicion) :=
  r.map fun x => (x.1.toCredencialAccesoRow.undated, x.2.map Transicion.undated)

/-- What `detail_for_owner` carries: what it has read, or aggregates that look the same with the
histories that the transaction reads. -/
inductive DetailPhase.Alike (w w' : World) (jti : UUID) : DetailPhase → DetailPhase → Prop
  | start : DetailPhase.Alike w w' jti .start .start
  | locked {c c' : CredencialAcceso} (hc : w.tables.getForUpdate jti = some c)
    (hc' : w'.tables.getForUpdate jti = some c') :
    DetailPhase.Alike w w' jti (.locked c) (.locked c')
  | refreshed {now : Instant} {c c' : CredencialAcceso} {ws ws' : List Write}
    (hn : now ≤ w.clock) (hv : SameView now (w.tables.applyAll ws) (w'.tables.applyAll ws'))
    (hr : c.toCredencialAccesoRow.undated = c'.toCredencialAccesoRow.undated)
    (hh : ((w.tables.applyAll ws).history jti).map Transicion.undated =
      ((w'.tables.applyAll ws').history jti).map Transicion.undated) :
    DetailPhase.Alike w w' jti (.refreshed now c ws) (.refreshed now c' ws')
  | done {now : Instant} {r r' : Except Failure (CredencialAcceso × List Transicion)}
    (hr : undatedDetail r = undatedDetail r') :
    DetailPhase.Alike w w' jti (.done now r) (.done now r')

/-- What a sweep carries. How many it has expired is its own. -/
inductive SweepPhase.Alike (w : World) : SweepPhase → SweepPhase → Prop
  | start : SweepPhase.Alike w .start .start
  | read {now : Instant} (hn : now ≤ w.clock) : SweepPhase.Alike w (.read now) (.read now)
  | done (r r' : Except Failure Nat) : SweepPhase.Alike w (.done r) (.done r')

/-- What a call carries. -/
inductive Call.Alike (w w' : World) : Call → Call → Prop
  | idle : Call.Alike w w' .idle .idle
  | issue {user codigoVuelo : String} {ph ph' : IssuePhase} (h : ph.Alike w w' ph') :
    Call.Alike w w' (.issue user codigoVuelo ph) (.issue user codigoVuelo ph')
  | consume {jti : UUID} {actor : String} {ph ph' : ConsumePhase} (h : ph.Alike w w' ph') :
    Call.Alike w w' (.consume jti actor ph) (.consume jti actor ph')
  | revokeById {jti : UUID} {motivo : String} {ph ph' : RevokePhase} (h : ph.Alike w w' jti ph') :
    Call.Alike w w' (.revokeById jti motivo ph) (.revokeById jti motivo ph')
  | detail {jti pasajeroId : UUID} {ph ph' : DetailPhase} (h : ph.Alike w w' jti ph') :
    Call.Alike w w' (.detail jti pasajeroId ph) (.detail jti pasajeroId ph')
  | sweep {limit : Nat} {ph ph' : SweepPhase} (h : ph.Alike w ph') :
    Call.Alike w w' (.sweep limit ph) (.sweep limit ph')
  | mayBeUsable (jti : UUID) (ans : Option (Option Bool)) :
    Call.Alike w w' (.mayBeUsable jti ans) (.mayBeUsable jti ans)

/-- The results of two calls, up to the instants of expiries; how many credentials a sweep has
expired does not count. -/
def Call.SameAnswer : Call → Call → Prop
  | .detail jti pasajeroId (.done now r), .detail jti' pasajeroId' (.done now' r') =>
    jti = jti' ∧ pasajeroId = pasajeroId' ∧ now = now' ∧ undatedDetail r = undatedDetail r'
  | .sweep limit (.done _), .sweep limit' (.done _) => limit = limit'
  | l, l' => l = l'

/-- Calls that carry the same answer the same. -/
theorem Call.Alike.sameAnswer {l l' : Call} (h : l.Alike w w' l') (hrest : l.AtRest) :
    l.SameAnswer l' := by
  cases h with
  | idle => rfl
  | issue h =>
    cases h with
    | plain hp => rfl
    | dated | renewing | ready | built | added | registered | unregistered => exact hrest.elim
  | consume h =>
    cases h with
    | start | read | marking => exact hrest.elim
    | done r => rfl
  | revokeById h =>
    cases h with
    | start | locked | refreshed | revoked | forgetting => exact hrest.elim
    | done q => rfl
  | detail h =>
    cases h with
    | start | locked | refreshed => exact hrest.elim
    | done hr => exact ⟨rfl, rfl, rfl, hr⟩
  | sweep h =>
    cases h with
    | start | read => exact hrest.elim
    | done r r' => rfl
  | mayBeUsable jti ans => rfl

/-- What a call at rest carries does not depend on the states. -/
theorem Call.Alike.of_rest {w₁ w₁' : World} {l l' : Call} (h : l.Alike w w' l')
    (hrest : l.AtRest) : l.Alike w₁ w₁' l' ∧ l'.AtRest := by
  cases h with
  | idle => exact ⟨.idle, trivial⟩
  | issue h =>
    cases h with
    | plain hp => exact ⟨.issue (.plain hp), hrest⟩
    | dated | renewing | ready | built | added | registered | unregistered => exact hrest.elim
  | consume h =>
    cases h with
    | start | read | marking => exact hrest.elim
    | done r => exact ⟨.consume (.done r), trivial⟩
  | revokeById h =>
    cases h with
    | start | locked | refreshed | revoked | forgetting => exact hrest.elim
    | done q => exact ⟨.revokeById (.done q), trivial⟩
  | detail h =>
    cases h with
    | start | locked | refreshed => exact hrest.elim
    | done hr => exact ⟨.detail (.done hr), trivial⟩
  | sweep h =>
    cases h with
    | start | read => exact hrest.elim
    | done r r' => exact ⟨.sweep (.done r r'), trivial⟩
  | mayBeUsable jti ans => exact ⟨.mayBeUsable jti ans, hrest⟩

/-- A call is at rest when the call it is alike to is. -/
theorem Call.Alike.atRest {l l' : Call} (h : l.Alike w w' l') (hrest : l.AtRest) : l'.AtRest :=
  (of_rest h hrest : l.Alike w w' l' ∧ _).2

/-- Time, and what other services commit, leaves what calls carry. -/
theorem Call.Alike.stable {w₁ w₁' : World} (ht : w₁.tables = w.tables)
    (ht' : w₁'.tables = w'.tables) (hc : w.clock ≤ w₁.clock) {l l' : Call}
    (h : l.Alike w w' l') : l.Alike w₁ w₁' l' := by
  cases h with
  | idle => exact .idle
  | issue h =>
    refine .issue ?_
    cases h with
    | plain hp => exact .plain hp
    | dated hv => exact .dated (by rw [ht, ht']; exact hv)
    | renewing hv hh => exact .renewing (by rw [ht, ht']; exact hv) (by rw [ht, ht']; exact hh)
    | ready hv => exact .ready (by rw [ht, ht']; exact hv)
    | built hv => exact .built (by rw [ht, ht']; exact hv)
    | added hv => exact .added (by rw [ht, ht']; exact hv)
    | registered hv => exact .registered (by rw [ht, ht']; exact hv)
    | unregistered hv => exact .unregistered (by rw [ht, ht']; exact hv)
  | consume h =>
    refine .consume ?_
    cases h with
    | start => exact .start
    | read hv => exact .read (by rw [ht, ht']; exact hv)
    | marking => exact .marking
    | done r => exact .done r
  | revokeById h =>
    refine .revokeById ?_
    cases h with
    | start => exact .start
    | locked h1 h2 => exact .locked (by rw [ht]; exact h1) (by rw [ht']; exact h2)
    | refreshed hs => exact .refreshed (by rw [ht, ht']; exact hs)
    | revoked res hs => exact .revoked res (by rw [ht, ht']; exact hs)
    | forgetting res => exact .forgetting res
    | done q => exact .done q
  | detail h =>
    refine .detail ?_
    cases h with
    | start => exact .start
    | locked h1 h2 => exact .locked (by rw [ht]; exact h1) (by rw [ht']; exact h2)
    | refreshed hn hv hr hh =>
      exact .refreshed (Int.le_trans hn hc) (by rw [ht, ht']; exact hv) hr
        (by rw [ht, ht']; exact hh)
    | done hr => exact .done hr
  | sweep h =>
    refine .sweep ?_
    cases h with
    | start => exact .start
    | read hn => exact .read (Int.le_trans hn hc)
    | done r r' => exact .done r r'
  | mayBeUsable jti ans => exact .mayBeUsable jti ans

/-- That two calls are alike is symmetric. -/
theorem Call.Alike.symm {l l' : Call} (hc : w.clock = w'.clock) (h : l.Alike w w' l') :
    l'.Alike w' w l := by
  cases h with
  | idle => exact .idle
  | issue h =>
    refine .issue ?_
    cases h with
    | plain hp => exact .plain hp
    | dated hv => exact .dated hv.symm
    | renewing hv hh => exact .renewing hv.symm hh.symm
    | @ready tx ws hv =>
      exact @IssuePhase.Alike.ready w' w { tx with writes := ws } tx.writes hv.symm
    | @built tx c token ws hv =>
      exact @IssuePhase.Alike.built w' w { tx with writes := ws } c token tx.writes hv.symm
    | @added tx c token ws hv =>
      exact @IssuePhase.Alike.added w' w { tx with writes := ws } c token tx.writes hv.symm
    | @registered tx c token ws hv =>
      exact @IssuePhase.Alike.registered w' w { tx with writes := ws } c token tx.writes hv.symm
    | @unregistered tx c ws hv =>
      exact @IssuePhase.Alike.unregistered w' w { tx with writes := ws } c tx.writes hv.symm
  | consume h =>
    refine .consume ?_
    cases h with
    | start => exact .start
    | read hv => exact .read hv.symm
    | marking => exact .marking
    | done r => exact .done r
  | revokeById h =>
    refine .revokeById ?_
    cases h with
    | start => exact .start
    | locked h1 h2 => exact .locked h2 h1
    | refreshed hs => exact .refreshed hs.symm
    | revoked res hs => exact .revoked res hs.symm
    | forgetting res => exact .forgetting res
    | done q => exact .done q
  | detail h =>
    refine .detail ?_
    cases h with
    | start => exact .start
    | locked h1 h2 => exact .locked h2 h1
    | refreshed hn hv hr hh => exact .refreshed (hc ▸ hn) hv.symm hr.symm hh.symm
    | done hr => exact .done hr.symm
  | sweep h =>
    refine .sweep ?_
    cases h with
    | start => exact .start
    | read hn => exact .read (hc ▸ hn)
    | done r r' => exact .done r' r
  | mayBeUsable jti ans => exact .mayBeUsable jti ans

end Aeropass
