import Aeropass.Credentials.Locks
import Aeropass.System.Projection

/-!
# No deadlock

The verification and the issuance lock passengers, the credential services lock credentials, and
only an issuance holds one lock while it takes another, the passenger's before the credential's. So
from every unfinished call a chain of waits leads to a call that can make a step.
-/

namespace Aeropass

open CredentialTables Runs Threads LockOrder Relation

/-- The row that a call waits for. -/
def Service.waitsOn (w : BackendWorld) : Service → Option Lock
  | .credentials l => l.waitsOn w.credentials
  | .verification l => (l.locksNext.map .pasajero).filter fun k => (w.locks k).isSome
  | .registration _ => none

/-- `_dispatch` has ended. -/
def DispatchPhase.Done : DispatchPhase → Prop
  | .finished _ | .failed => True
  | _ => False

/-- The call has not begun or is over. -/
def Service.AtRest : Service → Prop
  | .registration .idle | .registration (.register _ (.done _)) => True
  | .verification .idle | .verification (.verify _ _ (.done _)) => True
  | .verification (.dispatcher .idle) | .verification (.dispatcher (.reported _)) => True
  | .verification (.dispatcher (.publishNow _ ph)) => ph.Done
  | .verification (.dispatcher (.dispatchDue _ .failed)) => True
  | .credentials l => l.AtRest
  | _ => False

variable {cfg : BackendSettings} {s t : BackendSystem} {w : BackendWorld} {i j : Nat} {k : Lock}

/-! ## Calls that do not wait -/

/-- A registration makes its next step at any time. -/
theorem registrarStep_enabled (w : RegistrationWorld) {l : Registrar}
    (hl : ¬ (Service.registration l).AtRest) : (registrarStep w l (.next {})).isSome := by
  cases l with
  | idle => exact absurd trivial hl
  | register q ph =>
    simp only [registrarStep, Option.isSome_map]
    cases ph with
    | done => exact absurd trivial hl
    | start | readingUser | readingDocument | storing | adding | resolving | withIdentity =>
      simp only [registerStep]
      repeat' split
      all_goals rfl

/-- So does `_dispatch` until it ends. -/
theorem dispatchStep_enabled (w : OutboxWorld) (limit : Nat) (ids : Option (List UUID))
    {ph : DispatchPhase} (hph : ¬ ph.Done) : (dispatchStep w limit ids {} ph).isSome := by
  cases ph with
  | finished | failed => exact absurd trivial hph
  | publishing now claimed n => cases claimed <;> rfl
  | start | claiming | answered | saving =>
    simp only [dispatchStep]
    repeat' split
    all_goals rfl

/-- And a call of the verification, apart from the lock of its transaction. -/
theorem verifierStep_enabled (cfg : VerificationSettings) (w : VerificationWorld) {l : Verifier}
    (hl : ¬ (Service.verification l).AtRest) : ∃ a, (verifierStep cfg w l a).isSome := by
  cases l with
  | idle => exact absurd trivial hl
  | verify p selfie ph =>
    refine ⟨.next {}, ?_⟩
    simp only [verifierStep, Option.isSome_map]
    cases ph with
    | done => exact absurd trivial hl
    | start | storing =>
      simp only [verifyStep]
      repeat' split
      all_goals rfl
    | evaluating => rfl
    | evaluated intentoId stored result =>
      simp only [verifyStep]
      repeat' split
      all_goals rfl
    | publishing eventId o ph =>
      cases ph with
      | finished | failed => rfl
      | start | claiming | publishing | answered | saving =>
        simp only [verifyStep, Option.isSome_map]
        exact dispatchStep_enabled _ _ _ id
  | dispatcher d =>
    refine ⟨.dispatcher (.next {}), ?_⟩
    simp only [verifierStep, Option.isSome_map]
    cases d with
    | idle | reported => exact absurd trivial hl
    | publishNow ids ph =>
      simp only [dispatcherStep, Option.isSome_map]
      exact dispatchStep_enabled _ _ _ hl
    | dispatchDue limit ph =>
      cases ph with
      | finished => rfl
      | failed => exact absurd trivial hl
      | start | claiming | publishing | answered | saving =>
        simp only [dispatcherStep, Option.isSome_map]
        exact dispatchStep_enabled _ _ _ id

/-- A call under way that waits for no row can make a step, if an id is free. -/
theorem serviceStep_enabled (cfg : BackendSettings) (i : Nat) {l : Service}
    (hl : ¬ l.AtRest) (hw : l.waitsOn w = none) {jti : UUID}
    (hfree : w.issuer jti = none) : ∃ a r, serviceStep cfg i w l a = some r := by
  cases l with
  | registration l =>
    obtain ⟨r, hr⟩ := Option.isSome_iff_exists.1 (registrarStep_enabled w.registration hl)
    exact ⟨.registration (.next {}), _, Option.map_eq_some_iff.2 ⟨r, hr, rfl⟩⟩
  | verification l =>
    obtain ⟨a, ha⟩ := verifierStep_enabled cfg.verificacion w.verification hl
    obtain ⟨r, hr⟩ := Option.isSome_iff_exists.1 ha
    refine ⟨.verification a, (w.withVerification r.1, .verification r.2), ?_⟩
    have hno : (l.locksNext.bind fun id => w.locks (.pasajero id)) = none := by
      cases hn : l.locksNext with
      | none => rfl
      | some id =>
        cases hloc : w.locks (.pasajero id) with
        | none => exact hloc
        | some j => simp [Service.waitsOn, hn, Option.filter, hloc] at hw
    rw [serviceStep, if_neg (not_not.2 hno)]
    exact Option.map_eq_some_iff.2 ⟨r, hr, rfl⟩
  | credentials l =>
    obtain ⟨r, hr⟩ := Option.isSome_iff_exists.1
      (@callStep_enabled cfg.pases i w.credentials l hl hw jti hfree)
    exact ⟨.credentials (.next { jti }), _, Option.map_eq_some_iff.2 ⟨r, hr, rfl⟩⟩

/-- A call that waits is under way. -/
theorem Service.not_atRest_of_waits {l : Service} (hw : l.waitsOn w = some k) : ¬ l.AtRest := by
  intro hrest
  cases l with
  | registration l => cases hw
  | verification l =>
    obtain ⟨hn, -⟩ := Option.filter_eq_some_iff.1 hw
    cases l with
    | idle | dispatcher => cases hn
    | verify p selfie ph =>
      cases ph with
      | done => cases hn
      | start | storing | evaluating | evaluated | publishing => exact hrest.elim
  | credentials l =>
    obtain ⟨hn, -⟩ := Option.filter_eq_some_iff.1 hw
    cases l with
    | idle | sweep | mayBeUsable => cases hn
    | issue user codigoVuelo ph | consume jti actor ph | revokeById jti motivo ph
      | detail jti pasajeroId ph =>
      cases ph <;> first | exact hrest.elim | cases hn

/-! ## The order of the locks -/

/-- What a call holds in a reachable state it may hold where it is. -/
theorem backend_locks (hs : Reachable BackendSystem.Initial (backendStep cfg) s) :
    LocksOK s.credentials := by
  have hc : Reachable CredentialSystem.Initial (credentialStep cfg.pases) s.credentials := by
    refine hs.project _ (fun _ h => h.credentials) fun h => ?_
    obtain ⟨bs, hbs, -⟩ := backendRun_credentials h
    exact ⟨bs, hbs⟩
  exact locks_mayHold hc

/-- The locks are taken in their order. -/
theorem backend_ordered (hs : Reachable BackendSystem.Initial (backendStep cfg) s) :
    Ordered s.shared.locks (fun i => (s.locals i).waitsOn s.shared) Lock.rank where
  held {i k} hw := by
    have hsome : (s.shared.locks k).isSome := by
      cases hl : s.locals i with
      | registration l => rw [hl] at hw; cases hw
      | verification l =>
        rw [hl] at hw
        exact (Option.filter_eq_some_iff.1 hw).2
      | credentials l =>
        rw [hl] at hw
        exact (Option.filter_eq_some_iff.1 hw).2
    exact Option.isSome_iff_exists.1 hsome
  order {i k k'} hw hk := by
    have hmay := backend_locks hs k' i hk
    cases hl : s.locals i with
    | registration l => rw [hl] at hw; cases hw
    | verification l =>
      simp only [BackendSystem.credentials, hl, Service.call] at hmay
      exact hmay.elim
    | credentials l =>
      simp only [BackendSystem.credentials, hl, Service.call] at hmay
      rw [hl] at hw
      exact Call.rank_lt (Option.filter_eq_some_iff.1 hw).1 hmay

/-- A call that waits for no row makes a step. -/
theorem backendStep_enabled (hi : ¬ (s.locals i).AtRest)
    (hw : (s.locals i).waitsOn s.shared = none) {jti : UUID}
    (hfree : s.shared.issuer jti = none) : ∃ a t, backendStep cfg s (.call i a) = some t := by
  obtain ⟨a, r, hr⟩ := serviceStep_enabled cfg i hi hw hfree
  obtain ⟨t, ht, -⟩ := Program.step_of_call (P := backendProgram cfg) hr
  exact ⟨a, t, ht⟩

/-- What holds a row is a call of the credential services under way, and each of its steps brings
the end of its transaction nearer. -/
theorem backend_holder (hs : Reachable BackendSystem.Initial (backendStep cfg) s)
    (hk : s.shared.locks k = some j) :
    ¬ (s.locals j).AtRest ∧ ∀ a t, backendStep cfg s (.call j a) = some t →
      (t.locals j).call.left < (s.locals j).call.left := by
  have hmay : (s.locals j).call.MayHold k := backend_locks hs k j hk
  cases hl : s.locals j with
  | registration l | verification l =>
    rw [hl] at hmay
    exact hmay.elim
  | credentials l =>
    rw [hl] at hmay
    refine ⟨fun hrest => hrest.not_mayHold k hmay, fun a t hst => ?_⟩
    cases backendStep_cases hst with
    | registration h | verification h => rw [hl] at h; cases h
    | credentials h hr _ ht _ =>
      rw [hl] at h
      cases h
      rw [ht]
      exact callStep_left hmay hr

/-- **No deadlock.** In every reachable state, while an id is free, a chain of waits leads from
every call under way to a call that can make a step, and no call waits for itself. Where another
call makes that step, it holds a row, and the step brings the end of its transaction nearer. -/
theorem backend_no_deadlock (hs : Reachable BackendSystem.Initial (backendStep cfg) s) {jti : UUID}
    (hfree : s.shared.issuer jti = none) (hi : ¬ (s.locals i).AtRest) :
    (∃ j, ReflTransGen (WaitsFor s.shared.locks fun i => (s.locals i).waitsOn s.shared) i j ∧
      (∃ a t, backendStep cfg s (.call j a) = some t) ∧
      (j ≠ i → (∃ k, s.shared.locks k = some j) ∧
        ∀ a t, backendStep cfg s (.call j a) = some t →
          (t.locals j).call.left < (s.locals j).call.left)) ∧
    ¬ TransGen (WaitsFor s.shared.locks fun i => (s.locals i).waitsOn s.shared) i i := by
  have hord := backend_ordered hs
  refine ⟨?_, hord.irrefl⟩
  cases hw : (s.locals i).waitsOn s.shared with
  | none => exact ⟨i, .refl, backendStep_enabled hi hw hfree, fun hne => absurd rfl hne⟩
  | some k =>
    obtain ⟨j, hj⟩ := hord.held hw
    obtain ⟨j', k', hk', hno, hchain⟩ := hord.exists_not_waiting Lock.rank_le hj
    obtain ⟨hunder, hleft⟩ := backend_holder hs hk'
    exact ⟨j', .head ⟨k, hw, hj⟩ hchain, backendStep_enabled hunder hno hfree,
      fun _ => ⟨⟨k', hk'⟩, hleft⟩⟩

/-- Call 3 holds the row of passenger 1, and call 4 has been admitted for the same passenger. -/
def sampleContention : List (Act ServiceAct Nat) :=
  sampleJourney.take 14 ++ List.replicate 4 (.call 3 (.credentials (.next {}))) ++
    .call 4 (.credentials (.invoke (.issue "ana" " av9380"))) ::
    List.replicate 3 (.call 4 (.credentials (.next {})))

/-- Then call 4 waits for call 3, and a step can be made. -/
theorem backend_no_deadlock_contention :
    ∃ s, run (backendStep sampleBackendSettings) sampleBackend sampleContention = some s ∧
      (s.locals 4).waitsOn s.shared = some (.pasajero 1) ∧
      s.shared.locks (.pasajero 1) = some 3 ∧
      ∃ j, ReflTransGen (WaitsFor s.shared.locks fun i => (s.locals i).waitsOn s.shared) 4 j ∧
        ∃ a t, backendStep sampleBackendSettings s (.call j a) = some t := by
  have hrun : (run (backendStep sampleBackendSettings) sampleBackend sampleContention).map
      (fun s => ((s.locals 4).waitsOn s.shared, s.shared.locks (.pasajero 1), s.shared.issuer 20)) =
        some (some (.pasajero 1), some 3, none) := by
    decide +kernel
  obtain ⟨s, hs, hr⟩ := Option.map_eq_some_iff.1 hrun
  simp only [Prod.mk.injEq] at hr
  obtain ⟨hw, hlock, hfree⟩ := hr
  have hreach : Reachable BackendSystem.Initial (backendStep sampleBackendSettings) s :=
    ⟨_, _, sampleBackend_initial, hs⟩
  obtain ⟨⟨j, hchain, hstep, -⟩, -⟩ :=
    backend_no_deadlock hreach hfree (Service.not_atRest_of_waits hw)
  exact ⟨s, hs, hw, hlock, j, hchain, hstep⟩

end Aeropass
