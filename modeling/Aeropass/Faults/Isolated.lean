import Aeropass.Faults.Reported

/-!
# Requests do not see each other's faults

The server with one request only (`Server.only`) takes every step of this request as the whole
server does, and the steps of the others do not show in it. So each request goes as it would alone
(`requests_isolated`).
-/

namespace Aeropass.Faults

open Runs

variable {secret : String} {s t : Server} {a : ServerAct} {r : Nat}

/-! ## One request alone -/

/-- The server with request `r` only. -/
def Server.only (r : Nat) (s : Server) : Server where
  scopes q := if q = r then s.scopes q else none
  plans q := if q = r then s.plans q else none
  tasks i := if (s.tasks i).request? = some r then s.tasks i else .idle
  log := s.log.filter fun e => e.1 = r

namespace Server

@[simp] theorem only_scopes (r : Nat) (s : Server) : (s.only r).scopes r = s.scopes r := if_pos rfl

@[simp] theorem only_plans (r : Nat) (s : Server) : (s.only r).plans r = s.plans r := if_pos rfl

theorem only_task {i : Nat} (h : (s.tasks i).request? = some r) : (s.only r).tasks i = s.tasks i :=
  if_pos h

theorem only_idle {i : Nat} (h : s.tasks i = .idle) : (s.only r).tasks i = .idle := by
  unfold only
  dsimp only
  split
  · exact h
  · rfl

/-- What is left of an update for one request. -/
theorem only_update {α : Type} (f : Nat → Option α) (r : Nat) (x : Option α) :
    (fun q => if q = r then Function.update f r x q else none) =
      Function.update (fun q => if q = r then f q else none) r x := by
  funext q
  by_cases hq : q = r
  · subst hq
    simp
  · simp [hq]

/-- A task of the request stays in what is left. -/
theorem only_withTask {i : Nat} {task : Task} (h : task.request? = some r) :
    (s.withTask i task).only r = (s.only r).withTask i task := by
  unfold withTask only
  congr 1
  funext j
  by_cases hj : j = i
  · subst hj
    simp [h]
  · simp [hj]

/-- So do its entries of the log. -/
theorem only_log (es : List Seen) :
    ({ s with log := s.log ++ es.map (Prod.mk r) } : Server).only r =
      { s.only r with log := (s.only r).log ++ es.map (Prod.mk r) } := by
  unfold only
  rw [List.filter_append]
  congr 2
  refine List.filter_eq_self.2 fun e he => ?_
  obtain ⟨x, -, rfl⟩ := List.mem_map.1 he
  simp

theorem only_plan (plan : Option FaultPlan) :
    ({ s with plans := Function.update s.plans r plan } : Server).only r =
      { s.only r with plans := Function.update (s.only r).plans r plan } := by
  unfold only
  rw [only_update]

theorem only_scope (scope : Option Scope) :
    ({ s with scopes := Function.update s.scopes r scope } : Server).only r =
      { s.only r with scopes := Function.update (s.only r).scopes r scope } := by
  unfold only
  rw [only_update]

theorem Own.only {ctx : Option Nat} (h : s.Own r ctx) : (s.only r).Own r ctx := by
  unfold Own
  rw [only_plans]
  exact h

end Server

/-- `trip` goes alike in the request alone. -/
theorem trip_only {ctx : Option Nat} (ho : s.Own r ctx) (name : String) :
    (s.only r).trip r ctx name = ((s.trip r ctx name).1.only r, (s.trip r ctx name).2) := by
  unfold Server.trip
  rcases ho with ⟨rfl, -⟩ | ⟨rfl, hp⟩
  · exact congrArg (·, false) (Server.only_log (r := r) [.asked name false]).symm
  · obtain ⟨plan, hplan⟩ := Option.isSome_iff_exists.1 hp
    simp only [Server.only_plans, hplan]
    split
    · exact congrArg (·, false) (Server.only_log (r := r) [.asked name false]).symm
    · split
      · exact congrArg (·, true) (Server.only_log (r := r) [.asked name true]).symm
      · have hnew := Server.only_plan (s := s) (r := r)
          (some { plan with applied := insert name plan.applied })
        have hlog := Server.only_log (r := r) (s := { s with
          plans := Function.update s.plans r
            (some { plan with applied := insert name plan.applied }) })
          [.injected name, .asked name true]
        rw [hnew] at hlog
        exact congrArg (·, true) hlog.symm

/-- A step in the request is one of the request alone. -/
theorem serverStep_only (hs : ServerOK secret s) (h : serverStep secret s a = some t)
    (hr : a.request = r) : serverStep secret (s.only r) a = some (t.only r) := by
  obtain ⟨r', i, act⟩ := a
  obtain rfl : r' = r := hr
  have h := serverStep_iff.1 h
  refine serverStep_iff.2 ?_
  dsimp only at h ⊢
  cases h with
  | @plain scope hi hfree hplan =>
    rw [Server.only_withTask rfl, Server.only_scope]
    exact .plain (Server.only_idle hi) (by rw [Server.only_scopes]; exact hfree) hplan
  | @planned scope plan u slows hi hfree hplan htrip =>
    have htask : (if slows then Task.slowed r' else .app r' (some r') (some r')).request? =
        some r' := by
      split <;> rfl
    rw [Server.only_withTask htask]
    refine .planned (Server.only_idle hi) (by rw [Server.only_scopes]; exact hfree) hplan ?_
    have honly := trip_only (Server.own_activated
      { s with scopes := Function.update s.scopes r' (some scope) } r' plan) slow
    have hstart := Server.only_plan (r := r')
      (s := { s with scopes := Function.update s.scopes r' (some scope) }) (some plan)
    rw [Server.only_scope] at hstart
    rw [htrip, hstart] at honly
    exact honly
  | wake hi =>
    rw [Server.only_withTask rfl]
    exact .wake (by rw [Server.only_task (by rw [hi]; rfl), hi])
  | @trip name ctx wraps hi =>
    have ht := hs.tasks i
    rw [hi] at ht
    have honly := trip_only ht.2.1 name
    rw [show (s.trip r' ctx name).1.only r' = ((s.only r').trip r' ctx name).1 by rw [honly]]
    have htask : (s.only r').tasks i = .app r' ctx wraps := by
      rw [Server.only_task (by rw [hi]; rfl), hi]
    exact .trip htask
  | @send message ctx wraps hi =>
    have ht := hs.tasks i
    rw [hi] at ht
    obtain ⟨-, hown, rfl⟩ := ht
    have hpassed : s.passed wraps message = (s.only r').passed wraps message := by
      rw [hown.passed, hown.only.passed, Server.only_plans]
    have hsend : ({ s with log := s.log ++ [(r', Seen.sent message (s.passed wraps message))] } :
        Server).only r' = { s.only r' with
          log := (s.only r').log ++ [(r', .sent message ((s.only r').passed wraps message))] } := by
      rw [← hpassed]
      exact Server.only_log [.sent message (s.passed wraps message)]
    rw [hsend]
    have htask : (s.only r').tasks i = .app r' wraps wraps := by
      rw [Server.only_task (by rw [hi]; rfl), hi]
    exact .send htask
  | @spawn j ctx wraps hi hj =>
    rw [Server.only_withTask rfl]
    exact .spawn (by rw [Server.only_task (by rw [hi]; rfl), hi]) (Server.only_idle hj)
  | finish hi htask =>
    rw [Server.only_withTask rfl]
    refine .finish ?_ htask
    rw [Server.only_task, hi]
    rw [hi]
    rcases htask with ⟨ctx, wraps, rfl⟩ | rfl <;> rfl

/-- The tasks that a step in request `r` changes are of `r` afterwards, and were not of another
request. -/
theorem serverStep_tasks (hs : ServerOK secret s) (h : serverStep secret s a = some t) (i : Nat) :
    t.tasks i = s.tasks i ∨
      ((s.tasks i).request? = none ∨ (s.tasks i).request? = some a.request) ∧
        (t.tasks i).request? = some a.request := by
  obtain ⟨r, j, act⟩ := a
  have h := serverStep_iff.1 h
  dsimp only at h ⊢
  have hset : ∀ {u : Server} {k task}, u.tasks = s.tasks →
      ((s.tasks k).request? = none ∨ (s.tasks k).request? = some r) → task.request? = some r →
      (u.withTask k task).tasks i = s.tasks i ∨
        ((s.tasks i).request? = none ∨ (s.tasks i).request? = some r) ∧
          ((u.withTask k task).tasks i).request? = some r := by
    intro u k task hu hk htask
    unfold Server.withTask
    dsimp only
    by_cases hik : i = k
    · subst hik
      rw [Function.update_self]
      exact .inr ⟨hk, htask⟩
    · rw [Function.update_of_ne hik, hu]
      exact .inl rfl
  cases h with
  | plain hi => exact hset rfl (.inl (by rw [hi]; rfl)) rfl
  | @planned scope plan u slows hi _ _ htrip =>
    have hspec := trip_spec (Server.own_activated
      { s with scopes := Function.update s.scopes r (some scope) } r plan) slow
    rw [htrip] at hspec
    exact hset hspec.tasks.1 (.inl (by rw [hi]; rfl)) (by split <;> rfl)
  | wake hi => exact hset rfl (.inr (by rw [hi]; rfl)) rfl
  | trip hi =>
    have ht := hs.tasks j
    rw [hi] at ht
    exact .inl (by rw [(trip_spec ht.2.1 _).tasks.1])
  | send => exact .inl rfl
  | spawn hi hj => exact hset rfl (.inl (by rw [hj]; rfl)) rfl
  | finish hi htask =>
    refine hset rfl (.inr ?_) rfl
    rw [hi]
    rcases htask with ⟨ctx, wraps, rfl⟩ | rfl <;> rfl

/-- A step in another request does not show. -/
theorem serverStep_other (hs : ServerOK secret s) (h : serverStep secret s a = some t)
    (hr : a.request ≠ r) : t.only r = s.only r := by
  have hw := (serverStep_ok hs h).2
  obtain ⟨es, hes⟩ := hw.log
  have hlog : t.log.filter (fun e => e.1 = r) = s.log.filter fun e => e.1 = r := by
    have hnone : (es.map (Prod.mk a.request)).filter (fun e => e.1 = r) = [] := by
      refine List.filter_eq_nil_iff.2 fun e he => ?_
      obtain ⟨x, -, rfl⟩ := List.mem_map.1 he
      simpa using hr
    rw [hes, List.filter_append, hnone, List.append_nil]
  have htasks : ∀ i, (if (t.tasks i).request? = some r then t.tasks i else Task.idle) =
      if (s.tasks i).request? = some r then s.tasks i else .idle := by
    intro i
    rcases serverStep_tasks hs h i with hi | ⟨hbefore, hafter⟩
    · rw [hi]
    · rw [if_neg, if_neg]
      · rcases hbefore with hb | hb <;> rw [hb]
        · intro hc
          cases hc
        · exact fun hc => hr (Option.some.inj hc)
      · rw [hafter]
        exact fun hc => hr (Option.some.inj hc)
  unfold Server.only
  rw [hlog]
  congr 1
  · funext q
    split
    · next hq => exact hw.scopes q (.inl fun h => hr (h.symm.trans hq))
    · rfl
  · funext q
    split
    · next hq => exact hw.plans q fun h => hr (h.symm.trans hq)
    · rfl
  · exact funext htasks

/-- **Requests are isolated.** What the steps of one request do, among those of any others in any
order, they do in the server with this request only: its tasks, its plan, what its wrappers are
told, what is audited and what is sent to its client. -/
theorem requests_isolated (hs : Reachable Server.Initial (serverStep secret) s)
    {as : List ServerAct} (h : run (serverStep secret) s as = some t) (r : Nat) :
    run (serverStep secret) (s.only r) (as.filter fun a => a.request = r) = some (t.only r) := by
  have hvis : ∀ u u' a v, (ServerOK secret u ∧ u' = u.only r) → True →
      decide (a.request = r) = true → serverStep secret u a = some v →
      ∃ v', serverStep secret u' a = some v' ∧ True ∧ ServerOK secret v ∧ v' = v.only r := by
    rintro u _ a v ⟨hu, rfl⟩ - ha hst
    exact ⟨v.only r, serverStep_only hu hst (of_decide_eq_true ha), trivial,
      (serverStep_ok hu hst).1, rfl⟩
  have hhid : ∀ u u' a v, (ServerOK secret u ∧ u' = u.only r) → True →
      decide (a.request = r) = false → serverStep secret u a = some v →
      ServerOK secret v ∧ u' = v.only r := by
    rintro u _ a v ⟨hu, rfl⟩ - ha hst
    exact ⟨(serverStep_ok hu hst).1, (serverStep_other hu hst (of_decide_eq_false ha)).symm⟩
  obtain ⟨t', ht', -, -, rfl⟩ := run_filter_of_sim (P := fun _ _ _ => True)
    (Q := fun _ _ _ => True) (R := fun u u' => ServerOK secret u ∧ u' = u.only r) hvis hhid
    (fun _ _ _ _ _ _ _ _ => trivial) h ⟨server_ok hs, rfl⟩
  exact ht'

/-- Without request 2 request 1 goes as it did. -/
theorem requests_isolated_sample : ∃ t, run (serverStep "") sampleServer sampleRequests = some t ∧
    run (serverStep "") (sampleServer.only 1)
      [⟨1, 1, .receive ⟨"http", [(faultHeader, encode "redis_down")]⟩⟩, ⟨1, 1, .spawn 3⟩,
        ⟨1, 3, .trip redisDown⟩, ⟨1, 1, .trip redisDown⟩, ⟨1, 1, .send sampleStart⟩] =
      some (t.only 1) := by
  obtain ⟨t, ht, -⟩ := sampleRequests_run
  exact ⟨t, ht, requests_isolated (.start sampleServer_initial) ht 1⟩

end Aeropass.Faults
