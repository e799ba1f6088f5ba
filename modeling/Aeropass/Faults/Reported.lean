import Aeropass.Faults.Requests

/-!
# What a request is told of its faults

The log of a request is accounted for by its plan (`Accounts`): what `trip` answered, the audit
record of each fault the first time it fired, and the header of the response with what had fired
until then (`faults_reported`).
-/

namespace Aeropass.Faults

open Runs

variable {secret : String} {s t : Server} {a : ServerAct} {r : Nat}

/-! ## What happened in a request -/

/-- What happened in request `r`. -/
def Server.logOf (s : Server) (r : Nat) : List Seen :=
  (s.log.filter fun e => e.1 = r).map Prod.snd

/-- The faults that have fired. -/
def fired (log : List Seen) : Finset String :=
  (log.filterMap fun | .asked name true => some name | _ => none).toFinset

/-- The audit records. -/
def audited (log : List Seen) : List String :=
  log.filterMap fun | .injected name => some name | _ => none

/-- The faults that a request asks for. -/
def requested (secret : String) (scope : Scope) : Finset String :=
  ((planOf secret scope).map FaultPlan.faults).getD ∅

/-- The log of a request that asks for `faults`, of which `applied` have fired. -/
structure Accounts (faults applied : Finset String) (log : List Seen) : Prop where
  asked : ∀ name b, .asked name b ∈ log → (b = true ↔ name ∈ faults)
  fired : fired log = applied
  audited : (audited log).Nodup ∧ (audited log).toFinset = applied
  sent : ∀ pre given passed post, log = pre ++ .sent given passed :: post →
    passed = reported (Faults.fired pre) given

theorem fired_append (l l' : List Seen) : fired (l ++ l') = fired l ∪ fired l' := by
  rw [fired, List.filterMap_append, List.toFinset_append]
  rfl

theorem audited_append (l l' : List Seen) : audited (l ++ l') = audited l ++ audited l' :=
  List.filterMap_append ..

section
variable {faults applied : Finset String} {log : List Seen} {name : String}

/-- One more entry that is no message. -/
theorem Accounts.snoc_sent {e : Seen} (h : Accounts faults applied log)
    (he : ∀ given passed, e ≠ .sent given passed) {pre post : List Seen} {given passed : Message}
    (heq : log ++ [e] = pre ++ .sent given passed :: post) :
    passed = reported (Faults.fired pre) given := by
  rcases snoc_eq_append_cons heq with ⟨-, h', -⟩ | ⟨post', -, h'⟩
  · exact absurd h' (he given passed)
  · exact h.sent pre given passed post' h'

theorem Accounts.empty (faults : Finset String) : Accounts faults ∅ [] where
  asked _ _ h := absurd h List.not_mem_nil
  fired := rfl
  audited := ⟨List.nodup_nil, rfl⟩
  sent pre given passed post h := by simp at h

/-- A fault that was not asked for does not fire. -/
theorem Accounts.refused (h : Accounts faults applied log) (hn : name ∉ faults) :
    Accounts faults applied (log ++ [.asked name false]) where
  asked n b hb := by
    rcases List.mem_append.1 hb with hb | hb
    · exact h.asked n b hb
    · cases List.mem_singleton.1 hb
      simp [hn]
  fired := by
    rw [fired_append, h.fired]
    exact Finset.union_empty _
  audited := by
    rw [audited_append]
    simpa [Faults.audited] using h.audited
  sent _ _ _ _ heq := h.snoc_sent (by intro _ _ h; cases h) heq

/-- A fault that has fired fires again, without a record. -/
theorem Accounts.again (h : Accounts faults applied log) (hn : name ∈ faults)
    (ha : name ∈ applied) : Accounts faults applied (log ++ [.asked name true]) where
  asked n b hb := by
    rcases List.mem_append.1 hb with hb | hb
    · exact h.asked n b hb
    · cases List.mem_singleton.1 hb
      simp [hn]
  fired := by
    rw [fired_append, h.fired]
    exact Finset.union_eq_left.2 (by simpa [Faults.fired] using ha)
  audited := by
    rw [audited_append]
    simpa [Faults.audited] using h.audited
  sent _ _ _ _ heq := h.snoc_sent (by intro _ _ h; cases h) heq

/-- A fault that fires for the first time is recorded. -/
theorem Accounts.inject (h : Accounts faults applied log) (hn : name ∈ faults)
    (ha : name ∉ applied) :
    Accounts faults (insert name applied) (log ++ [.injected name, .asked name true]) where
  asked n b hb := by
    rcases List.mem_append.1 hb with hb | hb
    · exact h.asked n b hb
    · rcases List.mem_cons.1 hb with hb | hb
      · cases hb
      · cases List.mem_singleton.1 hb
        simp [hn]
  fired := by
    rw [fired_append, h.fired]
    exact (Finset.union_comm _ _).trans (by simp [Faults.fired])
  audited := by
    obtain ⟨hnd, hset⟩ := h.audited
    rw [audited_append]
    have hnew : name ∉ Faults.audited log := by
      rw [← List.mem_toFinset, hset]
      exact ha
    constructor
    · rw [List.nodup_append']
      refine ⟨hnd, List.nodup_singleton name, fun x hx hx' => ?_⟩
      rw [List.mem_singleton.1 hx'] at hx
      exact hnew hx
    · rw [List.toFinset_append, hset]
      exact (Finset.union_comm _ _).trans (by simp [Faults.audited])
  sent pre given passed post heq := by
    have heq : (log ++ [.injected name]) ++ [.asked name true] =
        pre ++ .sent given passed :: post := by
      rw [← heq, List.append_assoc]
      rfl
    rcases snoc_eq_append_cons heq with ⟨-, h', -⟩ | ⟨post', -, h'⟩
    · cases h'
    · exact h.snoc_sent (by intro _ _ h; cases h) h'

/-- A message tells what has fired. -/
theorem Accounts.send (h : Accounts faults applied log) (message : Message) :
    Accounts faults applied (log ++ [.sent message (reported applied message)]) where
  asked n b hb := by
    rcases List.mem_append.1 hb with hb | hb
    · exact h.asked n b hb
    · cases List.mem_singleton.1 hb
  fired := by
    rw [fired_append, h.fired]
    exact Finset.union_empty _
  audited := by
    rw [audited_append]
    simpa [Faults.audited] using h.audited
  sent pre given passed post heq := by
    rcases snoc_eq_append_cons heq with ⟨rfl, h', -⟩ | ⟨post', -, h'⟩
    · cases h'
      rw [h.fired]
    · exact h.sent pre given passed post' h'

end

/-! ## The invariant -/

/-- A request that was received has the plan it asks for, and its log. -/
structure RequestOK (secret : String) (s : Server) (r : Nat) (scope : Scope) : Prop where
  plan : (s.plans r).map FaultPlan.faults = (planOf secret scope).map FaultPlan.faults
  log : Accounts (requested secret scope) (((s.plans r).map FaultPlan.applied).getD ∅) (s.logOf r)

/-- The invariant of the server. -/
structure ServerOK (secret : String) (s : Server) : Prop where
  tasks : ∀ i, (s.tasks i).OK s
  fresh : ∀ r, s.scopes r = none → s.plans r = none ∧ s.logOf r = []
  received : ∀ r scope, s.scopes r = some scope → RequestOK secret s r scope

/-- The log of a request, after entries of another or its own. -/
theorem logOf_append (es : List Seen) (h : t.log = s.log ++ es.map (Prod.mk r)) (q : Nat) :
    t.logOf q = s.logOf q ++ if q = r then es else [] := by
  unfold Server.logOf
  rw [h, List.filter_append, List.map_append]
  congr 1
  split
  · next hq =>
    have hall : (es.map (Prod.mk r)).filter (fun e => e.1 = q) = es.map (Prod.mk r) := by
      refine List.filter_eq_self.2 fun e he => ?_
      obtain ⟨x, -, rfl⟩ := List.mem_map.1 he
      simp [hq]
    rw [hall, List.map_map]
    exact List.map_id es
  · next hq =>
    have hnone : (es.map (Prod.mk r)).filter (fun e => e.1 = q) = [] := by
      refine List.filter_eq_nil_iff.2 fun e he => ?_
      obtain ⟨x, -, rfl⟩ := List.mem_map.1 he
      simpa using fun h : r = q => hq h.symm
    rw [hnone]
    rfl

/-- A plan has fired nothing when it is made. -/
theorem planOf_applied {scope : Scope} {plan : FaultPlan} (h : planOf secret scope = some plan) :
    plan.applied = ∅ := by
  simp only [planOf] at h
  repeat' split at h
  all_goals (cases h; try rfl)

/-- A request can ask for known faults only. -/
theorem requested_subset (secret : String) (scope : Scope) :
    requested secret scope ⊆ knownFaults := by
  unfold requested
  cases h : planOf secret scope with
  | none => exact Finset.empty_subset _
  | some plan =>
    simp only [planOf] at h
    repeat' split at h
    all_goals cases h
    rw [Option.map_some, Option.getD_some, parse_faults]
    intro name hname
    obtain ⟨item, hitem, rfl⟩ := List.mem_map.1 (List.mem_toFinset.1 hname)
    exact (of_decide_eq_true (List.mem_filter.1 hitem).2 : Recognised item).1

/-- `trip` in a request keeps its log. -/
theorem Tripped.requestOK {name : String} {b : Bool} {scope : Scope} (h : Tripped s r name t b)
    (hs : RequestOK secret s r scope) : RequestOK secret t r scope := by
  obtain ⟨hplan, hlog⟩ := hs
  cases h with
  | refused hno =>
    refine ⟨hplan, ?_⟩
    rw [logOf_append [.asked name false] rfl, if_pos rfl]
    refine hlog.refused ?_
    unfold requested
    rw [← hplan]
    cases hp : s.plans r with
    | none => exact Finset.notMem_empty name
    | some plan => exact hno plan hp
  | @again plan hp hn ha =>
    refine ⟨hplan, ?_⟩
    rw [logOf_append [.asked name true] rfl, if_pos rfl]
    refine hlog.again ?_ (by rw [hp]; exact ha)
    unfold requested
    rw [← hplan, hp]
    exact hn
  | @first plan hp hn ha =>
    constructor
    · rw [← hplan, hp]
      simp
    · rw [logOf_append [.injected name, .asked name true] rfl, if_pos rfl]
      simp only [Function.update_self, Option.map_some, Option.getD_some]
      rw [hp] at hlog
      refine hlog.inject ?_ ha
      unfold requested
      rw [← hplan, hp]
      exact hn

/-- The other requests stay as they are. -/
theorem Within.requestOK {q : Nat} {scope : Scope} (h : Within r s t) (hq : q ≠ r)
    (hs : RequestOK secret s q scope) : RequestOK secret t q scope := by
  obtain ⟨es, hes⟩ := h.log
  have hlog := logOf_append es hes q
  rw [if_neg hq, List.append_nil] at hlog
  exact ⟨by rw [h.plans q hq]; exact hs.plan, by rw [h.plans q hq, hlog]; exact hs.log⟩

/-- What is left to show of a step in request `r`: its tasks and its own log. -/
theorem ServerOK.within (hs : ServerOK secret s) (h : Within r s t)
    (htasks : ∀ i, t.tasks i = s.tasks i ∨ (t.tasks i).OK t)
    (hr : ∃ scope, t.scopes r = some scope ∧ RequestOK secret t r scope) : ServerOK secret t := by
  refine ⟨fun i => ?_, fun q hq => ?_, fun q scope hq => ?_⟩
  · rcases htasks i with hi | hi
    · rw [hi]
      exact h.taskOK (hs.tasks i)
    · exact hi
  · have hne : q ≠ r := by
      rintro rfl
      obtain ⟨scope, hscope, -⟩ := hr
      rw [hq] at hscope
      cases hscope
    rw [h.scopes q (.inl hne)] at hq
    obtain ⟨es, hes⟩ := h.log
    have hlog := logOf_append es hes q
    rw [if_neg hne, List.append_nil] at hlog
    rw [h.plans q hne, hlog]
    exact hs.fresh q hq
  · by_cases hne : q = r
    · subst hne
      obtain ⟨scope', hscope', hok⟩ := hr
      rw [hq] at hscope'
      cases hscope'
      exact hok
    · rw [h.scopes q (.inl hne)] at hq
      exact h.requestOK hne (hs.received q scope hq)

theorem withTask_tasks (s : Server) (i : Nat) (task : Task) (j : Nat) :
    (s.withTask i task).tasks j = s.tasks j ∨ (s.withTask i task).tasks j = task := by
  by_cases hj : j = i
  · exact .inr (by rw [hj]; exact Function.update_self ..)
  · exact .inl (Function.update_of_ne hj ..)

/-- A new task of a request that has received its plan. -/
theorem ServerOK.withTask (hs : ServerOK secret s) {i : Nat} {task : Task} (ht : task.OK s) :
    ServerOK secret (s.withTask i task) := by
  refine ⟨fun j => ?_, hs.fresh, fun r scope h =>
    ⟨(hs.received r scope h).plan, (hs.received r scope h).log⟩⟩
  rcases withTask_tasks s i task j with h | h
  · rw [h]
    have := hs.tasks j
    cases hj : s.tasks j with
    | idle | ended => trivial
    | slowed | app =>
      rw [hj] at this
      exact this
  · rw [h]
    cases task with
    | idle | ended => trivial
    | slowed | app => exact ht

theorem Within.withTask (h : Within r s t) (i : Nat) (task : Task) :
    Within r s (t.withTask i task) :=
  ⟨h.scopes, h.plans, h.kept, h.log⟩

theorem Within.refl (r : Nat) (s : Server) : Within r s s :=
  ⟨fun _ _ => rfl, fun _ _ => rfl, fun _ _ => rfl, [], (List.append_nil _).symm⟩

/-- Two steps in one request change that request only. -/
theorem Within.trans {u : Server} (h : Within r s t) (h' : Within r t u) : Within r s u := by
  have hsome : ∀ q, (s.scopes q).isSome → (t.scopes q).isSome := fun q hq => by
    rw [h.scopes q (.inr hq)]
    exact hq
  refine ⟨fun q hq => ?_, fun q hq => (h'.plans q hq).trans (h.plans q hq),
    fun q hq => (h'.kept q (hsome q hq)).trans (h.kept q hq), ?_⟩
  · exact (h'.scopes q (hq.imp_right (hsome q))).trans (h.scopes q hq)
  · obtain ⟨es, hes⟩ := h.log
    obtain ⟨es', hes'⟩ := h'.log
    exact ⟨es ++ es', by rw [hes', hes, List.append_assoc, List.map_append]⟩

/-- A request that is received, with the plan it asks for. -/
theorem ServerOK.receive (hs : ServerOK secret s) (scope : Scope) (hr : s.scopes r = none) :
    ServerOK secret { s with
      scopes := Function.update s.scopes r (some scope)
      plans := Function.update s.plans r (planOf secret scope) } ∧
    Within r s { s with
      scopes := Function.update s.scopes r (some scope)
      plans := Function.update s.plans r (planOf secret scope) } := by
  have hne : ∀ q, (s.scopes q).isSome → q ≠ r := by
    rintro q hq rfl
    rw [hr] at hq
    cases hq
  have hwithin : Within r s { s with
      scopes := Function.update s.scopes r (some scope)
      plans := Function.update s.plans r (planOf secret scope) } := by
    refine ⟨fun q hq => ?_, fun q hq => Function.update_of_ne hq .., fun q hq => ?_, [],
      (List.append_nil _).symm⟩
    · exact Function.update_of_ne (hq.elim id (hne q)) ..
    · exact congrArg Option.isSome (Function.update_of_ne (hne q hq) ..)
  refine ⟨hs.within hwithin (fun _ => .inl rfl) ⟨scope, Function.update_self .., ?_⟩, hwithin⟩
  constructor
  · exact congrArg (Option.map FaultPlan.faults) (Function.update_self ..)
  · have hlog : Server.logOf { s with
        scopes := Function.update s.scopes r (some scope)
        plans := Function.update s.plans r (planOf secret scope) } r = [] := (hs.fresh r hr).2
    have happlied : ((planOf secret scope).map FaultPlan.applied).getD ∅ = ∅ := by
      cases hp : planOf secret scope with
      | none => rfl
      | some plan => exact planOf_applied hp
    rw [hlog]
    dsimp only
    rw [Function.update_self, happlied]
    exact .empty _

/-- The plan that `send_with_applied` of a task reads. -/
theorem Server.Own.passed {ctx : Option Nat} (h : s.Own r ctx) (message : Message) :
    s.passed ctx message = reported (((s.plans r).map FaultPlan.applied).getD ∅) message := by
  rcases h with ⟨rfl, hp⟩ | ⟨rfl, hp⟩
  · rw [hp]
    simp [Server.passed, reported]
  · obtain ⟨plan, hplan⟩ := Option.isSome_iff_exists.1 hp
    simp [Server.passed, hplan]

/-- A step in a request keeps the invariant. -/
theorem serverStep_ok (hs : ServerOK secret s) (h : serverStep secret s a = some t) :
    ServerOK secret t ∧ Within a.request s t := by
  obtain ⟨r, i, act⟩ := a
  have h := serverStep_iff.1 h
  dsimp only at h ⊢
  cases h with
  | @plain scope hi hr hplan =>
    obtain ⟨hok, hw⟩ := hs.receive scope hr
    have hplans : Function.update s.plans r (planOf secret scope) = s.plans := by
      rw [hplan, ← (hs.fresh r hr).1]
      exact Function.update_eq_self ..
    rw [hplans] at hok hw
    refine ⟨hok.withTask ⟨?_, .inl ⟨rfl, (hs.fresh r hr).1⟩, rfl⟩, hw.withTask ..⟩
    simp
  | @planned scope plan u slows hi hr hplan htrip =>
    obtain ⟨hok, hw⟩ := hs.receive scope hr
    rw [hplan] at hok hw
    have hspec := trip_spec (Server.own_activated
      { s with scopes := Function.update s.scopes r (some scope) } r plan) slow
    rw [htrip] at hspec
    have hu := hok.within hspec.within (fun _ => .inl (by rw [hspec.tasks.1]))
      ⟨scope, by rw [hspec.tasks.2]; exact Function.update_self ..,
        hspec.requestOK (hok.received r scope (Function.update_self ..))⟩
    refine ⟨hu.withTask ?_, (hw.trans hspec.within).withTask ..⟩
    have hscope : (u.scopes r).isSome := by
      rw [hspec.tasks.2]
      simp
    have hplans : (u.plans r).isSome := by
      rw [hspec.within.kept r (by simp)]
      simp
    split
    · exact ⟨hscope, hplans⟩
    · exact ⟨hscope, .inr ⟨rfl, hplans⟩, rfl⟩
  | wake hi =>
    have ht := hs.tasks i
    rw [hi] at ht
    exact ⟨hs.withTask ⟨ht.1, .inr ⟨rfl, ht.2⟩, rfl⟩, (Within.refl r s).withTask ..⟩
  | @trip name ctx wraps hi =>
    have ht := hs.tasks i
    rw [hi] at ht
    obtain ⟨hr, hown, -⟩ := ht
    obtain ⟨scope, hscope⟩ := Option.isSome_iff_exists.1 hr
    have hspec := trip_spec hown name
    exact ⟨hs.within hspec.within (fun _ => .inl (by rw [hspec.tasks.1]))
      ⟨scope, by rw [hspec.tasks.2]; exact hscope, hspec.requestOK (hs.received r scope hscope)⟩,
      hspec.within⟩
  | @send message ctx wraps hi =>
    have ht := hs.tasks i
    rw [hi] at ht
    obtain ⟨hr, hown, rfl⟩ := ht
    obtain ⟨scope, hscope⟩ := Option.isSome_iff_exists.1 hr
    have hw : Within r s { s with
        log := s.log ++ [(r, .sent message (s.passed wraps message))] } :=
      ⟨fun _ _ => rfl, fun _ _ => rfl, fun _ _ => rfl, [_], rfl⟩
    refine ⟨hs.within hw (fun _ => .inl rfl) ⟨scope, hscope, ?_⟩, hw⟩
    obtain ⟨hplan, hlog⟩ := hs.received r scope hscope
    refine ⟨hplan, ?_⟩
    rw [logOf_append [.sent message (s.passed wraps message)] rfl, if_pos rfl, hown.passed]
    exact hlog.send message
  | @spawn j ctx wraps hi hj =>
    have ht := hs.tasks i
    rw [hi] at ht
    exact ⟨hs.withTask ht, (Within.refl r s).withTask ..⟩
  | finish => exact ⟨hs.withTask trivial, (Within.refl r s).withTask ..⟩

/-- The invariant holds before any request. -/
theorem Server.Initial.ok (h : s.Initial) : ServerOK secret s := by
  obtain ⟨hscopes, hplans, htasks, hlog⟩ := h
  refine ⟨fun i => ?_, fun r _ => ⟨by rw [hplans], ?_⟩, fun r scope hr => ?_⟩
  · rw [htasks]
    trivial
  · rw [Server.logOf, hlog]
    rfl
  · rw [hscopes] at hr
    cases hr

theorem server_ok (hs : Reachable Server.Initial (serverStep secret) s) : ServerOK secret s :=
  hs.invariant (fun _ h => h.ok) fun _ _ _ hs h => (serverStep_ok hs h).1

/-- The message that is sent tells of the faults in one more header, where it begins the response
and there are any; otherwise it is the application's. -/
theorem reported_spec (applied : Finset String) (given : Message) :
    (given.type = "http.response.start" → applied.Nonempty → reported applied given =
      { given with
        headers := some (given.headers.getD [] ++ [("x-aeropass-fault-applied".toUTF8.data.toList,
          (",".intercalate (applied.sort (· ≤ ·))).toUTF8.data.toList)]) }) ∧
    (given.type ≠ "http.response.start" ∨ applied = ∅ → reported applied given = given) := by
  constructor
  · intro htype happlied
    exact if_pos ⟨htype, happlied.ne_empty⟩
  · rintro (htype | happlied)
    · exact if_neg fun h => htype h.1
    · exact if_neg fun h => h.2 happlied

/-- **Each request is answered with its own faults.** In every reachable state, of every request
received: a fault that is asked about fires exactly when the request asked for it; the faults that
have fired are audited, once each; and the start of a response carries the names of those that had
fired when it was sent, sorted and separated by commas, in a header behind those of the application,
if there are any, and every other message is as the application sent it. -/
theorem faults_reported (hs : Reachable Server.Initial (serverStep secret) s) {scope : Scope}
    (hr : s.scopes r = some scope) :
    requested secret scope ⊆ knownFaults ∧
    (∀ name b, .asked name b ∈ s.logOf r → (b = true ↔ name ∈ requested secret scope)) ∧
    (audited (s.logOf r)).Nodup ∧
    (∀ name, name ∈ audited (s.logOf r) ↔ .asked name true ∈ s.logOf r) ∧
    ∀ pre given passed post, s.logOf r = pre ++ .sent given passed :: post →
      (given.type = "http.response.start" → (fired pre).Nonempty → passed =
        { given with
          headers := some (given.headers.getD [] ++ [("x-aeropass-fault-applied".toUTF8.data.toList,
            (",".intercalate ((fired pre).sort (· ≤ ·))).toUTF8.data.toList)]) }) ∧
      (given.type ≠ "http.response.start" ∨ fired pre = ∅ → passed = given) := by
  obtain ⟨-, hlog⟩ := (server_ok hs).received r scope hr
  refine ⟨requested_subset secret scope, hlog.asked, hlog.audited.1, fun name => ?_,
    fun pre given passed post heq => ?_⟩
  · rw [← List.mem_toFinset, hlog.audited.2, ← hlog.fired, fired, List.mem_toFinset,
      List.mem_filterMap]
    constructor
    · rintro ⟨e, he, hname⟩
      split at hname
      · cases hname
        exact he
      · cases hname
    · exact fun h => ⟨_, h, rfl⟩
  · rw [hlog.sent pre given passed post heq]
    exact reported_spec (fired pre) given

/-- A server that has received nothing. -/
def sampleServer : Server := ⟨fun _ => none, fun _ => none, fun _ => .idle, []⟩

theorem sampleServer_initial : sampleServer.Initial := ⟨rfl, rfl, rfl, rfl⟩

/-- A response begins. -/
def sampleStart : Message := { type := "http.response.start", headers := some [] }

/-- Request 1 asks for Redis to be down, request 2 for nothing; both use Redis, request 1 in task 3
too. -/
def sampleRequests : List ServerAct :=
  [⟨1, 1, .receive ⟨"http", [(faultHeader, encode "redis_down")]⟩⟩,
    ⟨2, 2, .receive ⟨"http", []⟩⟩, ⟨1, 1, .spawn 3⟩, ⟨2, 2, .trip redisDown⟩,
    ⟨1, 3, .trip redisDown⟩, ⟨2, 2, .send sampleStart⟩, ⟨1, 1, .trip redisDown⟩,
    ⟨1, 1, .send sampleStart⟩]

/-- What happens in the two requests. -/
theorem sampleRequests_run : ∃ t, run (serverStep "") sampleServer sampleRequests = some t ∧
    t.scopes 1 = some ⟨"http", [(faultHeader, encode "redis_down")]⟩ ∧
    t.logOf 1 = [.asked slow false, .injected redisDown, .asked redisDown true,
      .asked redisDown true, .sent sampleStart { sampleStart with
        headers := some [(appliedHeader, encode "redis_down")] }] ∧
    t.logOf 2 = [.asked redisDown false, .sent sampleStart sampleStart] := by
  have hlogs : (run (serverStep "") sampleServer sampleRequests).map
      (fun t => (t.scopes 1, t.logOf 1, t.logOf 2)) =
      some (some ⟨"http", [(faultHeader, encode "redis_down")]⟩,
        [.asked slow false, .injected redisDown, .asked redisDown true, .asked redisDown true,
          .sent sampleStart { sampleStart with
            headers := some [(appliedHeader, encode "redis_down")] }],
        [.asked redisDown false, .sent sampleStart sampleStart]) := by
    decide +kernel
  obtain ⟨t, ht, hl⟩ := Option.map_eq_some_iff.1 hlogs
  simp only [Prod.mk.injEq] at hl
  exact ⟨t, ht, hl⟩

/-- The client of request 1 is told of the fault that fired, once audited. -/
theorem faults_reported_sample : ∃ t, run (serverStep "") sampleServer sampleRequests = some t ∧
    (audited (t.logOf 1)).Nodup ∧ redisDown ∈ audited (t.logOf 1) ∧
    { sampleStart with headers := some [(appliedHeader, encode "redis_down")] } =
      { sampleStart with
        headers := some [("x-aeropass-fault-applied".toUTF8.data.toList,
          (",".intercalate ((fired [.asked slow false, .injected redisDown, .asked redisDown true,
            .asked redisDown true]).sort (· ≤ ·))).toUTF8.data.toList)] } := by
  obtain ⟨t, ht, hscope, hlog, -⟩ := sampleRequests_run
  obtain ⟨-, -, hnodup, hall, hsent⟩ :=
    faults_reported (.run (.start sampleServer_initial) ht) hscope
  refine ⟨t, ht, hnodup, (hall redisDown).2 (by rw [hlog]; simp), ?_⟩
  exact (hsent _ _ _ [] (by rw [hlog]; rfl)).1 rfl ⟨redisDown, by decide⟩

end Aeropass.Faults
