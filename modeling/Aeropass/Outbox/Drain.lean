import Aeropass.Outbox.Delivery

/-!
# A backlog is delivered

Whatever happened before, and whatever dispatchers were left behind with claims of theirs: when the
three minutes have passed that a PENDIENTE row waits at most, sweeps that nothing disturbs deliver
the backlog, `limit` events each (`outbox_drains`). `Sweeping` is what such a sweep has done to the
table and to the publisher, from where it is.
-/

namespace Aeropass

open Runs Threads

/-! ## A sweep -/

/-- The PENDIENTE rows. -/
def OutboxTable.pending (t : OutboxTable) : List OutboxEntry :=
  t.rows.filter fun r => r.estado = .pendiente

/-- Every PENDIENTE row is due. -/
def AllDue (w : OutboxWorld) : Prop :=
  ∀ r ∈ w.outbox.pending, r.proximoIntentoAt ≤ w.clock

/-- What moves a sweep that nothing disturbs: the publisher accepts each message and answers, no
other transaction holds a row, and the call goes on. -/
def DispatchAct.Undisturbed (limit : Nat) : DispatchAct → Prop
  | .dispatchDue l => l = limit
  | .next ch => ch.dies = false ∧ ch.skip = [] ∧ ch.accepts = true ∧ ch.raises = none
  | .publishNow _ => False

/-- A step of call `i` sweeping, or of the clock. -/
def Undisturbed (limit i : Nat) : Act DispatchAct OutboxEnv → Prop
  | .env (.tick _) => True
  | .call j a => j = i ∧ a.Undisturbed limit
  | .env (.add _) => False

/-- The calls `is` sweep one after the other, undisturbed, and each one reports. -/
inductive Sweeps (limit : Nat) : List Nat → OutboxSystem → OutboxSystem → Prop
  | none {s} : Sweeps limit [] s s
  | more {i is s u t as} : s.locals i = .idle → (∀ a ∈ as, Undisturbed limit i a) →
    run outboxStep s as = some u → (∃ r, u.locals i = .reported r) → Sweeps limit is u t →
    Sweeps limit (i :: is) s t

/-- The ids of entries. -/
abbrev entryIds (es : List OutboxEntry) : List UUID := es.map OutboxEntry.id

/-- What became of a row: delivered if it is of `done`, and as it was unless it is of `batch`. -/
structure SweptRow (batch done : List OutboxEntry) (r r' : OutboxEntry) : Prop where
  event : r'.event = r.event
  entregado : r.id ∈ entryIds done → r'.estado = .entregado
  estado : r.id ∉ entryIds done → r'.estado = r.estado
  same : r.id ∉ entryIds batch → r' = r

/-- The table `t` is `s` with the rows of `batch` claimed, and those of `done` delivered. -/
def Swept (s : OutboxTable) (batch done : List OutboxEntry) (t : OutboxTable) : Prop :=
  ∃ f : OutboxEntry → OutboxEntry, t.rows = s.rows.map f ∧ ∀ r ∈ s.rows,
    SweptRow batch done r (f r)

/-- What the sweep of a batch has done, with `done` delivered and `sent` accepted. -/
structure Sweep (s : OutboxWorld) (limit : Nat) (batch done sent : List OutboxEntry)
    (w : OutboxWorld) : Prop where
  claimed : ∃ now, s.clock ≤ now ∧ batch = s.outbox.due now limit none []
  table : Swept s.outbox batch done w.outbox
  accepted : w.accepted = s.accepted ++ sent.map fun e => e.event.publication

/-- What the sweep of a call has done since `s`, from where it is. -/
def DispatchPhase.Sweeping (s : OutboxWorld) (limit : Nat) (w : OutboxWorld) :
    DispatchPhase → Prop
  | .start => w.outbox = s.outbox ∧ w.accepted = s.accepted
  | .claiming now => w.outbox = s.outbox ∧ w.accepted = s.accepted ∧ s.clock ≤ now
  | .publishing _ rest n => ∃ done, n = done.length ∧ Sweep s limit (done ++ rest) done done w
  | .answered _ e rest n accepted => ∃ done, n = done.length ∧ accepted = true ∧
    Sweep s limit (done ++ e :: rest) done (done ++ [e]) w
  | .saving _ o rest n => ∃ done e ahora, n = done.length ∧ o = e.entregado ahora ∧
    Sweep s limit (done ++ e :: rest) done (done ++ [e]) w
  | .finished n => ∃ done, n = done.length ∧ Sweep s limit done done done w
  | .failed => False

/-- What a sweeping call has done since `s`. -/
def Dispatcher.Sweeping (s : OutboxWorld) (limit : Nat) (w : OutboxWorld) : Dispatcher → Prop
  | .idle => w.outbox = s.outbox ∧ w.accepted = s.accepted
  | .dispatchDue l ph => l = limit ∧ ph.Sweeping s limit w
  | .reported r => ∃ done, r = ⟨done.length, w.outbox.countPending⟩ ∧ Sweep s limit done done done w
  | .publishNow .. => False

variable {s w w' : OutboxWorld} {limit i : Nat} {batch done sent : List OutboxEntry}
  {t : OutboxTable} {e : OutboxEntry}

/-! ## Steps -/

/-- A sweep starts with its batch leased and nothing delivered. -/
theorem Swept.start (s : OutboxTable) (batch : List OutboxEntry) (leaseUntil : Instant) :
    Swept s batch [] (s.lease batch leaseUntil) := by
  refine ⟨fun r => if r.id ∈ batch.map OutboxEntry.id then
    { r with proximoIntentoAt := leaseUntil } else r, rfl, fun r _ => ⟨?_, fun hr => ?_,
      fun _ => ?_, fun hr => if_neg hr⟩⟩
  · dsimp only
    split <;> rfl
  · cases hr
  · dsimp only
    split <;> rfl

/-- A delivery that is saved. -/
theorem Swept.save {s : OutboxTable} (h : Swept s batch done t) (he : e ∈ batch)
    (ahora : Instant) : Swept s batch (done ++ [e]) (t.save (e.entregado ahora)) := by
  obtain ⟨f, hrows, hf⟩ := h
  refine ⟨fun r => if (f r).id = e.id then OutboxTable.saveRow (e.entregado ahora) (f r) else f r,
    ?_, fun r hr => ?_⟩
  · change t.rows.map _ = _
    rw [hrows, List.map_map]
    rfl
  obtain ⟨hev, hent, hest, hsame⟩ := hf r hr
  have hid : (f r).id = r.id := congrArg DomainEvent.id hev
  dsimp only
  rw [hid]
  have hmem : r.id ∈ entryIds (done ++ [e]) ↔ r.id ∈ entryIds done ∨ r.id = e.id := by
    simp [entryIds]
  constructor
  · split <;> exact hev
  · intro h
    split
    · rfl
    · next hre => exact hent ((hmem.1 h).resolve_right hre)
  · intro h
    rw [if_neg fun hre => h (hmem.2 (.inr hre))]
    exact hest fun hd => h (hmem.2 (.inl hd))
  · intro h
    rw [if_neg fun hre : r.id = e.id => h (hre ▸ List.mem_map_of_mem he)]
    exact hsame h

/-- An undisturbed step of `_dispatch` goes on with the sweep. -/
theorem dispatchStep_sweeping {ph : DispatchPhase} {ch : DispatchChoice}
    {r : OutboxWorld × DispatchPhase} (hclock : s.clock ≤ w.clock) (hph : ph.Sweeping s limit w)
    (hok : ph.OK w) (hch : (DispatchAct.next ch).Undisturbed limit)
    (h : dispatchStep w limit none ch ph = some r) :
    r.2.Sweeping s limit r.1 ∧ r.1.clock = w.clock := by
  obtain ⟨hd, hk, ha, hr⟩ := hch
  cases ph with
  | start => cases h; exact ⟨⟨hph.1, hph.2, hclock⟩, rfl⟩
  | claiming now =>
    obtain ⟨htable, hacc, hnow⟩ := hph
    simp only [dispatchStep, hd, hk] at h
    cases h
    refine ⟨⟨[], rfl, ⟨now, hnow, ?_⟩, ?_, ?_⟩, rfl⟩
    · rw [List.nil_append, htable]
    · rw [htable]
      exact .start ..
    · simpa using hacc
  | publishing now rest n =>
    obtain ⟨done, rfl, hsweep⟩ := hph
    cases rest with
    | nil =>
      cases h
      rw [List.append_nil] at hsweep
      exact ⟨⟨done, rfl, hsweep⟩, rfl⟩
    | cons e rest =>
      simp only [dispatchStep, hd, ha] at h
      cases h
      refine ⟨⟨done, rfl, rfl, hsweep.claimed, hsweep.table, ?_⟩, rfl⟩
      simp [hsweep.accepted]
  | answered now e rest n accepted =>
    obtain ⟨done, rfl, rfl, hsweep⟩ := hph
    simp only [dispatchStep, hd, hr] at h
    cases h
    exact ⟨⟨done, e, w.clock, rfl, rfl, hsweep⟩, rfl⟩
  | saving now o rest n =>
    obtain ⟨done, e, ahora, rfl, rfl, hsweep⟩ := hph
    obtain ⟨-, ⟨⟨row, hrow, -⟩, -⟩, -⟩ := hok
    have hsome : (w.outbox.find? (e.entregado ahora).id).isNone = false := by
      rw [hrow]
      rfl
    simp only [dispatchStep, hd, hsome] at h
    cases h
    refine ⟨⟨done ++ [e], by simp [OutboxEntry.entregado], ?_⟩, rfl⟩
    have hbatch : done ++ [e] ++ rest = done ++ e :: rest := by simp
    rw [hbatch]
    exact ⟨hsweep.claimed, hsweep.table.save (by simp) ahora, hsweep.accepted⟩
  | finished | failed => cases h

/-- An undisturbed step of a call goes on with the sweep. -/
theorem dispatcherStep_sweeping {l : Dispatcher} {a : DispatchAct} {r : OutboxWorld × Dispatcher}
    (hclock : s.clock ≤ w.clock) (hl : l.Sweeping s limit w) (hok : l.phase.OK w)
    (ha : a.Undisturbed limit) (h : dispatcherStep w l a = some r) :
    r.2.Sweeping s limit r.1 ∧ r.1.clock = w.clock := by
  unfold dispatcherStep at h
  split at h
  · cases ha
  · cases h
    exact ⟨⟨ha, hl⟩, rfl⟩
  · cases hl
  · obtain ⟨rfl, hph⟩ := hl
    split at h
    · next n =>
      cases h
      obtain ⟨done, rfl, hsweep⟩ := hph
      exact ⟨⟨done, rfl, hsweep⟩, rfl⟩
    · obtain ⟨r', hr', rfl⟩ := Option.map_eq_some_iff.1 h
      obtain ⟨hph', hcl⟩ := dispatchStep_sweeping hclock hph hok ha hr'
      exact ⟨⟨rfl, hph'⟩, hcl⟩
  · cases h

/-- A sweep does not depend on the clock. -/
theorem Sweep.tick (h : Sweep s limit batch done sent w) (d : Nat) :
    Sweep s limit batch done sent { w with clock := w.clock + d } :=
  ⟨h.claimed, h.table, h.accepted⟩

/-- A sweep goes on while time passes. -/
theorem Dispatcher.Sweeping.tick {l : Dispatcher} (h : l.Sweeping s limit w) (d : Nat) :
    l.Sweeping s limit { w with clock := w.clock + d } := by
  cases l with
  | idle => exact h
  | publishNow => cases h
  | reported r =>
    obtain ⟨done, hr, hsweep⟩ := h
    exact ⟨done, hr, hsweep.tick d⟩
  | dispatchDue l ph =>
    obtain ⟨hlim, hph⟩ := h
    refine ⟨hlim, ?_⟩
    cases ph with
    | start | claiming => exact hph
    | publishing now rest n =>
      obtain ⟨done, hn, hsweep⟩ := hph
      exact ⟨done, hn, hsweep.tick d⟩
    | answered now e rest n accepted =>
      obtain ⟨done, hn, hacc, hsweep⟩ := hph
      exact ⟨done, hn, hacc, hsweep.tick d⟩
    | saving now o rest n =>
      obtain ⟨done, e, ahora, hn, ho, hsweep⟩ := hph
      exact ⟨done, e, ahora, hn, ho, hsweep.tick d⟩
    | finished n =>
      obtain ⟨done, hn, hsweep⟩ := hph
      exact ⟨done, hn, hsweep.tick d⟩
    | failed => cases hph

/-! ## The run of a sweep -/

/-- A sweep that runs from `s`, in the system. -/
structure SweepingFrom (s : OutboxSystem) (limit i : Nat) (t : OutboxSystem) : Prop where
  ok : DispatchersOK t
  clock : s.shared.clock ≤ t.shared.clock
  sweeping : (t.locals i).Sweeping s.shared limit t.shared
  others : ∀ j, j ≠ i → t.locals j = s.locals j

/-- A step that nobody disturbs leads the sweep on. -/
theorem sweepingFrom_step {s u v : OutboxSystem} {a : Act DispatchAct OutboxEnv}
    (hu : SweepingFrom s limit i u) (ha : Undisturbed limit i a) (h : outboxStep u a = some v) :
    SweepingFrom s limit i v := by
  have hok := outbox_relyGuarantee.step hu.ok h
  have hlater := (outboxStep_later hu.ok h).clock
  refine ⟨hok, Int.le_trans hu.clock hlater, ?_, ?_⟩
  · rcases Program.step_cases h with ⟨j, b, r, rfl, hc, hsh, hl, -⟩ | ⟨e, rfl, he, hl⟩
    · obtain ⟨rfl, hb⟩ := ha
      rw [hsh, hl]
      exact (dispatcherStep_sweeping hu.clock hu.sweeping (hu.ok.2 j) hb hc).1
    · cases e with
      | add => cases ha
      | tick d =>
        rw [hl, ← Option.some.inj he]
        exact hu.sweeping.tick d
  · intro j hj
    rw [← hu.others j hj]
    refine Program.locals_eq h fun b hb => ?_
    rw [hb] at ha
    exact hj ha.1

/-- An undisturbed run of an idle call is the run of a sweep. -/
theorem sweepingFrom_run {s u : OutboxSystem} {as : List (Act DispatchAct OutboxEnv)}
    (hs : DispatchersOK s) (hi : s.locals i = .idle) (ha : ∀ a ∈ as, Undisturbed limit i a)
    (h : run outboxStep s as = some u) : SweepingFrom s limit i u := by
  have hstart : SweepingFrom s limit i s := by
    refine ⟨hs, Int.le_refl _, ?_, fun _ _ => rfl⟩
    rw [hi]
    exact ⟨rfl, rfl⟩
  have heach : EachStep outboxStep (fun _ a _ => Undisturbed limit i a) s as := by
    intro pre a post v v' has _ _
    exact ha a (by simp [has])
  refine EachStep.invariant (I := SweepingFrom s limit i) ?_ heach h hstart
  exact fun _ _ _ hv hP hst => sweepingFrom_step hv hP hst

/-! ## What a sweep has done when it reports -/

/-- From `s` to `t` the entries of `delivered`, and no others, were published and delivered. -/
structure Drained (s t : OutboxWorld) (delivered : List OutboxEntry) : Prop where
  distinct : (entryIds delivered).Nodup
  backlog : delivered ⊆ s.outbox.pending
  accepted : t.accepted = s.accepted ++ delivered.map fun e => e.event.publication
  table : Swept s.outbox delivered delivered t.outbox

/-- The rows that are PENDIENTE still. -/
theorem Swept.pending {s : OutboxTable} (h : Swept s done done t) :
    t.pending = s.pending.filter fun r => r.id ∉ entryIds done := by
  obtain ⟨f, hrows, hf⟩ := h
  unfold OutboxTable.pending
  rw [hrows, List.filter_filter]
  clear hrows
  -- row by row: a row of `done` is delivered, and the others stay
  have hrow : ∀ l : List OutboxEntry, (∀ r ∈ l, r ∈ s.rows) →
      (l.map f).filter (fun r => r.estado = .pendiente) =
        l.filter fun r => r.id ∉ entryIds done && decide (r.estado = .pendiente) := by
    intro l hl
    induction l with
    | nil => rfl
    | cons r l ih =>
      obtain ⟨-, hent, -, hsame⟩ := hf r (hl r List.mem_cons_self)
      have ih := ih fun x hx => hl x (List.mem_cons_of_mem _ hx)
      rw [List.map_cons, List.filter_cons, List.filter_cons, ih]
      by_cases hd : r.id ∈ entryIds done
      · simp [hd, hent hd]
      · simp [hd, hsame hd]
  exact hrow s.rows fun _ h => h

/-- One sweep after the other. -/
theorem Swept.trans {s u : OutboxTable} {done' : List OutboxEntry} (h : Swept s done done u)
    (h' : Swept u done' done' t) : Swept s (done ++ done') (done ++ done') t := by
  obtain ⟨f, hrows, hf⟩ := h
  obtain ⟨g, hrows', hg⟩ := h'
  refine ⟨g ∘ f, by rw [hrows', hrows, List.map_map], fun r hr => ?_⟩
  obtain ⟨hev, hent, hest, hsame⟩ := hf r hr
  obtain ⟨hev', hent', hest', hsame'⟩ := hg (f r) (by rw [hrows]; exact List.mem_map_of_mem hr)
  have hid : (f r).id = r.id := congrArg DomainEvent.id hev
  rw [hid] at hent' hest' hsame'
  have hmem : r.id ∈ entryIds (done ++ done') ↔ r.id ∈ entryIds done ∨ r.id ∈ entryIds done' := by
    rw [entryIds, List.map_append, List.mem_append]
  rw [Function.comp_apply]
  constructor
  · exact hev'.trans hev
  · intro h
    by_cases hd : r.id ∈ entryIds done'
    · exact hent' hd
    · exact (hest' hd).trans (hent ((hmem.1 h).resolve_right hd))
  · intro h
    exact (hest' fun hd => h (hmem.2 (.inr hd))).trans (hest fun hd => h (hmem.2 (.inl hd)))
  · intro h
    exact (hsame' fun hd => h (hmem.2 (.inr hd))).trans (hsame fun hd => h (hmem.2 (.inl hd)))

/-- What is delivered in two parts is delivered. -/
theorem Drained.trans {s u t : OutboxWorld} {done done' : List OutboxEntry} (h : Drained s u done)
    (h' : Drained u t done') : Drained s t (done ++ done') := by
  have hrest : ∀ e ∈ done', e ∈ s.outbox.pending ∧ e.id ∉ entryIds done := by
    intro e he
    have hmem := h'.backlog he
    rw [h.table.pending, List.mem_filter] at hmem
    exact ⟨hmem.1, by simpa using hmem.2⟩
  refine ⟨?_, ?_, ?_, h.table.trans h'.table⟩
  · rw [entryIds, List.map_append, List.nodup_append']
    refine ⟨h.distinct, h'.distinct, fun id hid hid' => ?_⟩
    obtain ⟨e, he, rfl⟩ := List.mem_map.1 hid'
    exact (hrest e he).2 hid
  · exact List.append_subset.2 ⟨h.backlog, fun e he => (hrest e he).1⟩
  · rw [h'.accepted, h.accepted, List.map_append, List.append_assoc]

/-- What is delivered is no longer PENDIENTE. -/
theorem Drained.countPending {s t : OutboxWorld} (h : Drained s t done) :
    t.outbox.countPending + done.length = s.outbox.countPending := by
  have hperm : (s.outbox.pending.filter fun r => r.id ∈ entryIds done).Perm done := by
    refine (List.perm_ext_iff_of_nodup ?_ (List.Nodup.of_map _ h.distinct)).2 fun r => ?_
    · exact ((List.Nodup.of_map _ s.outbox.nodup).filter _).filter _
    rw [List.mem_filter, decide_eq_true_eq]
    constructor
    · rintro ⟨hr, hid⟩
      obtain ⟨e, he, heid⟩ := List.mem_map.1 hid
      have hmem : ∀ x ∈ s.outbox.pending, x ∈ s.outbox.rows := fun _ => List.mem_of_mem_filter
      have : e = r := List.inj_on_of_nodup_map s.outbox.nodup (hmem e (h.backlog he)) (hmem r hr)
        heid
      rw [← this]
      exact he
    · exact fun hr => ⟨h.backlog hr, List.mem_map_of_mem hr⟩
  have hsplit := List.length_eq_length_filter_add (l := s.outbox.pending)
    fun r => decide (r.id ∈ entryIds done)
  have hrest := congrArg List.length h.table.pending
  have hnot : (s.outbox.pending.filter fun r => !decide (r.id ∈ entryIds done)) =
      s.outbox.pending.filter fun r => r.id ∉ entryIds done := by
    exact List.filter_congr fun r _ => (decide_not ..).symm
  rw [hperm.length_eq, hnot, ← hrest] at hsplit
  change t.outbox.pending.length + done.length = s.outbox.pending.length
  omega

/-- When all is due, the batch is the first `limit` of the backlog. -/
theorem due_of_allDue {w : OutboxWorld} {now : Instant} (limit : Nat) (h : AllDue w)
    (hnow : w.clock ≤ now) :
    (w.outbox.due now limit none []).length = min limit w.outbox.countPending ∧
      w.outbox.due now limit none [] ⊆ w.outbox.pending := by
  have hfilter : (w.outbox.rows.filter fun r => r.estado = .pendiente &&
      r.proximoIntentoAt ≤ now && ((none : Option (List UUID)).all fun l => l.contains r.id) &&
        !([] : List UUID).contains r.id) = w.outbox.pending := by
    refine List.filter_congr fun r hr => ?_
    by_cases hp : r.estado = .pendiente
    · have hdue := h r (List.mem_filter.2 ⟨hr, by simpa using hp⟩)
      have : r.proximoIntentoAt ≤ now := Int.le_trans hdue hnow
      simp [hp, this]
    · simp [hp]
  unfold OutboxTable.due
  rw [hfilter]
  constructor
  · rw [List.length_take, List.length_insertionSort]
    rfl
  · intro e he
    exact (List.mem_insertionSort _).1 (List.mem_of_mem_take he)

/-- A sweep that reports has delivered the first `limit` of the backlog. -/
theorem Sweep.drained {w : OutboxWorld} (h : Sweep s limit done done done w) (hdue : AllDue s) :
    Drained s w done ∧ done.length = min limit s.outbox.countPending := by
  obtain ⟨now, hnow, hbatch⟩ := h.claimed
  obtain ⟨hlen, hsub⟩ := due_of_allDue limit hdue hnow
  rw [← hbatch] at hlen hsub
  refine ⟨⟨?_, hsub, h.accepted, h.table⟩, hlen⟩
  have := (s.outbox.due_spec now limit none []).2
  rw [← hbatch] at this
  exact this

/-! ## A sweep can run -/

/-- The step of a call that nothing disturbs, where it is enabled. -/
theorem sweep_next {s : OutboxSystem} {r : OutboxWorld × Dispatcher}
    (h : dispatcherStep s.shared (s.locals i) (.next {}) = some r) :
    ∃ u, outboxStep s (.call i (.next {})) = some u ∧ u.shared = r.1 ∧ u.locals i = r.2 := by
  obtain ⟨u, hu, hsh, hl, -⟩ := outboxProgram.step_of_call (i := i) h
  exact ⟨u, hu, hsh, hl⟩

/-- An undisturbed run of call `i` from `s` that reports. -/
def Reports (limit i : Nat) (s : OutboxSystem) : Prop :=
  ∃ as u, (∀ a ∈ as, Undisturbed limit i a) ∧ run outboxStep s as = some u ∧
    ∃ r, u.locals i = .reported r

/-- What reports after an undisturbed step reports before it too. -/
theorem Reports.step {s u : OutboxSystem} {a : Act DispatchAct OutboxEnv}
    (ha : Undisturbed limit i a) (h : outboxStep s a = some u) (hu : Reports limit i u) :
    Reports limit i s := by
  obtain ⟨as, v, has, hrun, hrep⟩ := hu
  refine ⟨a :: as, v, fun b hb => ?_, by rw [run_cons, h]; exact hrun, hrep⟩
  rcases List.mem_cons.1 hb with rfl | hb
  · exact ha
  · exact has b hb

theorem undisturbed_next (limit i : Nat) : Undisturbed limit i (.call i (.next {})) :=
  ⟨rfl, rfl, rfl, rfl, rfl⟩

/-- A delivery is saved. -/
theorem dispatchStep_save {o r : OutboxEntry} (limit : Nat) (now : Instant)
    (rest : List OutboxEntry) (n : Nat) (ho : o.entregadoAt.isSome)
    (hr : w.outbox.find? o.id = some r) :
    dispatchStep w limit none {} (.saving now o rest n) =
      some ({ w with outbox := w.outbox.save o }, .publishing now rest (n + 1)) := by
  simp [dispatchStep, hr, ho]

/-- From its claim on, by induction on the entries left: each is published, answered and saved. -/
theorem reports_publishing {now : Instant} {rest : List OutboxEntry} {n : Nat} {s : OutboxSystem}
    (hs : DispatchersOK s) (hi : s.locals i = .dispatchDue limit (.publishing now rest n)) :
    Reports limit i s := by
  induction rest generalizing s n with
  | nil =>
    obtain ⟨u, hu, -, hl⟩ := sweep_next (s := s) (i := i)
      (r := (s.shared, .dispatchDue limit (.finished n))) (by rw [hi]; rfl)
    obtain ⟨v, hv, -, hl'⟩ := sweep_next (s := u) (i := i)
      (r := (u.shared, .reported ⟨n, u.shared.outbox.countPending⟩)) (by rw [hl]; rfl)
    exact .step (undisturbed_next ..) hu (.step (undisturbed_next ..) hv
      ⟨[], v, fun _ h => absurd h List.not_mem_nil, rfl, _, hl'⟩)
  | cons e rest ih =>
    obtain ⟨u, hu, -, hl⟩ := sweep_next (s := s) (i := i) (r :=
      ({ s.shared with accepted := s.shared.accepted ++ [e.event.publication] },
        .dispatchDue limit (.answered now e rest n true))) (by rw [hi]; rfl)
    obtain ⟨v, hv, -, hl'⟩ := sweep_next (s := u) (i := i) (r :=
      (u.shared, .dispatchDue limit (.saving now (e.entregado u.shared.clock) rest n)))
      (by rw [hl]; rfl)
    have hok := outbox_relyGuarantee.step hs hu
    have hok' := outbox_relyGuarantee.step hok hv
    have hph := hok'.2 i
    rw [hl'] at hph
    obtain ⟨-, ⟨⟨row, hrow, -⟩, -⟩, -⟩ := hph
    obtain ⟨x, hx, -, hlx⟩ := sweep_next (s := v) (i := i) (r :=
      ({ v.shared with outbox := v.shared.outbox.save (e.entregado u.shared.clock) },
        .dispatchDue limit (.publishing now rest (n + 1)))) (by
      have hsave := dispatchStep_save (o := e.entregado u.shared.clock) limit now rest n rfl hrow
      rw [hl']
      change (dispatchStep ..).map _ = _
      rw [hsave]
      rfl)
    exact .step (undisturbed_next ..) hu (.step (undisturbed_next ..) hv
      (.step (undisturbed_next ..) hx (ih (outbox_relyGuarantee.step hok' hx) hlx)))

/-- An idle call can sweep. -/
theorem reports_idle {s : OutboxSystem} (limit : Nat) (hs : DispatchersOK s)
    (hi : s.locals i = .idle) :
    Reports limit i s := by
  obtain ⟨u, hu, -, hl, -⟩ := outboxProgram.step_of_call (i := i) (s := s) (b := .dispatchDue limit)
    (r := (s.shared, .dispatchDue limit .start)) (by rw [hi]; rfl)
  obtain ⟨v, hv, -, hl'⟩ := sweep_next (s := u) (i := i)
    (r := (u.shared, .dispatchDue limit (.claiming u.shared.clock))) (by rw [hl]; rfl)
  obtain ⟨x, hx, -, hlx⟩ := sweep_next (s := v) (i := i)
    (r := ({ v.shared with
        outbox := v.shared.outbox.lease (v.shared.outbox.due u.shared.clock limit none [])
          (u.shared.clock + seconds leaseSeconds) },
      .dispatchDue limit (.publishing u.shared.clock
        (v.shared.outbox.due u.shared.clock limit none []) 0))) (by rw [hl']; rfl)
  have hok := outbox_relyGuarantee.step (outbox_relyGuarantee.step (outbox_relyGuarantee.step hs hu)
    hv) hx
  have hstart : Undisturbed limit i (.call i (.dispatchDue limit)) := ⟨rfl, rfl⟩
  exact .step hstart hu (.step (undisturbed_next ..) hv
    (.step (undisturbed_next ..) hx (reports_publishing hok hlx)))

/-- Calls that are idle can sweep one after the other. -/
theorem sweeps_exist {is : List Nat} {s : OutboxSystem} (hs : DispatchersOK s) (hnd : is.Nodup)
    (hi : ∀ i ∈ is, s.locals i = .idle) : ∃ t, Sweeps limit is s t := by
  induction is generalizing s with
  | nil => exact ⟨s, .none⟩
  | cons i is ih =>
    obtain ⟨hnot, hnd⟩ := List.nodup_cons.1 hnd
    have hidle := hi i List.mem_cons_self
    obtain ⟨as, u, has, hrun, hrep⟩ := reports_idle limit hs hidle
    have hu := sweepingFrom_run hs hidle has hrun
    obtain ⟨t, ht⟩ := ih hu.ok hnd fun j hj => by
      rw [hu.others j fun hji => hnot (hji ▸ hj)]
      exact hi j (List.mem_cons_of_mem _ hj)
    exact ⟨t, .more hidle has hrun hrep ht⟩

/-! ## Sweeps -/

/-- Sweeps deliver what is due, `limit` entries each: by induction on the sweeps, what is left
after each is due still. -/
theorem sweeps_drain {is : List Nat} {s t : OutboxSystem} (h : Sweeps limit is s t)
    (hs : DispatchersOK s) (hdue : AllDue s.shared) :
    ∃ delivered, Drained s.shared t.shared delivered ∧
      delivered.length = min (is.length * limit) s.shared.outbox.countPending := by
  induction h with
  | none =>
    refine ⟨[], ⟨List.nodup_nil, List.nil_subset _, by simp, id, by simp, fun r _ => ?_⟩, by simp⟩
    exact ⟨rfl, fun h => absurd h List.not_mem_nil, fun _ => rfl, fun _ => rfl⟩
  | @more i is s u t as hi has hrun hrep _ ih =>
    have hu := sweepingFrom_run hs hi has hrun
    obtain ⟨r, hr⟩ := hrep
    have hsweeping := hu.sweeping
    rw [hr] at hsweeping
    obtain ⟨done, -, hsweep⟩ := hsweeping
    obtain ⟨hdrained, hlen⟩ := hsweep.drained hdue
    have hdue' : AllDue u.shared := by
      intro e he
      rw [hdrained.table.pending, List.mem_filter] at he
      exact Int.le_trans (hdue e he.1) hu.clock
    obtain ⟨done', hdrained', hlen'⟩ := ih hu.ok hdue'
    refine ⟨done ++ done', hdrained.trans hdrained', ?_⟩
    have hcount := hdrained.countPending
    rw [List.length_append, List.length_cons, Nat.succ_mul]
    omega

/-- Time passing. -/
theorem outboxStep_tick {s t : OutboxSystem} {d : Nat}
    (h : outboxStep s (.env (.tick d)) = some t) :
    t = ⟨{ s.shared with clock := s.shared.clock + d }, s.locals⟩ :=
  (Option.some.inj h).symm

/-- When the wait has passed, every PENDIENTE row is due. -/
theorem allDue_of_tick {s t : OutboxSystem} {d : Nat} (hs : DispatchersOK s) (hd : maxWait ≤ d)
    (h : outboxStep s (.env (.tick d)) = some t) : DispatchersOK t ∧ AllDue t.shared := by
  refine ⟨outbox_relyGuarantee.step hs h, fun r hr => ?_⟩
  obtain rfl := outboxStep_tick h
  have hmem := List.mem_filter.1 hr
  have hdue := hs.1.due (Rows.find?_of_mem hmem.1) (by simpa using hmem.2)
  simp only [Instant] at *
  omega

/-- **A backlog is delivered.** Whatever happened before, and whatever dispatchers were left behind:
when the longest wait has passed, idle calls can sweep the outbox one after the other, and however
they do it undisturbed, they publish and deliver `limit` entries each until none is left, each
entry once. -/
theorem outbox_drains {s s' : OutboxSystem} {d : Nat}
    (hs : Reachable OutboxSystem.Initial outboxStep s) (hd : maxWait ≤ d)
    (htick : outboxStep s (.env (.tick d)) = some s') (limit : Nat) (is : List Nat) :
    (is.Nodup → (∀ i ∈ is, s.locals i = .idle) → ∃ t, Sweeps limit is s' t) ∧
    ∀ t, Sweeps limit is s' t →
      t.shared.outbox.countPending = s.shared.outbox.countPending - is.length * limit ∧
      ∃ delivered : List OutboxEntry,
        delivered.length = min (is.length * limit) s.shared.outbox.countPending ∧
        (entryIds delivered).Nodup ∧
        (∀ e ∈ delivered, e ∈ s.shared.outbox.pending) ∧
        t.shared.accepted = s.shared.accepted ++ delivered.map (fun e => e.event.publication) ∧
        ∀ e ∈ delivered, ∃ r, t.shared.outbox.find? e.id = some r ∧ r.event = e.event ∧
          r.estado = .entregado := by
  obtain ⟨hok, hdue⟩ := allDue_of_tick (outbox_inv hs) hd htick
  obtain rfl := outboxStep_tick htick
  refine ⟨fun hnd hi => sweeps_exist hok hnd hi, fun t ht => ?_⟩
  obtain ⟨delivered, h, hlen⟩ := sweeps_drain ht hok hdue
  have hcount := h.countPending
  refine ⟨?_, delivered, hlen, h.distinct, h.backlog, h.accepted, fun e he => ?_⟩
  · simp only at hlen hcount
    omega
  · obtain ⟨f, hrows, hf⟩ := h.table
    have hmem := List.mem_of_mem_filter (h.backlog he)
    obtain ⟨hev, hent, -, -⟩ := hf e hmem
    refine ⟨f e, Rows.find?_eq_some.2 ⟨?_, congrArg DomainEvent.id hev⟩, hev,
      hent (List.mem_map_of_mem he)⟩
    rw [hrows]
    exact List.mem_map_of_mem hmem

/-- A dispatcher that claimed the sample event and died publishing it. -/
def sampleDead : List (Act DispatchAct OutboxEnv) :=
  [.env (.add sampleEvent), .call 0 (.dispatchDue 1), .call 0 (.next {}), .call 0 (.next {}),
    .call 0 (.next { dies := true })]

/-- A sweep takes up an event whose dispatcher died, after the lease. -/
theorem outbox_drains_dead : ∃ s s' t, run outboxStep sampleOutbox sampleDead = some s ∧
    outboxStep s (.env (.tick 180000000)) = some s' ∧ Sweeps 1 [1] s' t ∧
    t.shared.accepted = [sampleEvent.publication] ∧ t.shared.outbox.countPending = 0 := by
  have hrun : ∃ s, run outboxStep sampleOutbox sampleDead = some s ∧
      s.shared.accepted = [] ∧ s.shared.outbox.pending.map OutboxEntry.event = [sampleEvent] ∧
      s.locals 1 = .idle := by
    refine ⟨_, rfl, rfl, by decide, rfl⟩
  obtain ⟨s, hs, hacc, hpend, hidle⟩ := hrun
  obtain ⟨hex, hall⟩ := outbox_drains (d := 180000000) (.run (.start sampleOutbox_initial) hs)
    (by decide) rfl 1 [1]
  obtain ⟨t, ht⟩ := hex (List.nodup_singleton 1) (by simpa using hidle)
  obtain ⟨hcount, delivered, hlen, -, hmem, hacc', -⟩ := hall t ht
  have hone : s.shared.outbox.countPending = 1 := by
    have := congrArg List.length hpend
    rw [List.length_map] at this
    exact this
  rw [hone] at hlen hcount
  obtain ⟨e, rfl⟩ := List.length_eq_one_iff.1 hlen
  have he : e.event = sampleEvent := by
    have := List.mem_map_of_mem (f := OutboxEntry.event) (hmem e List.mem_cons_self)
    rw [hpend] at this
    exact List.mem_singleton.1 this
  refine ⟨s, _, t, hs, rfl, ht, ?_, hcount⟩
  rw [hacc', hacc, List.map_singleton, he]
  rfl

end Aeropass
