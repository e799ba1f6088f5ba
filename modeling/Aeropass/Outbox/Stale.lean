import Aeropass.Outbox.Delivery

/-!
# Saves over a delivered row

`save` writes the outcome of a claim without looking at the row it overwrites. A dispatcher slower
than its lease can so turn a delivered row back into a pending one. A delivered event stays
delivered exactly along the runs in which no failed outcome is saved over a delivered row
(`delivered_stays_iff`), and so along those in which every save is made within the lease of its
claim.
-/

namespace Aeropass

open Runs Threads

variable {s t u v : OutboxSystem}

/-- The row of an event is ENTREGADO, with its instant. -/
def Delivered (s : OutboxSystem) (id : UUID) : Prop :=
  ∃ r, s.shared.outbox.find? id = some r ∧ r.estado = .entregado ∧ r.entregadoAt.isSome

/-- The step saves the outcome of a failed publish of the event. -/
def SavesFailure (id : UUID) (s : OutboxSystem) (a : Act DispatchAct OutboxEnv)
    (t : OutboxSystem) : Prop :=
  ∃ i b now o rest n m, a = .call i b ∧ (s.locals i).phase = .saving now o rest n ∧
    (t.locals i).phase = .publishing now rest m ∧ o.estado = .pendiente ∧ o.id = id

/-- A step that saves a failed outcome does not find its row delivered. -/
def SavesFresh (s : OutboxSystem) (a : Act DispatchAct OutboxEnv) (t : OutboxSystem) : Prop :=
  ∀ id, SavesFailure id s a t → ¬ Delivered s id

/-- A step that saves an outcome is made before the lease of its claim ends. -/
def SavesInLease (s : OutboxSystem) (a : Act DispatchAct OutboxEnv) (t : OutboxSystem) : Prop :=
  ∀ i b now o rest n m, a = .call i b → (s.locals i).phase = .saving now o rest n →
    (t.locals i).phase = .publishing now rest m → s.shared.clock < now + seconds leaseSeconds

/-- Delivered events stay delivered along the run. -/
def DeliveredStays (s : OutboxSystem) (as : List (Act DispatchAct OutboxEnv)) : Prop :=
  ∀ pre mid post u v id, as = pre ++ mid ++ post → run outboxStep s pre = some u →
    run outboxStep u mid = some v → Delivered u id → Delivered v id

/-- A delivered row that a step does not overwrite with a failure stays delivered. -/
theorem delivered_step (hs : DispatchersOK s) {a : Act DispatchAct OutboxEnv}
    (hst : outboxStep s a = some t) (hf : SavesFresh s a t) {id : UUID} (h : Delivered s id) :
    Delivered t id := by
  obtain ⟨r, hr, he, hat⟩ := h
  rcases outboxStep_effect hst with ⟨i, b, rfl, heff, -⟩ | ⟨e, rfl, -, -, hk⟩
  · generalize hph : (s.locals i).phase = ph at heff
    generalize hph' : (t.locals i).phase = ph' at heff
    cases heff with
    | other ho => exact ⟨r, by rw [ho]; exact hr, he, hat⟩
    | claim hdue _ hw =>
      refine ⟨r, ?_, he, hat⟩
      rw [hw]
      change (s.shared.outbox.lease _ _).find? id = some r
      rw [OutboxTable.find?_lease, hr, Option.map_some, if_neg]
      rintro hin
      obtain ⟨e, hmem, rfl⟩ := List.mem_map.1 hin
      obtain ⟨hre, hpend, -⟩ := hdue e hmem
      rw [hr, Option.some.injEq] at hre
      subst hre
      rw [he] at hpend
      cases hpend
    | @save now o rest n m _ hw =>
      rw [Delivered, hw]
      change ∃ r, (s.shared.outbox.save o).find? id = some r ∧ _
      rw [OutboxTable.find?_save]
      by_cases hid : o.id = id
      · rw [if_pos hid, hr]
        refine ⟨_, rfl, ?_⟩
        -- the outcome is a delivery, since a failed one would not be fresh
        have hdel : o.estado = .entregado := by
          cases hest : o.estado with
          | entregado => rfl
          | pendiente =>
            exact absurd ⟨r, hr, he, hat⟩
              (hf id ⟨i, b, now, o, rest, n, m, rfl, hph, hph', hest, hid⟩)
        have hok : DispatchPhase.OK s.shared (.saving now o rest n) := hph ▸ hs.2 i
        exact ⟨hdel, (hok.2.1.delivered hdel).2⟩
      · rw [if_neg hid]
        exact ⟨r, hr, he, hat⟩
  · exact ⟨r, hk id r hr, he, hat⟩

/-- A failed outcome leaves its row PENDIENTE. -/
theorem not_delivered_of_savesFailure {a : Act DispatchAct OutboxEnv} {id : UUID}
    (hst : outboxStep s a = some t) (hf : SavesFailure id s a t) : ¬ Delivered t id := by
  obtain ⟨i, b, now, o, rest, n, m, rfl, hph, hph', hest, rfl⟩ := hf
  rintro ⟨r, hr, he, -⟩
  rcases outboxStep_effect hst with ⟨i', b', ha, heff, -⟩ | ⟨e, ha, -⟩
  · cases ha
    rw [hph, hph'] at heff
    cases heff with
    | other _ _ _ _ hs => cases hs
    | save _ hw =>
      rw [hw] at hr
      have hr : (s.shared.outbox.save o).find? o.id = some r := hr
      rw [OutboxTable.find?_save, if_pos rfl, Option.map_eq_some_iff] at hr
      obtain ⟨r₀, -, rfl⟩ := hr
      rw [show (OutboxTable.saveRow o r₀).estado = o.estado from rfl, hest] at he
      cases he
  · cases ha

/-! ## Saves within their lease -/

/-- While the lease of a claim lasts, its rows are PENDIENTE and due no earlier than its end, and
whoever else has claimed one of them is past its own lease. -/
structure Exclusive (s : OutboxSystem) : Prop where
  nodup : ∀ i, (s.locals i).phase.ids.Nodup
  row : ∀ {i id}, id ∈ (s.locals i).phase.ids →
    s.shared.clock < (s.locals i).phase.claimedAt + seconds leaseSeconds →
    ∃ r, s.shared.outbox.find? id = some r ∧ r.estado = .pendiente ∧
      (s.locals i).phase.claimedAt + seconds leaseSeconds ≤ r.proximoIntentoAt
  alone : ∀ {i j id}, j ≠ i → id ∈ (s.locals i).phase.ids → id ∈ (s.locals j).phase.ids →
    s.shared.clock < (s.locals i).phase.claimedAt + seconds leaseSeconds →
    (s.locals j).phase.claimedAt + seconds leaseSeconds ≤ s.shared.clock

/-- Without calls no event is held. -/
theorem OutboxSystem.Initial.exclusive (h : s.Initial) : Exclusive s := by
  have hph : ∀ i, (s.locals i).phase = .start := by
    intro i
    rw [h.2.2]
    rfl
  constructor
  · intro i
    rw [hph i]
    exact List.nodup_nil
  · intro i id hid
    rw [hph i] at hid
    cases hid
  · intro i j id _ hid
    rw [hph i] at hid
    cases hid

/-- Leases stay exclusive when dispatchers only drop claims and the rows under a lease stay. -/
theorem Exclusive.shrink (h : Exclusive s) (hclock : s.shared.clock ≤ t.shared.clock)
    (hids : ∀ i, (t.locals i).phase.ids.Sublist (s.locals i).phase.ids ∧
      ((t.locals i).phase.ids ≠ [] → (t.locals i).phase.claimedAt = (s.locals i).phase.claimedAt))
    (hrows : ∀ {i id r}, id ∈ (t.locals i).phase.ids →
      t.shared.clock < (t.locals i).phase.claimedAt + seconds leaseSeconds →
      s.shared.outbox.find? id = some r → t.shared.outbox.find? id = some r) : Exclusive t := by
  have hback : ∀ {i id}, id ∈ (t.locals i).phase.ids → id ∈ (s.locals i).phase.ids ∧
      (t.locals i).phase.claimedAt = (s.locals i).phase.claimedAt := by
    intro i id hid
    exact ⟨(hids i).1.subset hid, (hids i).2 (List.ne_nil_of_mem hid)⟩
  constructor
  · intro i
    exact (h.nodup i).sublist (hids i).1
  · intro i id hid hlt
    obtain ⟨hid', hat⟩ := hback hid
    obtain ⟨r, hr, hp, hle⟩ := h.row hid' (Int.lt_of_le_of_lt hclock (hat ▸ hlt))
    exact ⟨r, hrows hid hlt hr, hp, by rw [hat]; exact hle⟩
  · intro i j id hij hid hjd hlt
    obtain ⟨hid', hat⟩ := hback hid
    obtain ⟨hjd', hjat⟩ := hback hjd
    rw [hjat]
    exact Int.le_trans (h.alone hij hid' hjd' (Int.lt_of_le_of_lt hclock (hat ▸ hlt))) hclock

/-- A claim takes only rows whose other claims are past their lease. -/
theorem Exclusive.claim (h : Exclusive s) {k : Nat} {now : Instant} {claimed : List OutboxEntry}
    {n : Nat} (hnow : now ≤ s.shared.clock)
    (hph : (s.locals k).phase = .claiming now)
    (hph' : (t.locals k).phase = .publishing now claimed n)
    (hother : ∀ j, j ≠ k → t.locals j = s.locals j)
    (hdue : ∀ e ∈ claimed, s.shared.outbox.find? e.id = some e ∧ e.estado = .pendiente ∧
      e.proximoIntentoAt ≤ now) (hnd : (claimed.map OutboxEntry.id).Nodup)
    (hw : t.shared = { s.shared with
      outbox := s.shared.outbox.lease claimed (now + seconds leaseSeconds) }) : Exclusive t := by
  have hclock : t.shared.clock = s.shared.clock := by rw [hw]
  have hfind : ∀ id, t.shared.outbox.find? id = (s.shared.outbox.find? id).map fun r =>
      if id ∈ claimed.map OutboxEntry.id then
        { r with proximoIntentoAt := now + seconds leaseSeconds } else r := by
    intro id
    rw [hw]
    exact OutboxTable.find?_lease ..
  have hexpired : ∀ {i id}, id ∈ (s.locals i).phase.ids → id ∈ claimed.map OutboxEntry.id →
      (s.locals i).phase.claimedAt + seconds leaseSeconds ≤ s.shared.clock := by
    intro i id hid hin
    by_contra hlt
    obtain ⟨r, hr, -, hle⟩ := h.row hid (Int.not_le.1 hlt)
    obtain ⟨e, he, rfl⟩ := List.mem_map.1 hin
    obtain ⟨hre, -, hdue⟩ := hdue e he
    rw [hr, Option.some.injEq] at hre
    subst hre
    exact hlt (Int.le_trans hle (Int.le_trans hdue hnow))
  have hk : (t.locals k).phase.ids = claimed.map OutboxEntry.id := by rw [hph']; rfl
  constructor
  · exact Sys.forall_locals (fun _ l => l.phase.ids.Nodup) (by rw [hk]; exact hnd) hother
      fun i _ => h.nodup i
  · intro i id hid hlt
    rw [hfind]
    by_cases hik : i = k
    · subst hik
      rw [hk] at hid
      obtain ⟨e, he, rfl⟩ := List.mem_map.1 hid
      rw [(hdue e he).1, hph']
      refine ⟨_, rfl, ?_⟩
      simp only [hid, if_true]
      exact ⟨(hdue e he).2.1, Int.le_refl _⟩
    · rw [hother i hik] at hid hlt ⊢
      rw [hclock] at hlt
      obtain ⟨r, hr, hp, hle⟩ := h.row hid hlt
      refine ⟨r, ?_, hp, hle⟩
      rw [hr, Option.map_some, if_neg]
      intro hin
      exact Int.not_le.2 hlt (hexpired hid hin)
  · intro i j id hij hid hjd hlt
    rw [hclock] at hlt ⊢
    by_cases hik : i = k
    · subst hik
      rw [hother j hij] at hjd ⊢
      exact hexpired hjd (hk ▸ hid)
    · rw [hother i hik] at hid hlt
      by_cases hjk : j = k
      · subst hjk
        exact absurd (hexpired hid (hk ▸ hjd)) (Int.not_le.2 hlt)
      · rw [hother j hjk] at hjd ⊢
        exact h.alone hij hid hjd hlt

/-- Steps that save within the lease keep leases exclusive. -/
theorem exclusive_step (hs : DispatchersOK s) (h : Exclusive s) {a : Act DispatchAct OutboxEnv}
    (hst : outboxStep s a = some t) (hl : SavesInLease s a t) : Exclusive t := by
  rcases outboxStep_effect hst with ⟨k, b, rfl, heff, hother⟩ | ⟨e, rfl, hloc, hclock, hk⟩
  · have hshrunk := fun hown => Sys.forall_locals (fun i l => l.phase.ids.Sublist
        (s.locals i).phase.ids ∧ (l.phase.ids ≠ [] →
          l.phase.claimedAt = (s.locals i).phase.claimedAt)) hown hother
      fun _ _ => ⟨List.Sublist.refl _, fun _ => rfl⟩
    generalize hph : (s.locals k).phase = ph at heff
    generalize hph' : (t.locals k).phase = ph' at heff
    cases heff with
    | other ho hc hsub hat _ =>
      refine h.shrink (by rw [hc]) (hshrunk ?_) fun _ _ hr => by rwa [ho]
      rw [hph, hph']
      exact ⟨hsub, hat⟩
    | @claim now claimed n hdue hnd hw =>
      have hnow : DispatchPhase.OK s.shared (.claiming now) := hph ▸ hs.2 k
      exact h.claim hnow hph hph' hother hdue hnd hw
    | @save now o rest n m _ hw =>
      have hids : (s.locals k).phase.ids = o.id :: rest.map OutboxEntry.id := by rw [hph]; rfl
      have hids' : (t.locals k).phase.ids = rest.map OutboxEntry.id := by rw [hph']; rfl
      refine h.shrink (by rw [hw]) (hshrunk ?_) fun {i id r} hid hlt hr => ?_
      · rw [hids, hids', hph, hph']
        exact ⟨List.sublist_cons_self .., fun _ => rfl⟩
      · have hne : o.id ≠ id := by
          rintro rfl
          by_cases hik : i = k
          · subst hik
            have hnd := h.nodup i
            rw [hids, List.nodup_cons] at hnd
            exact hnd.1 (hids' ▸ hid)
          · -- another dispatcher with this row is past its lease
            have hlease := hl k b now o rest n m rfl hph hph'
            rw [hother i hik] at hid hlt
            have := h.alone hik (show o.id ∈ (s.locals k).phase.ids by rw [hids]; simp) hid
              (by rw [hph]; exact hlease)
            rw [hw] at hlt
            exact Int.not_le.2 hlt this
        rw [hw]
        change (s.shared.outbox.save o).find? id = some r
        rw [OutboxTable.find?_save, if_neg hne]
        exact hr
  · refine h.shrink hclock (fun i => ?_) fun _ _ hr => hk _ _ hr
    rw [hloc]
    exact ⟨List.Sublist.refl _, fun _ => rfl⟩

/-- A save within an exclusive lease finds its row PENDIENTE. -/
theorem Exclusive.fresh (h : Exclusive s) {a : Act DispatchAct OutboxEnv}
    (hl : SavesInLease s a t) : SavesFresh s a t := by
  rintro id ⟨i, b, now, o, rest, n, m, rfl, hph, hph', -, rfl⟩ ⟨r, hr, he, -⟩
  have hlease := hl i b now o rest n m rfl hph hph'
  have hid : o.id ∈ (s.locals i).phase.ids := by
    rw [hph]
    simp [DispatchPhase.ids]
  obtain ⟨r', hr', hp, -⟩ := h.row hid (by rw [hph]; exact hlease)
  rw [hr, Option.some.injEq] at hr'
  subst hr'
  rw [he] at hp
  cases hp

/-! ## Runs -/

/-- **When a delivered event stays delivered.** Along every run from an initial state, delivered
events stay delivered exactly when no step saves a failed outcome over a delivered row; it is
enough that every save is made before the lease of its claim ends. -/
theorem delivered_stays_iff (h0 : s.Initial) (as : List (Act DispatchAct OutboxEnv)) :
    (DeliveredStays s as ↔ EachStep outboxStep SavesFresh s as) ∧
      (EachStep outboxStep SavesInLease s as → DeliveredStays s as) := by
  have hrg : ∀ u a v, DispatchersOK u → outboxStep u a = some v → DispatchersOK v :=
    fun u a v hu hst => outbox_relyGuarantee.step hu hst
  have hiff : DeliveredStays s as ↔ EachStep outboxStep SavesFresh s as := by
    constructor
    · intro h pre a post u v has hu hst id hf hd
      exact not_delivered_of_savesFailure hst hf
        (h pre [a] post u v id (by rw [has]; simp) hu (by rw [run_singleton]; exact hst) hd)
    · intro h pre mid post u v id has hu hv hd
      subst has
      refine ((h.left.right hu).invariant (I := fun u => DispatchersOK u ∧ Delivered u id) ?_ hv
        ⟨outbox_relyGuarantee.run h0.ok hu, hd⟩).2
      intro u a v hI hf hst
      exact ⟨hrg u a v hI.1 hst, delivered_step hI.1 hst hf hI.2⟩
  refine ⟨hiff, fun h => hiff.2 ?_⟩
  refine h.of_invariant (I := fun u => DispatchersOK u ∧ Exclusive u) ?_ ?_ ⟨h0.ok, h0.exclusive⟩
  · intro u a v hI hl hst
    exact ⟨hrg u a v hI.1 hst, exclusive_step hI.1 hI.2 hst hl⟩
  · intro u a v hI hl _
    exact hI.2.fresh hl

/-- Dispatcher 0 claims the event and hangs; after its lease dispatcher 1 claims and delivers it. -/
def staleRunDelivered : List (Act DispatchAct OutboxEnv) :=
  .env (.add sampleEvent) :: dispatchThrough 0 0 {} ++
    .env (.tick 31000000) :: dispatchThrough 1 3 {}

/-- Then the publish of dispatcher 0 fails, and it saves that. -/
def staleRunOverwritten : List (Act DispatchAct OutboxEnv) :=
  List.replicate 3 (.call 0 (.next { accepts := false, raises := some "timeout" }))

/-- The delivered row is PENDIENTE again. -/
theorem staleRun_overwrites :
    ¬ DeliveredStays sampleOutbox (staleRunDelivered ++ staleRunOverwritten) := by
  intro h
  obtain ⟨u, hu⟩ := Option.isSome_iff_exists.1 (by decide +kernel :
    (run outboxStep sampleOutbox staleRunDelivered).isSome = true)
  obtain ⟨v, hv⟩ := Option.isSome_iff_exists.1 (by cases hu; decide +kernel :
    (run outboxStep u staleRunOverwritten).isSome = true)
  have hkeep := h staleRunDelivered staleRunOverwritten [] u v 5 (by simp) hu hv
  cases hu
  cases hv
  obtain ⟨r, hr, he, -⟩ := hkeep ⟨_, rfl, rfl, rfl⟩
  cases hr
  cases he

/-- Not every run keeps delivered events delivered. -/
theorem delivered_stays_fails :
    ¬ ∀ (s : OutboxSystem) (as : List (Act DispatchAct OutboxEnv)), s.Initial →
      DeliveredStays s as :=
  fun h => staleRun_overwrites (h _ _ sampleOutbox_initial)

/-- That run saves a failed outcome over a delivered row. -/
theorem delivered_stays_iff_sample :
    ¬ EachStep outboxStep SavesFresh sampleOutbox (staleRunDelivered ++ staleRunOverwritten) :=
  fun h => staleRun_overwrites ((delivered_stays_iff sampleOutbox_initial _).1.2 h)

end Aeropass
