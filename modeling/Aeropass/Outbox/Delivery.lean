import Aeropass.Outbox.Inv

/-!
# No event is lost

A delivered row was accepted by the publisher, an event that was never accepted is still there and
PENDIENTE, and a pending row is due within three minutes. Along a run the claims and saves of each
row are observed (`seen`): between two claims of a row without a save of it lies a whole lease.
-/

namespace Aeropass

open Runs Threads

/-- What is observed of the dispatchers: the ids and the `now` of each `claim_due`, and the id of
each `save`. -/
inductive OutboxSeen where
  | claimed (ids : List UUID) (now : Instant)
  | saved (id : UUID)

/-- What a step of `_dispatch` shows. -/
def seenPhase : DispatchPhase → DispatchPhase → List OutboxSeen
  | .claiming now, .publishing _ claimed _ => [.claimed (claimed.map OutboxEntry.id) now]
  | .saving _ outcome _ _, .publishing .. => [.saved outcome.id]
  | _, _ => []

/-- What a step of the system shows. -/
def seen (s : OutboxSystem) (a : Act DispatchAct OutboxEnv) (t : OutboxSystem) :
    List OutboxSeen :=
  match a with
  | .call i _ => seenPhase (s.locals i).phase (t.locals i).phase
  | .env _ => []

variable {w : OutboxWorld} {s t : OutboxSystem}

/-! ## What a step can do -/

/-- The ids of the entries that a dispatcher has claimed and not saved yet. -/
def DispatchPhase.ids : DispatchPhase → List UUID
  | .publishing _ claimed _ => claimed.map OutboxEntry.id
  | .answered _ entry rest _ _ => entry.id :: rest.map OutboxEntry.id
  | .saving _ outcome rest _ => outcome.id :: rest.map OutboxEntry.id
  | .start | .claiming _ | .finished _ | .failed => []

/-- The `now` of the claim of those entries. -/
def DispatchPhase.claimedAt : DispatchPhase → Instant
  | .publishing now .. | .answered now .. | .saving now .. | .claiming now => now
  | .start | .finished _ | .failed => 0

/-- What a step of a dispatcher can do: claim a batch of due rows, save an outcome, or leave the
table and its claim. -/
inductive DispatchEffect (w w' : OutboxWorld) : DispatchPhase → DispatchPhase → Prop
  | other {ph ph'} : w'.outbox = w.outbox → w'.clock = w.clock → ph'.ids.Sublist ph.ids →
    (ph'.ids ≠ [] → ph'.claimedAt = ph.claimedAt) → seenPhase ph ph' = [] →
    DispatchEffect w w' ph ph'
  | claim {now claimed n} : (∀ e ∈ claimed, w.outbox.find? e.id = some e ∧ e.estado = .pendiente ∧
      e.proximoIntentoAt ≤ now) → (claimed.map OutboxEntry.id).Nodup →
    w' = { w with outbox := w.outbox.lease claimed (now + seconds leaseSeconds) } →
    DispatchEffect w w' (.claiming now) (.publishing now claimed n)
  | save {now o rest n m} : (w.outbox.find? o.id).isSome →
    w' = { w with outbox := w.outbox.save o } →
    DispatchEffect w w' (.saving now o rest n) (.publishing now rest m)

/-- What one step of a dispatch does to the table and the messages. -/
theorem dispatchStep_effect {limit : Nat} {ids : Option (List UUID)} {ch : DispatchChoice}
    {ph : DispatchPhase} {r : OutboxWorld × DispatchPhase}
    (h : dispatchStep w limit ids ch ph = some r) : DispatchEffect w r.1 ph r.2 := by
  have hstop : ∀ {ph ph'}, ph'.ids = [] → seenPhase ph ph' = [] → DispatchEffect w w ph ph' :=
    fun h0 hs => .other rfl rfl (by rw [h0]; exact List.nil_sublist _) (fun h => absurd h0 h) hs
  cases ph with
  | start => cases h; exact hstop rfl rfl
  | claiming now =>
    simp only [dispatchStep] at h
    split at h <;> cases h
    · exact hstop rfl rfl
    · exact .claim (w.outbox.due_spec now limit ids ch.skip).1
        (w.outbox.due_spec now limit ids ch.skip).2 rfl
  | publishing now claimed n =>
    cases claimed with
    | nil => cases h; exact hstop rfl rfl
    | cons e rest =>
      simp only [dispatchStep] at h
      split at h <;> cases h
      · exact hstop rfl rfl
      · exact .other rfl rfl (List.Sublist.refl _) (fun _ => rfl) rfl
  | answered now e rest n accepted =>
    simp only [dispatchStep] at h
    split at h
    · cases h; exact hstop rfl rfl
    split at h <;> cases h <;> exact .other rfl rfl (List.Sublist.refl _) (fun _ => rfl) rfl
  | saving now o rest n =>
    simp only [dispatchStep] at h
    split at h
    · cases h; exact hstop rfl rfl
    · next hd =>
      cases h
      refine .save ?_ rfl
      simp only [Bool.or_eq_true, not_or, Option.isNone_iff_eq_none] at hd
      exact Option.isSome_iff_ne_none.2 hd.2
  | finished | failed => cases h

/-- What one step of a dispatcher does to the table and the messages. -/
theorem dispatcherStep_effect {l : Dispatcher} {a : DispatchAct} {r : OutboxWorld × Dispatcher}
    (h : dispatcherStep w l a = some r) : DispatchEffect w r.1 l.phase r.2.phase := by
  unfold dispatcherStep at h
  split at h
  · cases h
    simp only [Dispatcher.phase]
    split
    · exact .other rfl rfl (List.Sublist.refl _) (fun h => absurd rfl h) rfl
    · exact .other rfl rfl (List.Sublist.refl _) (fun h => absurd rfl h) rfl
  · cases h; exact .other rfl rfl (List.Sublist.refl _) (fun h => absurd rfl h) rfl
  · obtain ⟨r', hr', rfl⟩ := Option.map_eq_some_iff.1 h
    exact dispatchStep_effect hr'
  · split at h
    · cases h; exact .other rfl rfl (List.Sublist.refl _) (fun h => absurd rfl h) rfl
    · obtain ⟨r', hr', rfl⟩ := Option.map_eq_some_iff.1 h
      exact dispatchStep_effect hr'
  · cases h

/-- A step of the system is one of a dispatcher, with its effect, or of the environment, which
leaves the rows there are. -/
theorem outboxStep_effect {a : Act DispatchAct OutboxEnv} (h : outboxStep s a = some t) :
    (∃ i b, a = .call i b ∧
      DispatchEffect s.shared t.shared (s.locals i).phase (t.locals i).phase ∧
      ∀ j, j ≠ i → t.locals j = s.locals j) ∨
    (∃ e, a = .env e ∧ t.locals = s.locals ∧ s.shared.clock ≤ t.shared.clock ∧
      ∀ id r, s.shared.outbox.find? id = some r → t.shared.outbox.find? id = some r) := by
  rcases Program.step_cases h with ⟨i, b, r, rfl, hc, hsh, hi, hother⟩ | ⟨e, rfl, he, ht⟩
  · refine .inl ⟨i, b, rfl, ?_, hother⟩
    rw [hsh, hi]
    exact dispatcherStep_effect hc
  · refine .inr ⟨e, rfl, ht, ?_⟩
    cases e with
    | tick d =>
      have he : some { s.shared with clock := s.shared.clock + d } = some t.shared := he
      rw [← Option.some.inj he]
      refine ⟨?_, fun _ _ hr => hr⟩
      simp only [Instant]
      omega
    | add event =>
      have he : outboxEnvStep s.shared (.add event) = some t.shared := he
      simp only [outboxEnvStep] at he
      split at he
      · obtain ⟨outbox, ho, hw⟩ := Option.map_eq_some_iff.1 he
        rw [← hw]
        refine ⟨Int.le_refl _, fun id r hr => ?_⟩
        rw [Rows.find?_insert? ho, if_neg]
        · exact hr
        · rintro rfl
          rw [(Rows.insert?_eq_some.1 ho).1] at hr
          cases hr
      · cases he

/-- What a step does to the table, as it shows. -/
inductive TableStep (t t' : OutboxTable) : List OutboxSeen → Prop
  | quiet : (∀ id r, t.find? id = some r → t'.find? id = some r) → TableStep t t' []
  | claim {now claimed} : (∀ e ∈ claimed, t.find? e.id = some e ∧ e.estado = .pendiente ∧
      e.proximoIntentoAt ≤ now) → t' = t.lease claimed (now + seconds leaseSeconds) →
      TableStep t t' [.claimed (claimed.map OutboxEntry.id) now]
  | save {o} : t' = t.save o → TableStep t t' [.saved o.id]

/-- What a step of the outbox does to its table, by what is seen. -/
theorem outboxStep_table {a : Act DispatchAct OutboxEnv} (h : outboxStep s a = some t) :
    TableStep s.shared.outbox t.shared.outbox (seen s a t) := by
  rcases outboxStep_effect h with ⟨i, b, rfl, heff, -⟩ | ⟨e, rfl, -, -, hk⟩
  · simp only [seen]
    generalize (s.locals i).phase = ph at heff
    generalize (t.locals i).phase = ph' at heff
    cases heff with
    | other ho _ _ _ hs => rw [hs, ho]; exact .quiet fun _ _ hr => hr
    | claim hdue _ hw => rw [hw]; exact .claim hdue rfl
    | save _ hw => rw [hw]; exact .save rfl
  · exact .quiet hk

/-! ## Leases -/

/-- Every claim in the log without a later save of the row leases it still. -/
def Leased (t : OutboxTable) (log : List OutboxSeen) : Prop :=
  ∀ pre ids now post id, log = pre ++ .claimed ids now :: post → id ∈ ids → .saved id ∉ post →
    ∃ r, t.find? id = some r ∧ now + seconds leaseSeconds ≤ r.proximoIntentoAt

/-- Two claims of a row in the log without a save of it in between are a lease apart. -/
def Spaced (log : List OutboxSeen) : Prop :=
  ∀ pre ids now mid ids' now' post id,
    log = pre ++ .claimed ids now :: mid ++ .claimed ids' now' :: post →
    id ∈ ids → id ∈ ids' → .saved id ∉ mid → now + seconds leaseSeconds ≤ now'

/-- One step keeps the leases, and makes no claim inside one. -/
theorem leased_step {t t' : OutboxTable} {log new : List OutboxSeen} (h : TableStep t t' new)
    (hl : Leased t log) (hs : Spaced log) : Leased t' (log ++ new) ∧ Spaced (log ++ new) := by
  cases h with
  | quiet hk =>
    rw [List.append_nil]
    refine ⟨fun pre ids now post id heq hid hns => ?_, hs⟩
    obtain ⟨r, hr, hle⟩ := hl pre ids now post id heq hid hns
    exact ⟨r, hk id r hr, hle⟩
  | @claim now₂ claimed hdue ht =>
    subst ht
    constructor
    · intro pre ids now post id heq hid hns
      rw [OutboxTable.find?_lease]
      rcases snoc_eq_append_cons heq with ⟨-, hcl, -⟩ | ⟨post', rfl, rfl⟩
      · -- the claim itself
        injection hcl with h1 h2
        subst h1 h2
        obtain ⟨e, he, rfl⟩ := List.mem_map.1 hid
        refine ⟨_, by rw [(hdue e he).1]; rfl, ?_⟩
        simp only [hid, if_true]
        exact Int.le_refl _
      · -- an earlier one, whose lease has ended if its row is claimed now
        obtain ⟨r, hr, hle⟩ := hl pre ids now post' id rfl hid fun hs =>
          hns (List.mem_append_left _ hs)
        refine ⟨_, by rw [hr]; rfl, ?_⟩
        by_cases hin : id ∈ claimed.map OutboxEntry.id
        · simp only [hin, if_true]
          obtain ⟨e, he, rfl⟩ := List.mem_map.1 hin
          rw [(hdue e he).1, Option.some.injEq] at hr
          subst hr
          have := (hdue e he).2.2
          simp only [leaseSeconds, seconds, Instant] at *
          omega
        · simpa only [hin, if_false] using hle
    · intro pre ids now mid ids' now' post id heq hid hid' hns
      rcases snoc_eq_append_cons heq with ⟨rfl, hcl, -⟩ | ⟨post', -, rfl⟩
      · injection hcl with h1 h2
        subst h1 h2
        obtain ⟨e, he, rfl⟩ := List.mem_map.1 hid'
        obtain ⟨r, hr, hle⟩ := hl pre ids now mid e.id rfl hid hns
        rw [(hdue e he).1, Option.some.injEq] at hr
        subst hr
        exact Int.le_trans hle (hdue e he).2.2
      · exact hs pre ids now mid ids' now' post' id rfl hid hid' hns
  | @save o ht =>
    subst ht
    constructor
    · intro pre ids now post id heq hid hns
      rcases snoc_eq_append_cons heq with ⟨-, hcl, -⟩ | ⟨post', rfl, rfl⟩
      · cases hcl
      · obtain ⟨r, hr, hle⟩ := hl pre ids now post' id rfl hid fun hs =>
          hns (List.mem_append_left _ hs)
        rw [OutboxTable.find?_save, if_neg]
        · exact ⟨r, hr, hle⟩
        · rintro rfl
          exact hns (by simp)
    · intro pre ids now mid ids' now' post id heq hid hid' hns
      rcases snoc_eq_append_cons heq with ⟨-, hcl, -⟩ | ⟨post', -, rfl⟩
      · cases hcl
      · exact hs pre ids now mid ids' now' post' id rfl hid hid' hns

/-- Along every run the claims of a row without a save in between are a lease apart. -/
theorem spaced_run {as : List (Act DispatchAct OutboxEnv)} (h : run outboxStep s as = some t) :
    Spaced (outputs seen outboxStep s as) := by
  refine (outputs_invariant (J := fun s log => Leased s.shared.outbox log ∧ Spaced log) ?_ ?_ h).2
  · constructor
    · intro pre ids now post id heq
      simp at heq
    · intro pre ids now mid ids' now' post id heq
      simp at heq
  · intro s log a t hj hst
    exact leased_step (outboxStep_table hst) hj.1 hj.2

/-- **No event is lost or falsely marked delivered, and retries never drift away.** For every run
from a reachable state: a delivered row was accepted by the publisher under its own id; the rows
stay, and one whose event was never accepted is PENDIENTE; a PENDIENTE row is due within 180 s; and
two claims of a row with no save of it in between, each at the `now` it was made with, are at least
the lease apart. -/
theorem outbox_no_loss {as : List (Act DispatchAct OutboxEnv)}
    (hs : Reachable OutboxSystem.Initial outboxStep s) (hrun : run outboxStep s as = some t) :
    (∀ id r, t.shared.outbox.find? id = some r → r.estado = .entregado →
      ∃ p ∈ t.shared.accepted, p.eventId = id.str ∧ p = r.event.publication) ∧
    (∀ id r, s.shared.outbox.find? id = some r →
      ∃ r', t.shared.outbox.find? id = some r' ∧ r'.event = r.event ∧
        (r.event.publication ∉ t.shared.accepted → r'.estado = .pendiente)) ∧
    (∀ id r, t.shared.outbox.find? id = some r → r.estado = .pendiente →
      r.proximoIntentoAt ≤ t.shared.clock + seconds 180) ∧
    ∀ pre ids now mid ids' now' post id,
      outputs seen outboxStep s as = pre ++ .claimed ids now :: mid ++ .claimed ids' now' :: post →
      id ∈ ids → id ∈ ids' → .saved id ∉ mid → now + seconds leaseSeconds ≤ now' := by
  have hok := outbox_inv (hs.run hrun)
  refine ⟨fun id r hr he => ?_, fun id r hr => ?_, fun id r hr he => hok.1.due hr he,
    spaced_run hrun⟩
  · refine ⟨_, (hok.1.delivered hr he).1, ?_, rfl⟩
    rw [← Rows.find?_key hr]
    rfl
  · obtain ⟨r', hr', he⟩ := (outboxRun_later (outbox_inv hs) hrun).rows id r hr
    refine ⟨r', hr', he, fun hna => ?_⟩
    cases hest : r'.estado with
    | pendiente => rfl
    | entregado => exact absurd (he ▸ (hok.1.delivered hr' hest).1) hna

/-! ## A run -/

/-- An empty outbox at the epoch. -/
def sampleOutbox : OutboxSystem := ⟨⟨Rows.empty, 0, []⟩, fun _ => .idle⟩

theorem sampleOutbox_initial : sampleOutbox.Initial := ⟨rfl, rfl, rfl⟩

/-- The event of an identity. -/
def sampleEvent : DomainEvent := CredencialEmitidaV1.fromIdentity (.crear 2 1 3 0) 5 0

/-- Dispatcher `i` claims what is due and makes the first `n` steps of its batch, with `ch` as the
publisher's answer. -/
def dispatchThrough (i n : Nat) (ch : DispatchChoice) : List (Act DispatchAct OutboxEnv) :=
  .call i (.dispatchDue 100) :: List.replicate (n + 2) (.call i (.next ch))

/-- A refused publish, and a delivery after the backoff. -/
theorem outbox_no_loss_sample :
    ∃ t, run outboxStep sampleOutbox (.env (.add sampleEvent) ::
        dispatchThrough 0 3 { accepts := false, raises := some "timeout" } ++
        .env (.tick 2000000) :: dispatchThrough 1 3 {}) = some t ∧
      (∃ r, t.shared.outbox.find? 5 = some r ∧ r.estado = .entregado) ∧
      ∃ p ∈ t.shared.accepted, p.eventId = (5 : UUID).str := by
  obtain ⟨t, ht⟩ := Option.isSome_iff_exists.1 (by decide +kernel :
    (run outboxStep sampleOutbox (.env (.add sampleEvent) ::
      dispatchThrough 0 3 { accepts := false, raises := some "timeout" } ++
      .env (.tick 2000000) :: dispatchThrough 1 3 {})).isSome = true)
  have hspec := outbox_no_loss (.start sampleOutbox_initial) ht
  cases ht
  obtain ⟨p, hp, hid, -⟩ := hspec.1 5 _ rfl rfl
  exact ⟨_, rfl, ⟨_, rfl, rfl⟩, p, hp, hid⟩

end Aeropass
