import Aeropass.Domain.Events
import Aeropass.Lib.Rows
import Mathlib.Data.List.Sort

/-!
# The outbox table

`outbox_eventos` with the operations of `SqlOutboxRepository`. A row stands here for the entry it
stores; `Outbox/Columns.lean` has its columns, and `_to_entry` reading the event back from them.
-/

namespace Aeropass

/-- The primary key of `outbox_eventos`. -/
def OutboxEntry.id (e : OutboxEntry) : UUID := e.event.id

/-- `outbox_eventos`. -/
abbrev OutboxTable := Rows OutboxEntry.id

namespace OutboxTable

variable {t t' : OutboxTable} {e r : OutboxEntry} {id : UUID}

/-- `claim_due`: up to `limit` rows that are PENDIENTE and due, in the order they are due, without
those another transaction holds (`SKIP LOCKED`). -/
def due (t : OutboxTable) (now : Instant) (limit : Nat) (ids : Option (List UUID))
    (skip : List UUID) : List OutboxEntry :=
  ((t.rows.filter fun r =>
    r.estado = .pendiente && r.proximoIntentoAt ≤ now && (ids.all fun l => l.contains r.id) &&
      !skip.contains r.id).insertionSort
    fun r r' => r.proximoIntentoAt ≤ r'.proximoIntentoAt).take limit

/-- `claim_due`: the rows it returns get the lease. -/
def lease (t : OutboxTable) (claimed : List OutboxEntry) (leaseUntil : Instant) : OutboxTable :=
  t.map (fun r => if r.id ∈ claimed.map OutboxEntry.id then
      { r with proximoIntentoAt := leaseUntil } else r) fun r => by
    split <;> rfl

/-- What `save` assigns to the row. -/
def saveRow (e r : OutboxEntry) : OutboxEntry :=
  { r with
    estado := e.estado
    intentos := e.intentos
    proximoIntentoAt := e.proximoIntentoAt
    ultimoError := e.ultimoError
    entregadoAt := e.entregadoAt }

/-- `save`. -/
def save (t : OutboxTable) (e : OutboxEntry) : OutboxTable :=
  t.modify e.id (saveRow e) fun _ => rfl

/-- `count_pending`. -/
def countPending (t : OutboxTable) : Nat := (t.rows.filter fun r => r.estado = .pendiente).length

/-- The rows that `claim_due` returns are PENDIENTE and due rows of the table, each once. -/
theorem due_spec (t : OutboxTable) (now : Instant) (limit : Nat) (ids : Option (List UUID))
    (skip : List UUID) :
    (∀ e ∈ t.due now limit ids skip, t.find? e.id = some e ∧ e.estado = .pendiente ∧
      e.proximoIntentoAt ≤ now) ∧ ((t.due now limit ids skip).map OutboxEntry.id).Nodup := by
  constructor
  · intro e he
    have he := (List.mem_insertionSort _).1 (List.mem_of_mem_take he)
    simp only [List.mem_filter, Bool.and_eq_true, decide_eq_true_eq] at he
    exact ⟨Rows.find?_of_mem he.1, he.2.1.1.1, he.2.1.1.2⟩
  · refine List.Sublist.nodup ((List.take_sublist _ _).map _) ?_
    refine ((List.perm_insertionSort _ _).map _).nodup_iff.2 ?_
    exact List.Sublist.nodup (List.Sublist.map _ List.filter_sublist) t.nodup

/-- What is found after a lease. -/
theorem find?_lease (t : OutboxTable) (claimed : List OutboxEntry) (leaseUntil : Instant)
    (id : UUID) :
    (t.lease claimed leaseUntil).find? id = (t.find? id).map fun r =>
      if id ∈ claimed.map OutboxEntry.id then { r with proximoIntentoAt := leaseUntil } else r := by
  rw [lease, Rows.find?_map]
  cases h : t.find? id with
  | none => rfl
  | some r => rw [← Rows.find?_key h]; rfl

theorem find?_save (t : OutboxTable) (e : OutboxEntry) (id : UUID) :
    (t.save e).find? id = if e.id = id then (t.find? id).map (saveRow e) else t.find? id :=
  Rows.find?_modify ..

/-- Later tables have the same events. -/
def Keeps (t t' : OutboxTable) : Prop :=
  ∀ id r, t.find? id = some r → ∃ r', t'.find? id = some r' ∧ r'.event = r.event

theorem Keeps.refl (t : OutboxTable) : Keeps t t := fun _ r h => ⟨r, h, rfl⟩

theorem Keeps.trans {t'' : OutboxTable} (h : Keeps t t') (h' : Keeps t' t'') : Keeps t t'' := by
  intro id r hr
  obtain ⟨r', hr', he⟩ := h id r hr
  obtain ⟨r'', hr'', he'⟩ := h' id r' hr'
  exact ⟨r'', hr'', he'.trans he⟩

theorem keeps_lease (t : OutboxTable) (claimed : List OutboxEntry) (leaseUntil : Instant) :
    Keeps t (t.lease claimed leaseUntil) := by
  intro id r hr
  rw [find?_lease, hr]
  refine ⟨_, rfl, ?_⟩
  dsimp only
  split <;> rfl

theorem keeps_save (t : OutboxTable) (e : OutboxEntry) : Keeps t (t.save e) := by
  intro id r hr
  rw [find?_save, hr]
  split
  · exact ⟨_, rfl, rfl⟩
  · exact ⟨r, rfl, rfl⟩

/-- An insert keeps the other events. -/
theorem keeps_insert (h : t.insert? e = some t') : Keeps t t' := by
  intro id r hr
  rw [Rows.find?_insert? h]
  split
  · next hid =>
    subst hid
    rw [(Rows.insert?_eq_some.1 h).1] at hr
    cases hr
  · exact ⟨r, hr, rfl⟩

end OutboxTable

end Aeropass
