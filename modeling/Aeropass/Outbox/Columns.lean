import Aeropass.Outbox.Store

/-!
# The columns of the outbox table

The rows of `outbox_eventos`, and `_to_entry`, which reads an event back: its identity from columns,
its instant and its data from the payload. What JSONB gives back for a payload is a parameter. A
table of entries is stored as the table of their rows (`OutboxTable.stored`), and the operations of
`SqlOutboxRepository` on rows are those on entries, except that a claim hands out rebuilt entries.
-/

namespace Aeropass

/-- `OutboxEventoRow`. -/
structure OutboxEventoRow where
  id : UUID
  tipo : String
  version : Int
  payload : Json
  estado : EstadoEvento
  intentos : Nat
  proximoIntentoAt : Instant
  ultimoError : Option String
  createdAt : Instant
  entregadoAt : Option Instant
  deriving DecidableEq

/-- The row that `add` stores. -/
def OutboxEntry.toRow (entry : OutboxEntry) : OutboxEventoRow where
  id := entry.event.id
  tipo := entry.event.tipo
  version := entry.event.version
  payload := .object entry.event.toPayload
  estado := entry.estado
  intentos := entry.intentos
  proximoIntentoAt := entry.proximoIntentoAt
  ultimoError := entry.ultimoError
  createdAt := entry.event.ocurridoAt
  entregadoAt := entry.entregadoAt

/-- `datetime.fromisoformat(v.replace("Z", "+00:00"))`. -/
def readInstant : Json → Except PyError Instant
  | .str s =>
    match IsoFormat.fromisoformat (PyStr.replace ['Z'] IsoFormat.utcOffset s.toList) with
    | some t => .ok t
    | none => .error .valueError
  | _ => .error .attributeError

/-- `_to_entry`. `datos` is a dictionary by the type of its field; another value is refused here. -/
def toEntry (jsonb : Json → Json) (row : OutboxEventoRow) : Except PyError OutboxEntry := do
  let payload := jsonb row.payload
  let ocurridoAt ← readInstant (← payload.subscript "ocurrido_at")
  match ← payload.subscript "datos" with
  | .object datos =>
    .ok {
      event := { id := row.id, tipo := row.tipo, version := row.version, ocurridoAt, datos }
      estado := row.estado
      intentos := row.intentos
      proximoIntentoAt := row.proximoIntentoAt
      ultimoError := row.ultimoError
      entregadoAt := row.entregadoAt }
  | _ => .error .typeError

/-- `outbox_eventos` with its columns. -/
abbrev OutboxEventoTable := Rows OutboxEventoRow.id

namespace OutboxEventoTable

/-- The rows that `claim_due` selects. -/
def due (t : OutboxEventoTable) (now : Instant) (limit : Nat) (ids : Option (List UUID))
    (skip : List UUID) : List OutboxEventoRow :=
  ((t.rows.filter fun r =>
    r.estado = .pendiente && r.proximoIntentoAt ≤ now && (ids.all fun l => l.contains r.id) &&
      !skip.contains r.id).insertionSort
    fun r r' => r.proximoIntentoAt ≤ r'.proximoIntentoAt).take limit

/-- `row.proximo_intento_at = lease_until` for the rows selected. -/
def lease (t : OutboxEventoTable) (rows : List OutboxEventoRow) (leaseUntil : Instant) :
    OutboxEventoTable :=
  t.map (fun r => if (rows.map OutboxEventoRow.id).contains r.id then
      { r with proximoIntentoAt := leaseUntil } else r) fun r => by
    split <;> rfl

/-- `claim_due`: all entries are rebuilt before a row is leased. -/
def claimDue (jsonb : Json → Json) (t : OutboxEventoTable) (now leaseUntil : Instant) (limit : Nat)
    (ids : Option (List UUID)) (skip : List UUID) :
    Except PyError (List OutboxEntry × OutboxEventoTable) := do
  let rows := t.due now limit ids skip
  let entries ← rows.mapM (toEntry jsonb)
  .ok (entries, t.lease rows leaseUntil)

/-- `save`: the payload is not written. -/
def save (t : OutboxEventoTable) (entry : OutboxEntry) : OutboxEventoTable :=
  t.modify entry.event.id (fun row =>
    { row with
      estado := entry.estado
      intentos := entry.intentos
      proximoIntentoAt := entry.proximoIntentoAt
      ultimoError := entry.ultimoError
      entregadoAt := entry.entregadoAt }) fun _ => rfl

end OutboxEventoTable

/-! ## The rows of a table of entries -/

namespace OutboxTable

variable {t : OutboxTable}

/-- The rows of the entries. -/
def stored (t : OutboxTable) : OutboxEventoTable where
  rows := t.rows.map OutboxEntry.toRow
  nodup := by
    rw [List.map_map]
    exact t.nodup

theorem find?_stored (t : OutboxTable) (id : UUID) :
    t.stored.find? id = (t.find? id).map OutboxEntry.toRow :=
  List.find?_map

/-- Inserting an event stores its row. -/
theorem stored_insert (t : OutboxTable) (e : OutboxEntry) :
    t.stored.insert? e.toRow = (t.insert? e).map stored := by
  have hkeys : t.stored.rows.map OutboxEventoRow.id = t.rows.map OutboxEntry.id := by
    rw [stored, List.map_map]
    rfl
  unfold Rows.insert?
  by_cases h : e.id ∈ t.rows.map OutboxEntry.id
  · have h' : e.toRow.id ∈ t.stored.rows.map OutboxEventoRow.id := by rwa [hkeys]
    rw [dif_pos h, dif_pos h']
    rfl
  · have h' : e.toRow.id ∉ t.stored.rows.map OutboxEventoRow.id := by rwa [hkeys]
    rw [dif_neg h, dif_neg h', Option.map_some]
    exact congrArg some (Rows.ext (by simp [stored]))

/-- The same rows are due. -/
theorem due_stored (t : OutboxTable) (now : Instant) (limit : Nat) (ids : Option (List UUID))
    (skip : List UUID) :
    t.stored.due now limit ids skip = (t.due now limit ids skip).map OutboxEntry.toRow := by
  unfold OutboxEventoTable.due due stored
  rw [List.filter_map, List.map_take]
  refine congrArg (List.take limit) (Eq.symm ?_)
  exact List.map_insertionSort _ _ OutboxEntry.toRow _ fun _ _ _ _ => Iff.rfl

/-- Leasing events leases their rows. -/
theorem lease_stored (t : OutboxTable) (claimed : List OutboxEntry) (leaseUntil : Instant) :
    t.stored.lease (claimed.map OutboxEntry.toRow) leaseUntil =
      (t.lease claimed leaseUntil).stored := by
  have hids : (claimed.map OutboxEntry.toRow).map OutboxEventoRow.id =
      claimed.map OutboxEntry.id := by
    rw [List.map_map]
    rfl
  refine Rows.ext ?_
  simp only [OutboxEventoTable.lease, lease, stored, Rows.map, hids, List.map_map,
    List.contains_iff_mem]
  refine List.map_congr_left fun r _ => ?_
  rw [Function.comp, Function.comp, apply_ite OutboxEntry.toRow]
  rfl

theorem save_stored (t : OutboxTable) (e : OutboxEntry) : t.stored.save e = (t.save e).stored := by
  refine Rows.ext ?_
  simp only [OutboxEventoTable.save, save, stored, Rows.modify, Rows.map, List.map_map]
  refine List.map_congr_left fun r _ => ?_
  rw [Function.comp, Function.comp, apply_ite OutboxEntry.toRow]
  rfl

end OutboxTable

/-! ## Reading an event back -/

/-- `==` of events. -/
structure DomainEvent.Equal (a b : DomainEvent) : Prop where
  id : a.id = b.id
  tipo : a.tipo = b.tipo
  version : a.version = b.version
  ocurridoAt : a.ocurridoAt = b.ocurridoAt
  datos : a.datos.Equal b.datos

/-- Equal events have equal payloads. -/
theorem DomainEvent.Equal.toPayload {a b : DomainEvent} (h : a.Equal b) :
    (Json.object a.toPayload).Equal (.object b.toPayload) := by
  have htext : a.ocurridoText = b.ocurridoText := by
    rw [DomainEvent.ocurridoText, DomainEvent.ocurridoText, h.ocurridoAt]
  have hdatos : ∀ k,
      Json.Dict.EqualAt [("datos", .object a.datos)] [("datos", .object b.datos)] k := by
    intro k
    by_cases hk : k = "datos"
    · subst hk
      exact .some (.object h.datos)
    · exact .cons_of_ne hk (.refl [] k)
  refine .object fun k => ?_
  rw [DomainEvent.toPayload, DomainEvent.toPayload, h.id, h.tipo, h.version, htext]
  exact (((hdatos k).cons_self.cons_self).cons_self).cons_self

/-- The instant of a payload is the one that was printed. -/
theorem readInstant_ocurridoText {e : DomainEvent} (h : IsoFormat.InRange e.ocurridoAt) :
    readInstant (.str e.ocurridoText) = .ok e.ocurridoAt := by
  have hplus : '+' ∉ IsoFormat.isoLocal e.ocurridoAt := fun hmem =>
    (IsoFormat.isoLocal_chars e.ocurridoAt '+' hmem).1 rfl
  have hz : 'Z' ∉ IsoFormat.isoLocal e.ocurridoAt := fun hmem =>
    (IsoFormat.isoLocal_chars e.ocurridoAt 'Z' hmem).2 rfl
  have htext : e.ocurridoText.toList = IsoFormat.isoLocal e.ocurridoAt ++ ['Z'] := by
    rw [DomainEvent.ocurridoText, String.toList_ofList, IsoFormat.isoformat, IsoFormat.utcOffset,
      PyStr.replace_append_of_not_mem hplus, PyStr.replace_self]
  have hback : PyStr.replace ['Z'] IsoFormat.utcOffset e.ocurridoText.toList =
      IsoFormat.isoformat e.ocurridoAt := by
    rw [htext, PyStr.replace_append_of_not_mem hz, PyStr.replace_self, IsoFormat.isoformat]
  rw [readInstant, hback, IsoFormat.fromisoformat_isoformat h]

/-- What `e` was rebuilt from: an equal event, and the other columns. -/
structure OutboxEntry.RebuiltFrom (e r : OutboxEntry) : Prop where
  event : e.event.Equal r.event
  estado : e.estado = r.estado
  intentos : e.intentos = r.intentos
  proximoIntentoAt : e.proximoIntentoAt = r.proximoIntentoAt
  ultimoError : e.ultimoError = r.ultimoError
  entregadoAt : e.entregadoAt = r.entregadoAt

section
variable {jsonb : Json → Json} (hjsonb : ∀ v : Json, v.Equal (jsonb v))
include hjsonb

/-- The row of an entry gives the entry back. -/
theorem toEntry_toRow {r : OutboxEntry} (h : IsoFormat.InRange r.event.ocurridoAt) :
    ∃ e, toEntry jsonb r.toRow = .ok e ∧ e.RebuiltFrom r := by
  obtain ⟨payload, hpayload, hequal⟩ :
      ∃ payload, jsonb r.toRow.payload = .object payload ∧
        ∀ k, Option.Rel Json.Equal (r.event.toPayload.lookup k) (payload.lookup k) := by
    have heq : (Json.object r.event.toPayload).Equal (jsonb (.object r.event.toPayload)) :=
      hjsonb _
    obtain ⟨d, payload, hd, hpayload, hequal⟩ | ⟨hd, -⟩ := heq.dict_cases
    · cases hd
      exact ⟨payload, hpayload, hequal⟩
    · cases hd
  have hocurrido : payload.lookup "ocurrido_at" = some (.str r.event.ocurridoText) := by
    have hk := hequal "ocurrido_at"
    generalize payload.lookup "ocurrido_at" = y at hk ⊢
    cases hk with
    | some h => cases h; rfl
  obtain ⟨datos, hdatos, hsame⟩ :
      ∃ datos : Json.Dict, payload.lookup "datos" = some (.object datos) ∧
        r.event.datos.Equal datos := by
    have hk := hequal "datos"
    generalize payload.lookup "datos" = y at hk ⊢
    cases hk with
    | some h =>
      cases h with
      | object h => exact ⟨_, rfl, h⟩
  refine ⟨{ r with event := { r.event with datos } }, ?_, ?_⟩
  · simp only [toEntry, hpayload, Json.subscript, hocurrido, hdatos, bind, Except.bind,
      readInstant_ocurridoText h]
    rfl
  · exact ⟨⟨rfl, rfl, rfl, rfl, hsame.symm⟩, rfl, rfl, rfl, rfl, rfl⟩

/-- The rows of a list of entries give entries back, each equal to the one stored. -/
theorem mapM_toEntry {l : List OutboxEntry} (h : ∀ r ∈ l, IsoFormat.InRange r.event.ocurridoAt) :
    ∃ es, (l.map OutboxEntry.toRow).mapM (toEntry jsonb) = .ok es ∧
      List.Forall₂ OutboxEntry.RebuiltFrom es l := by
  induction l with
  | nil => exact ⟨[], rfl, .nil⟩
  | cons r l ih =>
    obtain ⟨e, he, hr⟩ := toEntry_toRow hjsonb (h r List.mem_cons_self)
    obtain ⟨es, hes, hl⟩ := ih fun r hr => h r (List.mem_cons_of_mem _ hr)
    refine ⟨e :: es, ?_, .cons hr hl⟩
    rw [List.map_cons, List.mapM_cons, he, hes]
    rfl

/-- A claim of stored entries leases the rows that are due and hands out entries rebuilt from
them. -/
theorem claimDue_stored {t : OutboxTable} (now leaseUntil : Instant) (limit : Nat)
    (ids : Option (List UUID)) (skip : List UUID)
    (h : ∀ r ∈ t.rows, IsoFormat.InRange r.event.ocurridoAt) :
    ∃ es, t.stored.claimDue jsonb now leaseUntil limit ids skip =
        .ok (es, (t.lease (t.due now limit ids skip) leaseUntil).stored) ∧
      List.Forall₂ OutboxEntry.RebuiltFrom es (t.due now limit ids skip) := by
  have hdue : ∀ r ∈ t.due now limit ids skip, IsoFormat.InRange r.event.ocurridoAt := by
    intro r hr
    have hfound := ((OutboxTable.due_spec t now limit ids skip).1 r hr).1
    exact h r (Rows.find?_eq_some.1 hfound).1
  obtain ⟨es, hes, hl⟩ := mapM_toEntry hjsonb hdue
  refine ⟨es, ?_, hl⟩
  rw [OutboxEventoTable.claimDue, OutboxTable.due_stored, hes, ← OutboxTable.lease_stored]
  rfl

end

end Aeropass
