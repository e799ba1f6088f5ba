import Aeropass.Verification.Attempts

/-!
# One identity and one event for each verified passenger

The identities of a passenger are one for each of its successful attempts, of which there is one
exactly when it is VERIFICADO; the outbox holds one event for each identity; and a step shows the
attempt, the passenger, the identity and the event together or none of them.
-/

namespace Aeropass

open Runs Threads

/-- The identities of a passenger. -/
def VerificationWorld.identitiesOf (w : VerificationWorld) (id : UUID) : List IdentidadDigital :=
  w.identidades.rows.filter fun x => x.pasajeroId = id

/-- A `credencial.emitida` that names the identity, its passenger and its attempt. -/
structure Names (event : DomainEvent) (x : IdentidadDigital) : Prop where
  tipo : event.tipo = "credencial.emitida"
  pasajero : ("pasajero_id", .str x.pasajeroId.str) ∈ event.datos
  identidad : ("identidad_id", .str x.id.str) ∈ event.datos
  intento : ("intento_id", .str x.intentoOrigenId.str) ∈ event.datos

variable {cfg : VerificationSettings} {w w' : VerificationWorld} {id : UUID} {p : PasajeroRow}
  {x y : IdentidadDigital} {event : DomainEvent}

/-! ## Identities and attempts -/

/-- The identities of a passenger are those of its successful attempts. -/
theorem VerificationOK.origen_of (h : VerificationOK w) (id : UUID) :
    (w.identitiesOf id).map (·.intentoOrigenId) =
      ((w.attemptsOf id).filter fun a => a.resultado = .exitoso).map (·.id) := by
  have heq := congrArg (fun l : List (UUID × UUID) => (l.filter fun q => q.1 = id).map (·.2))
    h.origen
  simp only [List.filter_map, List.map_map] at heq
  rw [VerificationWorld.attemptsOf, List.filter_comm]
  exact heq

/-- There is one for each success. -/
theorem VerificationOK.length_identitiesOf (h : VerificationOK w) (id : UUID) :
    (w.identitiesOf id).length = (w.outcomesOf id).count .exitoso := by
  have hlen := congrArg List.length (h.origen_of id)
  rw [List.length_map, List.length_map] at hlen
  rw [hlen, VerificationWorld.outcomesOf, List.count_eq_length_filter, List.filter_map,
    List.length_map]
  congr 2

/-- A passenger is VERIFICADO exactly when it has an identity. -/
theorem VerificationOK.verificado_iff (h : VerificationOK w)
    (hp : w.pasajeros.find? id = some p) :
    p.estado = .verificado ↔ w.identitiesOf id ≠ [] := by
  have hmem : .exitoso ∈ w.outcomesOf id ↔ 0 < (w.outcomesOf id).count .exitoso :=
    List.count_pos_iff.symm
  rw [(h.counts hp).matches.verificado, hmem, ← h.length_identitiesOf, List.length_pos_iff]

/-- And then exactly one: ACTIVA, of its one successful attempt. -/
theorem VerificationOK.only_identity (h : VerificationOK w)
    (hp : w.pasajeros.find? id = some p) (hne : w.identitiesOf id ≠ []) :
    ∃ x a, w.identitiesOf id = [x] ∧ x.estado = .activa ∧
      ((w.attemptsOf id).filter fun a => a.resultado = .exitoso) = [a] ∧
      x.intentoOrigenId = a.id := by
  have hmatch := (h.counts hp).matches
  have hone : (w.identitiesOf id).length = 1 := by
    rw [h.length_identitiesOf]
    exact hmatch.unico (hmatch.verificado.1 ((h.verificado_iff hp).2 hne))
  obtain ⟨x, hx⟩ := List.length_eq_one_iff.1 hone
  have horigen := h.origen_of id
  rw [hx] at horigen
  obtain ⟨a, ha, hxa⟩ := List.map_eq_singleton_iff.1 horigen.symm
  have hmem : x ∈ w.identitiesOf id := by simp [hx]
  exact ⟨x, a, hx, of_decide_eq_true (h.activa (List.mem_filter.1 hmem).1), ha, hxa.symm⟩

/-! ## Identities and events -/

theorem EventOf.names (h : EventOf event x) : Names event x := by
  obtain ⟨ht, hd⟩ := h
  constructor
  · exact ht
  all_goals
    rw [hd]
    simp [IdentidadDigital.datos, CredencialEmitidaV1.fromIdentity]

/-- An event names one identity only. -/
theorem EventOf.id_eq (h : EventOf event y) (hn : Names event x) : y.id = x.id := by
  have hid := hn.identidad
  rw [h.datos] at hid
  simp only [IdentidadDigital.datos, CredencialEmitidaV1.fromIdentity, List.mem_cons,
    Prod.mk.injEq, List.not_mem_nil, or_false] at hid
  rcases hid with ⟨hkey, -⟩ | ⟨hkey, -⟩ | ⟨-, hstr⟩ | ⟨hkey, -⟩
  · exact absurd hkey (by decide)
  · exact absurd hkey (by decide)
  · exact (UUID.str_inj (Json.str.inj hstr)).symm
  · exact absurd hkey (by decide)

/-- Every identity has exactly one outbox row. -/
theorem VerificationOK.event_of_identity (h : VerificationOK w) (hx : x ∈ w.identidades.rows) :
    ∃! r, r ∈ w.out.outbox.rows ∧ Names r.event x :=
  Rows.existsUnique_left_of_forall₂ (List.forall₂_map_left_iff.1 h.eventos) w.identidades.nodup
    EventOf.names EventOf.id_eq hx

/-- Every outbox row belongs to an identity. -/
theorem VerificationOK.identity_of_event (h : VerificationOK w) {r : OutboxEntry}
    (hr : r ∈ w.out.outbox.rows) : ∃ x ∈ w.identidades.rows, Names r.event x := by
  obtain ⟨x, hx, hev⟩ := Rows.exists_right_of_forall₂ (List.forall₂_map_left_iff.1 h.eventos) hr
  exact ⟨x, hx, hev.names⟩

/-! ## One commit -/

/-- What one step shows of the four tables: nothing, or an attempt with its effect on its
passenger, with the identity and the outbox row exactly when it succeeded. -/
inductive OneCommit (w w' : VerificationWorld) : Prop
  | nothing : (∀ id p, w.pasajeros.find? id = some p → w'.pasajeros.find? id = some p) →
    w'.intentos = w.intentos → w'.identidades = w.identidades →
    w'.out.outbox.events = w.out.outbox.events → OneCommit w w'
  | attempt (a : IntentoVerificacionRow) (p p' : PasajeroRow) :
    w'.intentos.rows = w.intentos.rows ++ [a] →
    w.pasajeros.find? a.pasajeroId = some p → w'.pasajeros.find? a.pasajeroId = some p' →
    p.progress.step a.resultado = some p'.progress →
    (∀ id, id ≠ a.pasajeroId → w'.pasajeros.find? id = w.pasajeros.find? id) →
    (a.resultado ≠ .exitoso → w'.identidades = w.identidades ∧ w'.out.outbox = w.out.outbox) →
    (a.resultado = .exitoso → ∃ x r, w'.identidades.rows = w.identidades.rows ++ [x] ∧
      x.pasajeroId = a.pasajeroId ∧ x.intentoOrigenId = a.id ∧
      w'.out.outbox.rows = w.out.outbox.rows ++ [r] ∧ Names r.event x) → OneCommit w w'

variable {s t : VerificationSystem}

/-- Every step is at most one commit, of all four tables together. -/
theorem oneCommit_step (hs : VerifiersOK s) {a : Act VerifierAct VerificationEnv}
    (hst : verificationStep cfg s a = some t) : OneCommit s.shared t.shared := by
  rcases verificationStep_effect hst with ⟨hq, -⟩ | ⟨-, -, -, q, -, hins, hw⟩ |
    ⟨i, b, o, event, q, q', -, hc, -⟩
  · exact .nothing (fun _ _ hp => hq.pasajeros ▸ hp) hq.intentos hq.identidades hq.events
  · refine .nothing (fun id p hp => ?_) (by rw [hw]) (by rw [hw]) (by rw [hw])
    rw [Rows.find?_insert? hins, if_neg]
    · exact hp
    · rintro rfl
      rw [(Rows.insert?_eq_some.1 hins).1] at hp
      cases hp
  · refine .attempt o.intento.row q q' hc.intentos hc.found ?_ hc.step ?_ ?_ ?_
    · exact (hc.find? _).trans (if_pos rfl)
    · intro id hid
      exact (hc.find? id).trans (if_neg fun h => hid h.symm)
    · intro hne
      exact ⟨(hc.sigue hne).1, (hc.sigue hne).2.1⟩
    · intro hex
      obtain ⟨x, ev, hxp, hxi, -, hids, hout, hn, -⟩ := hc.created hs.1 hex
      exact ⟨x, _, hids, hxp, hxi, hout, hn.names⟩

/-- **Identity and event are created exactly once and together.** In every reachable state: a
passenger is VERIFICADO exactly when it has an identity, and then exactly one, ACTIVA, of its one
EXITOSO attempt; each identity has exactly one outbox row, a `credencial.emitida` that names it,
and each outbox row names an identity; every step shows attempt, passenger, identity and outbox row
together or not at all; where the transaction creates an identity none was active; and what a call
returned has an identity exactly when its attempt was EXITOSO: the one of that attempt. -/
theorem identity_event_once (hs : Reachable VerificationSystem.Initial (verificationStep cfg) s) :
    (∀ id p, s.shared.pasajeros.find? id = some p →
      (p.estado = .verificado ↔ s.shared.identitiesOf id ≠ []) ∧
      (s.shared.identitiesOf id ≠ [] → ∃ x a, s.shared.identitiesOf id = [x] ∧
        x.estado = .activa ∧
        ((s.shared.attemptsOf id).filter fun a => a.resultado = .exitoso) = [a] ∧
        x.intentoOrigenId = a.id)) ∧
    (∀ x ∈ s.shared.identidades.rows, (∃ p, s.shared.pasajeros.find? x.pasajeroId = some p) ∧
      ∃! r, r ∈ s.shared.out.outbox.rows ∧ Names r.event x) ∧
    (∀ r ∈ s.shared.out.outbox.rows, ∃ x ∈ s.shared.identidades.rows, Names r.event x) ∧
    (∀ a t, verificationStep cfg s a = some t → OneCommit s.shared t.shared) ∧
    (∀ ahora (locked locked' : Pasajero) intentoId stored result w' intento,
      s.shared.pasajeros.find? locked.id = some locked.toPasajeroRow →
      recordAttempt cfg s.shared ahora locked intentoId stored result =
        .ok (w', locked', intento) →
        getActive w'.identidades.rows locked'.id = none) ∧
    ∀ i pasajero selfie o, s.locals i = .verify pasajero selfie (.done (.ok o)) →
      Answered s.shared pasajero.id o := by
  have hok := verification_inv hs
  refine ⟨fun id p hp => ⟨hok.1.verificado_iff hp, hok.1.only_identity hp⟩, fun x hx => ⟨?_, ?_⟩,
    fun r hr => hok.1.identity_of_event hr, fun a t hst => oneCommit_step hok hst, ?_, ?_⟩
  · obtain ⟨a, ha, -, hpas, -⟩ := hok.1.attempt_of_identity hx
    exact hpas ▸ hok.1.owner ha
  · exact hok.1.event_of_identity hx
  · intro ahora locked locked' intentoId stored result w' intento hp hrec
    obtain ⟨-, -, hstep, hid, -, -, hids, -⟩ := recordAttempt_ok hrec
    rw [hids, hid]
    exact hok.1.getActive_eq_none hp (Progress.pendiente_of_step hstep)
  · intro i pasajero selfie o hl
    refine hok.2 i pasajero.id o ?_
    rw [hl]
    rfl

/-- After two selfies in flight the passenger has the one identity that call 1 returned, and the
outbox its event. -/
theorem identity_event_once_sample :
    ∃ t, run (verificationStep sampleUmbrales) sampleVerification sampleTwoSelfies = some t ∧
      ∃ x ∈ t.shared.identidades.rows, x.id = 12 ∧
        ∃! r, r ∈ t.shared.out.outbox.rows ∧ Names r.event x := by
  obtain ⟨t, ht⟩ := Option.isSome_iff_exists.1 (by decide +kernel :
    (run (verificationStep sampleUmbrales) sampleVerification sampleTwoSelfies).isSome = true)
  have hids : (run (verificationStep sampleUmbrales) sampleVerification sampleTwoSelfies).map
      (fun t => t.shared.identidades.rows) = some [.crear 12 1 11 0] := by
    decide +kernel
  rw [ht, Option.map_some, Option.some.injEq] at hids
  have hspec := identity_event_once (Reachable.run (.start sampleVerification_initial) ht)
  have hx : IdentidadDigital.crear 12 1 11 0 ∈ t.shared.identidades.rows := by simp [hids]
  exact ⟨t, ht, _, hx, rfl, (hspec.2.1 _ hx).2⟩

end Aeropass
