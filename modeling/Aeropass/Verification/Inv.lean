import Aeropass.Verification.Effects

/-!
# The invariant of the verification services

The columns of a passenger are the progress that its attempts make (`Progress`), and the four
tables run in parallel: the identities are those of the successful attempts and the events of the
outbox those of the identities, each in the order of the commits. Attempts and identities stay, so
what a call was answered stays true.
-/

namespace Aeropass

open Runs Threads

/-- The attempts of a passenger, in the order of their commits. -/
def VerificationWorld.attemptsOf (w : VerificationWorld) (id : UUID) :
    List IntentoVerificacionRow :=
  w.intentos.rows.filter fun a => a.pasajeroId = id

/-- Their outcomes. -/
def VerificationWorld.outcomesOf (w : VerificationWorld) (id : UUID) : List ResultadoIntento :=
  (w.attemptsOf id).map (·.resultado)

/-- The invariant of the shared state. -/
structure VerificationOK (w : VerificationWorld) : Prop where
  progress : ∀ {id p}, w.pasajeros.find? id = some p →
    run Progress.step {} (w.outcomesOf id) = some p.progress
  owner : ∀ {a}, a ∈ w.intentos.rows → ∃ p, w.pasajeros.find? a.pasajeroId = some p
  origen : w.identidades.rows.map (fun x => (x.pasajeroId, x.intentoOrigenId)) =
    (w.intentos.rows.filter fun a => a.resultado = .exitoso).map fun a => (a.pasajeroId, a.id)
  activa : ∀ {x}, x ∈ w.identidades.rows → x.activa
  eventos : List.Forall₂ EventOf w.out.outbox.events w.identidades.rows

/-- What every step leaves. -/
structure VerificationLater (w w' : VerificationWorld) : Prop where
  pasajeros : ∀ {id p}, w.pasajeros.find? id = some p → ∃ p', w'.pasajeros.find? id = some p'
  intentos : w.intentos.rows <+: w'.intentos.rows
  identidades : w.identidades.rows <+: w'.identidades.rows

/-- What a call about the passenger `id` may answer: an attempt that is in the table, with its
identity exactly when it succeeded. -/
structure Answered (w : VerificationWorld) (id : UUID) (o : VerificationOutcome) : Prop where
  intento : o.intento.row ∈ w.intentos.rows
  pasajero : o.intento.pasajeroId = id
  exito : o.intento.resultado = .exitoso → ∃ x ∈ w.identidades.rows, x.pasajeroId = id ∧
    x.intentoOrigenId = o.intento.id ∧ o.identidadId = some x.id
  sigue : o.intento.resultado ≠ .exitoso → o.identidadId = none
  answer : o.pasajero.identidadId = o.identidadId

variable {w w' : VerificationWorld} {o : VerificationOutcome} {event : Option DomainEvent}
  {p p' : PasajeroRow} {id : UUID}

theorem VerificationLater.refl (w : VerificationWorld) : VerificationLater w w :=
  ⟨fun h => ⟨_, h⟩, List.prefix_rfl, List.prefix_rfl⟩

theorem VerificationLater.trans {w'' : VerificationWorld} (h : VerificationLater w w')
    (h' : VerificationLater w' w'') : VerificationLater w w'' := by
  refine ⟨fun hp => ?_, h.intentos.trans h'.intentos, h.identidades.trans h'.identidades⟩
  obtain ⟨p', hp'⟩ := h.pasajeros hp
  exact h'.pasajeros hp'

theorem Answered.stable (h : VerificationLater w w') (ha : Answered w id o) : Answered w' id o := by
  refine { ha with intento := h.intentos.subset ha.intento, exito := fun hex => ?_ }
  obtain ⟨x, hx, hrest⟩ := ha.exito hex
  exact ⟨x, h.identidades.subset hx, hrest⟩

/-! ## What the invariant says -/

/-- The successful attempt of an identity. -/
theorem VerificationOK.attempt_of_identity (h : VerificationOK w) {x : IdentidadDigital}
    (hx : x ∈ w.identidades.rows) : ∃ a ∈ w.intentos.rows, a.resultado = .exitoso ∧
      a.pasajeroId = x.pasajeroId ∧ a.id = x.intentoOrigenId := by
  have hmem : (x.pasajeroId, x.intentoOrigenId) ∈
      w.identidades.rows.map fun x => (x.pasajeroId, x.intentoOrigenId) := List.mem_map_of_mem hx
  rw [h.origen] at hmem
  obtain ⟨a, ha, heq⟩ := List.mem_map.1 hmem
  obtain ⟨ha, hex⟩ := List.mem_filter.1 ha
  obtain ⟨h1, h2⟩ := Prod.mk.inj heq
  exact ⟨a, ha, of_decide_eq_true hex, h1, h2⟩

/-- The outcomes of a passenger count as its columns say. -/
theorem VerificationOK.counts (h : VerificationOK w) (hp : w.pasajeros.find? id = some p) :
    Progress.Counts (w.outcomesOf id) p.progress :=
  Progress.counts_of_run (h.progress hp)

/-- A success is among the outcomes of its passenger. -/
theorem VerificationWorld.mem_outcomesOf {a : IntentoVerificacionRow}
    (ha : a ∈ w.intentos.rows) : a.resultado ∈ w.outcomesOf a.pasajeroId :=
  List.mem_map_of_mem (List.mem_filter.2 ⟨ha, decide_eq_true rfl⟩)

/-- A passenger whose verification is pending has no identity. -/
theorem VerificationOK.no_identity (h : VerificationOK w) (hp : w.pasajeros.find? id = some p)
    (hest : p.estado = .pendienteVerificacion) :
    ∀ x ∈ w.identidades.rows, x.pasajeroId ≠ id := by
  rintro x hx rfl
  obtain ⟨a, ha, hex, hpas, -⟩ := h.attempt_of_identity hx
  have hcount := (h.counts hp).estado
  simp only [PasajeroRow.progress_estado, hest] at hcount
  have hmem := VerificationWorld.mem_outcomesOf ha
  rw [hex, hpas] at hmem
  exact List.count_eq_zero.1 hcount.2 hmem

/-- So `create_for_success` finds none. -/
theorem VerificationOK.getActive_eq_none (h : VerificationOK w)
    (hp : w.pasajeros.find? id = some p) (hest : p.estado = .pendienteVerificacion) :
    getActive w.identidades.rows id = none := by
  rw [getActive, List.find?_eq_none]
  intro x hx
  simp [h.no_identity hp hest x hx]

/-! ## Steps -/

/-- A step that leaves the verification keeps the invariant. -/
theorem Unmoved.ok (h : Unmoved w w') (hw : VerificationOK w) :
    VerificationOK w' ∧ VerificationLater w w' := by
  obtain ⟨h1, h2, h3, h4⟩ := h
  refine ⟨⟨?_, ?_, ?_, ?_, ?_⟩, ⟨fun hp => ⟨_, h1 ▸ hp⟩, ?_, ?_⟩⟩
  · intro id p hp
    rw [h1] at hp
    simpa only [VerificationWorld.outcomesOf, VerificationWorld.attemptsOf, h2] using
      hw.progress hp
  · intro a ha
    rw [h2] at ha
    rw [h1]
    exact hw.owner ha
  · rw [h2, h3]
    exact hw.origen
  · rw [h3]
    exact hw.activa
  · rw [h3, h4]
    exact hw.eventos
  · exact h2 ▸ List.prefix_rfl
  · exact h3 ▸ List.prefix_rfl

/-- A new passenger has no attempts yet. -/
theorem VerificationOK.register (hw : VerificationOK w) {t : Rows PasajeroRow.id}
    (hp : p.progress = {}) (ht : w.pasajeros.insert? p = some t) :
    VerificationOK { w with pasajeros := t } ∧ VerificationLater w { w with pasajeros := t } := by
  have hfree := (Rows.insert?_eq_some.1 ht).1
  have hkeep : ∀ {id q}, w.pasajeros.find? id = some q → t.find? id = some q := by
    intro id q hq
    rw [Rows.find?_insert? ht, if_neg]
    · exact hq
    · rintro rfl
      rw [hfree] at hq
      cases hq
  refine ⟨{ hw with progress := ?_, owner := ?_ }, ⟨fun hq => ⟨_, hkeep hq⟩, ?_, ?_⟩⟩
  · intro id q hq
    have hfind := Rows.find?_insert? ht id
    rw [hq] at hfind
    split at hfind
    · next hid =>
      subst hid
      cases hfind
      have hnone : w.attemptsOf p.id = [] := by
        rw [VerificationWorld.attemptsOf, List.filter_eq_nil_iff]
        intro a ha hid
        obtain ⟨q, hq⟩ := hw.owner ha
        rw [of_decide_eq_true hid, hfree] at hq
        cases hq
      change run Progress.step {} ((w.attemptsOf p.id).map _) = _
      rw [hnone, hp]
      rfl
    · exact hw.progress hfind.symm
  · intro a ha
    obtain ⟨q, hq⟩ := hw.owner ha
    exact ⟨q, hkeep hq⟩
  · exact List.prefix_rfl
  · exact List.prefix_rfl

/-- The attempts of a passenger after a commit. -/
theorem AttemptCommit.attemptsOf (h : AttemptCommit w w' o event p p') (id : UUID) :
    w'.attemptsOf id =
      w.attemptsOf id ++ if o.intento.pasajeroId = id then [o.intento.row] else [] := by
  rw [VerificationWorld.attemptsOf, h.intentos, List.filter_append]
  congr 1
  simp only [List.filter_cons, List.filter_nil, decide_eq_true_eq, IntentoVerificacion.row]

/-- What a lookup finds after a commit. -/
theorem AttemptCommit.find? (h : AttemptCommit w w' o event p p') (id : UUID) :
    w'.pasajeros.find? id =
      if o.intento.pasajeroId = id then some p' else w.pasajeros.find? id := by
  have hid : p'.id = o.intento.pasajeroId := h.id.trans (Rows.find?_key h.found)
  rw [h.pasajeros, find?_savePasajero, hid]
  split
  · next heq => rw [← heq, h.found, Option.map_some]
  · rfl

/-- The passenger of a commit had no active identity, so a success creates one. -/
theorem AttemptCommit.created (h : AttemptCommit w w' o event p p') (hw : VerificationOK w)
    (hex : o.intento.resultado = .exitoso) :
    ∃ x ev, x.pasajeroId = o.intento.pasajeroId ∧ x.intentoOrigenId = o.intento.id ∧ x.activa ∧
      w'.identidades.rows = w.identidades.rows ++ [x] ∧
      w'.out.outbox.rows = w.out.outbox.rows ++ [.pendiente ev] ∧ EventOf ev x ∧
      o.identidadId = some x.id := by
  have hpid := Rows.find?_key h.found
  have hnone := hw.getActive_eq_none h.found (Progress.pendiente_of_step h.step)
  have hx := h.exito hex
  rw [hpid, hnone] at hx
  obtain ⟨x, ev, h1, h2, h3, h4, -, h5, h6, h7⟩ := hx
  exact ⟨x, ev, h1, h2, h3, h4, h5, h6, h7⟩

/-- A committed transaction keeps the invariant, and its answer is true. -/
theorem AttemptCommit.ok (h : AttemptCommit w w' o event p p') (hw : VerificationOK w) :
    VerificationOK w' ∧ VerificationLater w w' ∧ Answered w' o.intento.pasajeroId o := by
  have hprogress : ∀ {id q}, w'.pasajeros.find? id = some q →
      run Progress.step {} (w'.outcomesOf id) = some q.progress := by
    intro id q hq
    rw [VerificationWorld.outcomesOf, h.attemptsOf, List.map_append]
    rw [h.find?] at hq
    split at hq
    · next hid =>
      cases hq
      subst hid
      rw [if_pos rfl]
      exact run_snoc.2 ⟨p.progress, hw.progress h.found, h.step⟩
    · next hid =>
      rw [if_neg hid, List.map_nil, List.append_nil]
      exact hw.progress hq
  have howner : ∀ {a}, a ∈ w'.intentos.rows → ∃ q, w'.pasajeros.find? a.pasajeroId = some q := by
    intro a ha
    rw [h.find?]
    split
    · exact ⟨_, rfl⟩
    · next hid =>
      rw [h.intentos, List.mem_append, List.mem_singleton] at ha
      rcases ha with ha | rfl
      · exact hw.owner ha
      · exact absurd rfl hid
  have hlater : ∀ {id q}, w.pasajeros.find? id = some q →
      ∃ q', w'.pasajeros.find? id = some q' := by
    intro id q hq
    rw [h.find?]
    split
    · exact ⟨_, rfl⟩
    · exact ⟨q, hq⟩
  have hints : w.intentos.rows <+: w'.intentos.rows := ⟨_, h.intentos.symm⟩
  have hrow : o.intento.row ∈ w'.intentos.rows := by rw [h.intentos]; simp
  by_cases hex : o.intento.resultado = .exitoso
  · obtain ⟨x, ev, hxp, hxi, hxa, hids, hout, hn, hres⟩ := h.created hw hex
    refine ⟨⟨hprogress, howner, ?_, ?_, ?_⟩, ⟨hlater, hints, ⟨_, hids.symm⟩⟩, ?_⟩
    · rw [hids, h.intentos, List.map_append, hw.origen, List.filter_append, List.map_append]
      congr 1
      have : (o.intento.row.resultado = .exitoso) = True := eq_true hex
      simp only [List.filter_cons, this, List.filter_nil]
      simp [hxp, hxi, IntentoVerificacion.row]
    · intro y hy
      rw [hids, List.mem_append, List.mem_singleton] at hy
      rcases hy with hy | rfl
      · exact hw.activa hy
      · exact hxa
    · rw [hids, OutboxTable.events, hout, List.map_append]
      exact List.rel_append hw.eventos (.cons hn .nil)
    · refine ⟨hrow, rfl, fun _ => ⟨x, by rw [hids]; simp, hxp, hxi, hres⟩,
        fun hne => absurd hex hne, by rw [h.answer]⟩
  · obtain ⟨hids, hout, hres, -⟩ := h.sigue hex
    refine ⟨⟨hprogress, howner, ?_, ?_, ?_⟩, ⟨hlater, hints, hids ▸ List.prefix_rfl⟩, ?_⟩
    · rw [hids, h.intentos, hw.origen, List.filter_append, List.map_append]
      have : (o.intento.row.resultado = .exitoso) = False := eq_false hex
      simp only [List.filter_cons, this, List.filter_nil]
      simp
    · rw [hids]
      exact hw.activa
    · rw [hids, hout]
      exact hw.eventos
    · exact ⟨hrow, rfl, fun h => absurd h hex, fun _ => hres, by rw [h.answer]⟩

/-- A step of a call keeps the invariant and what its call may answer. -/
theorem verifierStep_ok {cfg : VerificationSettings} (hw : VerificationOK w) {l : Verifier}
    {a : VerifierAct} {r : VerificationWorld × Verifier}
    (hl : ∀ id o, l.outcome? = some (id, o) → Answered w id o)
    (h : verifierStep cfg w l a = some r) :
    VerificationOK r.1 ∧ (∀ id o, r.2.outcome? = some (id, o) → Answered r.1 id o) ∧
      VerificationLater w r.1 := by
  obtain ⟨w', l'⟩ := r
  cases verifierStep_effect h with
  | quiet hq hout =>
    obtain ⟨hok, hlater⟩ := hq.ok hw
    refine ⟨hok, fun id o ho => ?_, hlater⟩
    exact (hl id o (hout ▸ ho)).stable hlater
  | commit _ hc hid hout =>
    obtain ⟨hok, hlater, hans⟩ := hc.ok hw
    refine ⟨hok, fun id o ho => ?_, hlater⟩
    simp only [Verifier.outcome?, hout, Option.map_some, Option.some.injEq, Prod.mk.injEq] at ho
    obtain ⟨rfl, rfl⟩ := ho
    exact hid ▸ hans

/-- So does a step of the environment. -/
theorem verificationEnvStep_ok (hw : VerificationOK w) {e : VerificationEnv}
    (h : verificationEnvStep w e = some w') : VerificationOK w' ∧ VerificationLater w w' := by
  rcases verificationEnvStep_effect h with hq | ⟨p, hp, ht, hw'⟩
  · exact hq.ok hw
  · rw [hw']
    exact hw.register hp ht

/-- The verification services keep the invariant. -/
theorem verification_relyGuarantee (cfg : VerificationSettings) :
    RelyGuarantee (verificationProgram cfg) VerificationOK
      (fun _ w l => ∀ id o, l.outcome? = some (id, o) → Answered w id o)
      fun _ => VerificationLater where
  call hw hl h := verifierStep_ok hw hl h
  stable _ hg hl id o ho := (hl id o ho).stable hg
  env hw h := ⟨(verificationEnvStep_ok hw h).1,
    fun _ _ hl id o ho => (hl id o ho).stable (verificationEnvStep_ok hw h).2⟩

/-- The invariant of the verification services. -/
abbrev VerifiersOK : VerificationSystem → Prop :=
  Holds VerificationOK fun _ w l => ∀ id o, l.outcome? = some (id, o) → Answered w id o

variable {cfg : VerificationSettings} {s t : VerificationSystem}

/-- The invariant holds of empty tables. -/
theorem VerificationSystem.Initial.ok (h : s.Initial) : VerifiersOK s := by
  obtain ⟨hp, hi, hx, ho, hl⟩ := h
  refine ⟨⟨?_, ?_, ?_, ?_, ?_⟩, ?_⟩
  · intro id p hfind
    rw [hp] at hfind
    cases hfind
  · intro a ha
    rw [hi] at ha
    cases ha
  · rw [hx, hi]
    rfl
  · intro x hx'
    rw [hx] at hx'
    cases hx'
  · rw [hx, ho]
    exact .nil
  · intro i id o hio
    rw [hl] at hio
    cases hio

theorem verification_inv (hs : Reachable VerificationSystem.Initial (verificationStep cfg) s) :
    VerifiersOK s :=
  (verification_relyGuarantee cfg).reachable (fun _ h => h.ok) hs

/-- A step of the system is quiet and leaves every answer, registers a passenger, or is the commit
of a call that had none. -/
theorem verificationStep_effect {a : Act VerifierAct VerificationEnv}
    (h : verificationStep cfg s a = some t) :
    (Unmoved s.shared t.shared ∧ ∀ j, (t.locals j).outcome? = (s.locals j).outcome?) ∨
    (∃ e, a = .env e ∧ t.locals = s.locals ∧ ∃ p : PasajeroRow, p.progress = {} ∧
      s.shared.pasajeros.insert? p = some t.shared.pasajeros ∧
      t.shared = { s.shared with pasajeros := t.shared.pasajeros }) ∨
    ∃ i b o event p p', a = .call i b ∧ AttemptCommit s.shared t.shared o event p p' ∧
      (s.locals i).outcome? = none ∧ (t.locals i).outcome? = some (o.intento.pasajeroId, o) ∧
      ∀ j, j ≠ i → t.locals j = s.locals j := by
  rcases Program.step_cases h with ⟨i, b, r, rfl, hc, hsh, hi, hother⟩ | ⟨e, rfl, he, hloc⟩
  · have heff := verifierStep_effect hc
    rw [← hsh, ← hi] at heff
    generalize hl : s.locals i = l at heff
    generalize hl' : t.locals i = l' at heff
    cases heff with
    | quiet hq hout =>
      exact .inl ⟨hq, Sys.forall_locals (fun j l => l.outcome? = (s.locals j).outcome?)
        (by rw [hl, hl', hout]) hother fun _ _ => rfl⟩
    | @commit pasajero selfie ph ph' o event p p' hnone hcom hid hout =>
      refine .inr (.inr ⟨i, b, o, event, p, p', rfl, hcom, ?_, ?_, hother⟩)
      · simp only [hl, Verifier.outcome?, hnone, Option.map_none]
      · simp only [hl', Verifier.outcome?, hout, Option.map_some, hid]
  · rcases verificationEnvStep_effect he with hq | ⟨p, hp⟩
    · exact .inl ⟨hq, fun j => by rw [hloc]⟩
    · exact .inr (.inl ⟨e, rfl, hloc, p, hp⟩)

/-- What a step of the system leaves. -/
theorem verificationStep_later (hs : VerifiersOK s) {a : Act VerifierAct VerificationEnv}
    (h : verificationStep cfg s a = some t) : VerificationLater s.shared t.shared := by
  rcases Program.step_cases h with ⟨i, b, r, rfl, hc, hsh, -⟩ | ⟨e, rfl, he, -⟩
  · rw [hsh]
    exact (verifierStep_ok hs.1 (hs.2 i) hc).2.2
  · exact (verificationEnvStep_ok hs.1 he).2

/-- What a run of the system leaves. -/
theorem verificationRun_later (hs : VerifiersOK s) {as : List (Act VerifierAct VerificationEnv)}
    (h : run (verificationStep cfg) s as = some t) : VerificationLater s.shared t.shared :=
  run_rel (I := VerifiersOK) (fun _ _ _ hu hst => (verification_relyGuarantee cfg).step hu hst)
    (fun _ => .refl _) .trans (fun _ _ _ hu hst => verificationStep_later hu hst) h hs

end Aeropass
