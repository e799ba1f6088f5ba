import Aeropass.Registration.System

/-!
# The invariant of the registration

The unique constraints hold of the table, passengers keep their account and document
(`RegistrationLater`), and a call knows what its reads and its refused insert have shown it
(`RegisterPhase.OK`).
-/

namespace Aeropass

open Runs Threads

/-- The passenger has the document that the request is about: its type and its canonical number. -/
def RegisterRequest.Same (q : RegisterRequest) (d : DatosDocumento) : Prop :=
  TipoDocumento.of? q.tipoDocumento = some d.tipo ∧
    d.numero = normalizarNumero (q.numeroDocumento.getD "")

instance (q : RegisterRequest) (d : DatosDocumento) : Decidable (q.Same d) :=
  inferInstanceAs (Decidable (_ ∧ _))

/-- What every step leaves: passengers keep their account and document. -/
structure RegistrationLater (w w' : RegistrationWorld) : Prop where
  pasajeros : ∀ r ∈ w.pasajeros.rows, ∃ r' ∈ w'.pasajeros.rows, r'.id = r.id ∧
    r'.clerkUserId = r.clerkUserId ∧ r'.documento = r.documento

/-- The passenger `p` of the caller, with its document, is in the table. -/
structure Own (w : RegistrationWorld) (q : RegisterRequest) (p : Pasajero) : Prop where
  cuenta : p.clerkUserId = q.clerkUserId
  documento : q.Same p.documento.toDatosDocumento
  stored : ∃ r ∈ w.pasajeros.rows, r.id = p.id ∧ r.clerkUserId = p.clerkUserId ∧
    r.documento = p.documento

/-- The validated document of a request. -/
structure Validated (q : RegisterRequest) (d : DatosDocumento) : Prop where
  same : q.Same d
  valido : d.Valido

/-- What a refused insert has met. -/
def Refused (w : RegistrationWorld) (q : RegisterRequest) (violated : String) : Prop :=
  violated = "pasajeros_pkey" ∨
  (violated = "uq_pasajeros_clerk_user_id" ∧
    ∃ r ∈ w.pasajeros.rows, r.clerkUserId = q.clerkUserId) ∨
  (violated = "uq_pasajeros_documento" ∧
    ∃ r ∈ w.pasajeros.rows, q.Same r.documento.toDatosDocumento)

/-- What a call knows where it is. -/
def RegisterPhase.OK (w : RegistrationWorld) (q : RegisterRequest) : RegisterPhase → Prop
  | .start | .done _ => True
  | .readingUser datos _ | .readingDocument datos _ | .storing datos _ _ => Validated q datos
  | .adding datos p => Validated q datos ∧
    ∃ id foto ahora, p = .registrar id q.clerkUserId datos foto ahora
  | .resolving datos violated => Validated q datos ∧ Refused w q violated
  | .withIdentity propio => Own w q propio

/-- What a call of the service knows. -/
def Registrar.OK (w : RegistrationWorld) : Registrar → Prop
  | .idle => True
  | .register q ph => ph.OK w q

variable {w w' : RegistrationWorld} {q : RegisterRequest} {p : Pasajero} {d d' : DatosDocumento}
  {ph : RegisterPhase} {ch : RegisterChoice}

/-- `es_mismo` compares the documents that requests are about. -/
theorem RegisterRequest.Same.iff_esMismo (h : q.Same d) {x : DocumentoRegistrado} :
    q.Same x.toDatosDocumento ↔ x.esMismo d := by
  obtain ⟨htipo, hnum⟩ := h
  simp only [Same, htipo, ← hnum, DocumentoRegistrado.esMismo, Bool.and_eq_true,
    decide_eq_true_eq, Option.some.injEq]
  constructor
  · rintro ⟨h1, h2⟩
    exact ⟨h1.symm, h2⟩
  · rintro ⟨h1, h2⟩
    exact ⟨h1.symm, h2⟩

/-- What `_validate` lets pass is the validated document of the request. -/
theorem RegisterRequest.validate_ok {hoy : Date} (h : q.validate hoy = .ok d) : Validated q d := by
  unfold validate at h
  dsimp only at h
  generalize (if (q.foto.getD []).isEmpty then ["foto_documento"] else []) = faltantes at h
  split at h
  · split at h
    · cases h
    · split at h <;> cases h
  · next hval =>
    split at h
    · cases h
      obtain ⟨h1, h2, h3⟩ := DatosDocumento.validar_ok hval
      exact ⟨⟨h1, h2⟩, h3⟩
    · cases h

/-! ## Stability -/

theorem RegistrationLater.refl (w : RegistrationWorld) : RegistrationLater w w :=
  ⟨fun r hr => ⟨r, hr, rfl, rfl, rfl⟩⟩

theorem Own.stable (h : RegistrationLater w w') (ho : Own w q p) : Own w' q p := by
  refine { ho with stored := ?_ }
  obtain ⟨r, hr, h1, h2, h3⟩ := ho.stored
  obtain ⟨r', hr', h1', h2', h3'⟩ := h.pasajeros r hr
  exact ⟨r', hr', h1'.trans h1, h2'.trans h2, h3'.trans h3⟩

/-- What refused an insert refuses it later too. -/
theorem Refused.stable (h : RegistrationLater w w') {violated : String}
    (hr : Refused w q violated) : Refused w' q violated := by
  rcases hr with hk | ⟨hc, r, hr, hu⟩ | ⟨hc, r, hr, hs⟩
  · exact .inl hk
  · obtain ⟨r', hr', -, hu', -⟩ := h.pasajeros r hr
    exact .inr (.inl ⟨hc, r', hr', hu'.trans hu⟩)
  · obtain ⟨r', hr', -, -, hd'⟩ := h.pasajeros r hr
    exact .inr (.inr ⟨hc, r', hr', hd' ▸ hs⟩)

/-- What a call knows survives every step. -/
theorem Registrar.OK.stable (h : RegistrationLater w w') {l : Registrar} (hl : l.OK w) :
    l.OK w' := by
  cases l with
  | idle => trivial
  | register q ph =>
    cases ph with
    | start | done => trivial
    | readingUser | readingDocument | storing | adding => exact hl
    | resolving datos violated => exact ⟨hl.1, hl.2.stable h⟩
    | withIdentity propio => exact Own.stable h hl

/-! ## Steps -/

/-- The caller's row with the document of the request is its own passenger. -/
theorem own_of_getByClerkUser (hd : q.Same d) {r : PasajeroRow}
    (h : w.pasajeros.getByClerkUser q.clerkUserId = some r) (hm : r.documento.esMismo d) :
    Own w q { r with } := by
  obtain ⟨hr, hu⟩ := PasajerosTable.getByClerkUser_some h
  exact ⟨hu, hd.iff_esMismo.2 hm, r, hr, rfl, rfl, rfl⟩

/-- One step of `register` keeps the unique constraints and what the call knows. -/
theorem registerStep_ok (hw : w.pasajeros.UniqueRows) (hl : ph.OK w q)
    {r : RegistrationWorld × RegisterPhase} (h : registerStep w q ch ph = some r) :
    r.1.pasajeros.UniqueRows ∧ r.2.OK r.1 q ∧ RegistrationLater w r.1 := by
  cases ph with
  | start =>
    simp only [registerStep] at h
    split at h
    · cases h; exact ⟨hw, trivial, .refl w⟩
    · next hval =>
      split at h <;> cases h
      · exact ⟨hw, trivial, .refl w⟩
      · exact ⟨hw, RegisterRequest.validate_ok hval, .refl w⟩
  | readingUser datos imagen =>
    simp only [registerStep] at h
    split at h
    · cases h; exact ⟨hw, trivial, .refl w⟩
    split at h
    · cases h; exact ⟨hw, trivial, .refl w⟩
    · split at h
      · next propio hget =>
        split at h
        · next hm => cases h; exact ⟨hw, own_of_getByClerkUser hl.same hget hm, .refl w⟩
        · cases h; exact ⟨hw, trivial, .refl w⟩
      · cases h; exact ⟨hw, hl, .refl w⟩
  | readingDocument datos imagen =>
    simp only [registerStep] at h
    split at h
    · cases h; exact ⟨hw, trivial, .refl w⟩
    · split at h <;> cases h
      · exact ⟨hw, trivial, .refl w⟩
      · exact ⟨hw, hl, .refl w⟩
  | storing datos imagen pasajeroId =>
    simp only [registerStep] at h
    split at h
    · cases h; exact ⟨hw, trivial, .refl w⟩
    · split at h <;> cases h
      · exact ⟨hw, trivial, .refl w⟩
      · exact ⟨hw, ⟨hl, _, _, _, rfl⟩, .refl w⟩
  | adding datos pasajero =>
    obtain ⟨hv, id, foto, ahora, rfl⟩ := hl
    simp only [registerStep] at h
    split at h
    · cases h; exact ⟨hw, trivial, .refl w⟩
    split at h
    · cases h; exact ⟨hw, trivial, .refl w⟩
    · split at h
      · next violated hins =>
        cases h
        refine ⟨hw, ⟨hv, ?_⟩, .refl w⟩
        rcases PasajerosTable.insertError_some hins hv.valido rfl with ⟨hc, -⟩ | ⟨hc, r, hr, hu⟩ |
          ⟨hc, r, hr, hm⟩
        · exact .inl hc
        · exact .inr (.inl ⟨hc, r, hr, hu⟩)
        · exact .inr (.inr ⟨hc, r, hr, hv.same.iff_esMismo.2 hm⟩)
      · next hins =>
        obtain ⟨t, ht, hrows, -, hu⟩ := PasajerosTable.insertError_none hins hw
        rw [ht] at h
        cases h
        refine ⟨hu, trivial, ⟨fun r hr => ⟨r, ?_, rfl, rfl, rfl⟩⟩⟩
        change r ∈ t.rows
        rw [hrows]
        exact List.mem_append_left _ hr
  | resolving datos violated =>
    simp only [registerStep] at h
    split at h
    · cases h; exact ⟨hw, trivial, .refl w⟩
    split at h
    · cases h; exact ⟨hw, trivial, .refl w⟩
    · split at h
      · next propio hget =>
        split at h
        · next hm => cases h; exact ⟨hw, own_of_getByClerkUser hl.1.same hget hm, .refl w⟩
        · cases h; exact ⟨hw, trivial, .refl w⟩
      · cases h; exact ⟨hw, trivial, .refl w⟩
  | withIdentity propio =>
    simp only [registerStep] at h
    split at h <;> cases h <;> exact ⟨hw, trivial, .refl w⟩
  | done => cases h

/-- One step of a call. -/
theorem registrarStep_ok (hw : w.pasajeros.UniqueRows) {l : Registrar} {a : RegistrarAct}
    {r : RegistrationWorld × Registrar} (hl : l.OK w) (h : registrarStep w l a = some r) :
    r.1.pasajeros.UniqueRows ∧ r.2.OK r.1 ∧ RegistrationLater w r.1 := by
  unfold registrarStep at h
  split at h
  · cases h
    exact ⟨hw, trivial, .refl w⟩
  · obtain ⟨r', hr', rfl⟩ := Option.map_eq_some_iff.1 h
    exact registerStep_ok hw hl hr'
  · cases h

/-- One step of the environment. -/
theorem registrationEnvStep_ok (hw : w.pasajeros.UniqueRows) {e : RegistrationEnv}
    (h : registrationEnvStep w e = some w') :
    w'.pasajeros.UniqueRows ∧ RegistrationLater w w' := by
  cases e with
  | tick d => cases h; exact ⟨hw, ⟨fun r hr => ⟨r, hr, rfl, rfl, rfl⟩⟩⟩
  | identify x => cases h; exact ⟨hw, ⟨fun r hr => ⟨r, hr, rfl, rfl, rfl⟩⟩⟩
  | verify id estado intentosFallidos updatedAt =>
    cases h
    -- the columns that the constraints and the relation are about stay
    have hmap : ∀ {β : Type} (f : PasajeroRow → β),
        (∀ r estado n at', f { r with estado, intentosFallidos := n, updatedAt := at' } = f r) →
        (w.pasajeros.modify id (fun r =>
          { r with estado, intentosFallidos, updatedAt := some updatedAt })
            fun _ => rfl).rows.map f = w.pasajeros.rows.map f := by
      intro β f hf
      simp only [Rows.modify, Rows.map, List.map_map]
      refine List.map_congr_left fun r _ => ?_
      simp only [Function.comp_apply]
      split
      · exact hf ..
      · rfl
    refine ⟨⟨?_, ?_⟩, ⟨fun r hr => ?_⟩⟩
    · rw [hmap _ fun _ _ _ _ => rfl]
      exact hw.cuentas
    · rw [hmap _ fun _ _ _ _ => rfl]
      exact hw.documentos
    · have hmem : (r.id, r.clerkUserId, r.documento) ∈
          w.pasajeros.rows.map fun r => (r.id, r.clerkUserId, r.documento) :=
        List.mem_map_of_mem hr
      rw [← hmap _ fun _ _ _ _ => rfl] at hmem
      obtain ⟨r', hr', heq⟩ := List.mem_map.1 hmem
      simp only [Prod.mk.injEq] at heq
      exact ⟨r', hr', heq.1, heq.2.1, heq.2.2⟩

/-- The service keeps the invariant. -/
theorem registration_relyGuarantee :
    RelyGuarantee registrationProgram (fun w => w.pasajeros.UniqueRows) (fun _ w l => l.OK w)
      fun _ => RegistrationLater where
  call hw hl h := registrarStep_ok hw hl h
  stable _ hg hl := hl.stable hg
  env hw h := ⟨(registrationEnvStep_ok hw h).1,
    fun _ _ hl => hl.stable (registrationEnvStep_ok hw h).2⟩

/-- The invariant of the service. -/
abbrev RegistrarsOK : RegistrationSystem → Prop :=
  Holds (fun w => w.pasajeros.UniqueRows) fun _ w l => l.OK w

/-- The invariant holds of empty tables. -/
theorem RegistrationSystem.Initial.ok {s : RegistrationSystem} (h : s.Initial) :
    RegistrarsOK s := by
  obtain ⟨hp, hl⟩ := h
  refine ⟨?_, fun i => ?_⟩
  · change s.shared.pasajeros.UniqueRows
    rw [hp]
    exact ⟨List.nodup_nil, List.nodup_nil⟩
  · rw [hl]
    trivial

end Aeropass
