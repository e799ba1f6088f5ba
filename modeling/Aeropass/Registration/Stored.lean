import Aeropass.Registration.Answers

/-!
# What registration stores

`register` validates, uploads the photo and inserts in three phases with other calls between them.
What each call shows of them is collected along the run (`registrationEvents`), so that a stored
passenger can be traced to the validation and the upload of its own call: `Complete` says what a
row is inserted with, and `Inserted` that the rows are those of the calls answered `created`, one
each.
-/

namespace Aeropass

open Runs Threads PyStr

/-- What a call of `register` shows: the day it validates a document on, the upload that it has
asked for with the reference that media storage answers, and a row that comes into the table. -/
inductive RegisterEvent where
  | valida (hoy : Date) (datos : DatosDocumento)
  | sube (put : PutPrivate) (foto : StoredMedia)
  | inserta (r : PasajeroRow)
  deriving DecidableEq

/-- What a phase shows before it touches the table. -/
def RegisterPhase.shows (w : RegistrationWorld) (q : RegisterRequest) (ch : RegisterChoice) :
    RegisterPhase → List RegisterEvent
  | .start =>
    match q.validate (Instant.date w.clock) with
    | .error _ => []
    | .ok datos => [.valida (Instant.date w.clock) datos]
  | .storing _ put _ => if ch.dies then [] else (ch.media.map (.sube put)).toList
  | _ => []

/-- What a step of a call shows before it touches the table. -/
def Registrar.shows (w : RegistrationWorld) : Registrar → RegistrarAct → List RegisterEvent
  | .register q ph, .next ch => ph.shows w q ch
  | _, _ => []

/-- What a step shows, with its call: the rows that it appends come last. -/
def registrationEvents (s : RegistrationSystem) (a : Act RegistrarAct RegistrationEnv)
    (t : RegistrationSystem) : List (Nat × RegisterEvent) :=
  match a with
  | .env _ => []
  | .call i b =>
    let nuevas := t.shared.pasajeros.rows.drop s.shared.pasajeros.rows.length
    ((s.locals i).shows s.shared b ++ nuevas.map RegisterEvent.inserta).map (Prod.mk i)

/-- The rows that were inserted, each with its call. -/
def altas (hist : List (Nat × RegisterEvent)) : List (Nat × PasajeroRow) :=
  hist.filterMap fun
    | (i, .inserta r) => some (i, r)
    | _ => none

/-- The passenger that a call has returned as created. -/
def Registrar.created? : Registrar → Option Pasajero
  | .register _ (.done (.ok (p, true))) => some p
  | _ => none

/-- The columns that no service changes once a passenger is stored. -/
def PasajeroRow.fijas (r : PasajeroRow) : UUID × String × DocumentoRegistrado × Option Instant :=
  (r.id, r.clerkUserId, r.documento, r.createdAt)

/-- The CHECK constraints of `pasajeros`. -/
def checksPasajeros : List String :=
  ["ck_pasajeros_nombre_longitud", "ck_pasajeros_numero_formato",
    "ck_pasajeros_intentos_fallidos_rango"]

/-- Call `i` has validated the document on a day on which it had not expired. -/
def Vigente (hist : List (Nat × RegisterEvent)) (i : Nat) (d : DatosDocumento) : Prop :=
  ∃ hoy, (i, .valida hoy d) ∈ hist ∧ hoy ≤ d.fechaVencimiento

/-- Call `i` has uploaded the photo of its request to the passenger's own path, and got the
reference. -/
def FotoPropia (hist : List (Nat × RegisterEvent)) (i : Nat) (q : RegisterRequest) (id : UUID)
    (foto : StoredMedia) : Prop :=
  ∃ imagen, validateImage (q.foto.getD []) q.fotoContentType = .ok imagen ∧
    (i, .sube ⟨"documentos/" ++ id.str ++ "/rostro", imagen⟩ foto) ∈ hist

/-- What call `i` inserts a passenger with, for the request `q`. -/
structure Complete (hist : List (Nat × RegisterEvent)) (i : Nat) (q : RegisterRequest)
    (r : PasajeroRow) : Prop where
  cuenta : r.clerkUserId = q.clerkUserId
  documento : q.Same r.documento.toDatosDocumento
  estado : r.estado = .pendienteVerificacion
  intentosFallidos : r.intentosFallidos = 0
  nombre : 2 ≤ r.documento.nombreCompleto.toList.length ∧
    r.documento.nombreCompleto.toList.length ≤ 200
  numero : matchNumero r.documento.numero.toList = true
  canonico : normalizarNumero r.documento.numero = r.documento.numero
  vigente : Vigente hist i r.documento.toDatosDocumento
  foto : FotoPropia hist i q r.id r.documento.foto

/-- The inserted rows are those of the calls answered `created`, one each, and they are all there
is in the table. -/
structure Inserted (hist : List (Nat × RegisterEvent)) (t : RegistrationSystem) : Prop where
  llamadas : ((altas hist).map Prod.fst).Nodup
  creados : ∀ i r, (i, r) ∈ altas hist ↔ (t.locals i).created?.map (·.toPasajeroRow) = some r
  filas : t.shared.pasajeros.rows.map (·.fijas) = (altas hist).map fun x => x.2.fijas

/-- What a call has shown where it is. -/
def RegisterPhase.Shown (hist : List (Nat × RegisterEvent)) (i : Nat) (q : RegisterRequest) :
    RegisterPhase → Prop
  | .readingUser datos imagen | .readingDocument datos imagen =>
    Vigente hist i datos ∧ validateImage (q.foto.getD []) q.fotoContentType = .ok imagen
  | .storing datos put pasajeroId =>
    Vigente hist i datos ∧ validateImage (q.foto.getD []) q.fotoContentType = .ok put.image ∧
      put.pathname = "documentos/" ++ pasajeroId.str ++ "/rostro"
  | .adding datos p => Vigente hist i datos ∧ FotoPropia hist i q p.id p.documento.foto
  | .done (.ok (p, true)) => Complete hist i q p.toPasajeroRow
  | _ => True

/-- What a call has shown. -/
def Registrar.Shown (hist : List (Nat × RegisterEvent)) (i : Nat) : Registrar → Prop
  | .idle => True
  | .register q ph => ph.Shown hist i q

variable {w w' : RegistrationWorld} {q : RegisterRequest} {ph : RegisterPhase}
  {ch : RegisterChoice} {s t : RegistrationSystem} {hist hist' : List (Nat × RegisterEvent)}
  {i : Nat}

/-- A call has created what it is answered with. -/
theorem Registrar.created?_eq_some {l : Registrar} {p : Pasajero} (h : l.created? = some p) :
    ∃ q, l = .register q (.done (.ok (p, true))) := by
  unfold created? at h
  split at h
  · cases h
    exact ⟨_, rfl⟩
  · cases h

/-! ## What is validated -/

/-- A validated document has not expired. -/
theorem DatosDocumento.validar_vigente {nombre tipo numero : Option String} {fecha : Option Date}
    {hoy : Date} {d : DatosDocumento} (h : validar nombre tipo numero fecha hoy = .ok d) :
    hoy ≤ d.fechaVencimiento := by
  unfold validar at h
  dsimp only at h
  split at h
  · split at h
    · cases h
    · next hfecha =>
      cases h
      exact Int.not_lt.1 hfecha
  · cases h

/-- A document that passes the validation has not expired. -/
theorem RegisterRequest.validate_vigente {hoy : Date} {d : DatosDocumento}
    (h : q.validate hoy = .ok d) : hoy ≤ d.fechaVencimiento := by
  unfold validate at h
  dsimp only at h
  generalize (if (q.foto.getD []).isEmpty then ["foto_documento"] else []) = faltantes at h
  split at h
  · split at h
    · cases h
    · split at h <;> cases h
  · next hval =>
    split at h
    · cases h
      exact DatosDocumento.validar_vigente hval
    · cases h

/-! ## What calls have shown stays shown -/

theorem Vigente.mono (hsub : hist ⊆ hist') {d : DatosDocumento} (h : Vigente hist i d) :
    Vigente hist' i d := by
  obtain ⟨hoy, hmem, hle⟩ := h
  exact ⟨hoy, hsub hmem, hle⟩

theorem FotoPropia.mono (hsub : hist ⊆ hist') {id : UUID} {foto : StoredMedia}
    (h : FotoPropia hist i q id foto) : FotoPropia hist' i q id foto := by
  obtain ⟨imagen, hval, hmem⟩ := h
  exact ⟨imagen, hval, hsub hmem⟩

theorem Complete.mono (hsub : hist ⊆ hist') {r : PasajeroRow} (h : Complete hist i q r) :
    Complete hist' i q r :=
  { h with vigente := h.vigente.mono hsub, foto := h.foto.mono hsub }

/-- What a call has shown stays shown. -/
theorem Registrar.Shown.mono (hsub : hist ⊆ hist') {l : Registrar} (h : l.Shown hist i) :
    l.Shown hist' i := by
  cases l with
  | idle => trivial
  | register q ph =>
    cases ph with
    | start | resolving | withIdentity => trivial
    | readingUser | readingDocument | storing => exact ⟨Vigente.mono hsub h.1, h.2⟩
    | adding => exact ⟨Vigente.mono hsub h.1, FotoPropia.mono hsub h.2⟩
    | done ans =>
      match ans, h with
      | .ok (p, true), h => exact Complete.mono hsub h
      | .ok (p, false), _ => trivial
      | .error e, _ => trivial

/-! ## Steps -/

/-- One step of `register` appends the passenger that it returns as created, and nothing else. -/
theorem registerStep_rows (hw : w.pasajeros.UniqueRows)
    {r : RegistrationWorld × RegisterPhase} (h : registerStep w q ch ph = some r) :
    r.1.pasajeros.rows = w.pasajeros.rows ++
      ((Registrar.register q r.2).created?.map (·.toPasajeroRow)).toList := by
  cases ph with
  | start =>
    simp only [registerStep] at h
    split at h
    · cases h; simp [Registrar.created?]
    · split at h <;> cases h <;> simp [Registrar.created?]
  | readingUser | resolving =>
    simp only [registerStep] at h
    split at h
    · cases h; simp [Registrar.created?]
    split at h
    · cases h; simp [Registrar.created?]
    · split at h
      · split at h <;> cases h <;> simp [Registrar.created?]
      · cases h; simp [Registrar.created?]
  | readingDocument | storing =>
    simp only [registerStep] at h
    split at h
    · cases h; simp [Registrar.created?]
    · split at h <;> cases h <;> simp [Registrar.created?]
  | withIdentity =>
    simp only [registerStep] at h
    split at h <;> cases h <;> simp [Registrar.created?]
  | adding datos p =>
    simp only [registerStep] at h
    split at h
    · cases h; simp [Registrar.created?]
    split at h
    · cases h; simp [Registrar.created?]
    · split at h
      · cases h; simp [Registrar.created?]
      · next hins =>
        obtain ⟨t, ht, hrows, -, -⟩ := PasajerosTable.insertError_none hins hw
        rw [ht] at h
        cases h
        exact hrows
  | done => cases h

/-- What a call inserts is complete, by what it knows and has shown. -/
theorem complete_of_adding {datos : DatosDocumento} {p : Pasajero}
    (hl : RegisterPhase.OK w q (.adding datos p))
    (hs : RegisterPhase.Shown hist i q (.adding datos p)) :
    Complete hist i q p.toPasajeroRow := by
  obtain ⟨hv, id, foto, ahora, rfl⟩ := hl
  exact {
    cuenta := rfl
    documento := hv.same
    estado := rfl
    intentosFallidos := rfl
    nombre := hv.valido.nombre
    numero := hv.valido.numero
    canonico := normalizarNumero_of_match hv.valido.numero
    vigente := hs.1
    foto := hs.2 }

/-- One step of `register` shows what the next phase asks for. -/
theorem registerStep_shown (hl : ph.OK w q) (hs : ph.Shown hist i q)
    (hsub : hist ⊆ hist') (hshows : ∀ e ∈ ph.shows w q ch, (i, e) ∈ hist')
    {r : RegistrationWorld × RegisterPhase} (h : registerStep w q ch ph = some r) :
    r.2.Shown hist' i q := by
  cases ph with
  | start =>
    simp only [registerStep] at h
    split at h
    · cases h; trivial
    · next datos hval =>
      split at h
      · cases h; trivial
      · next himg =>
        cases h
        refine ⟨⟨Instant.date w.clock, hshows _ ?_, RegisterRequest.validate_vigente hval⟩, himg⟩
        simp [RegisterPhase.shows, hval]
  | readingUser =>
    simp only [registerStep] at h
    split at h
    · cases h; trivial
    split at h
    · cases h; trivial
    · split at h
      · split at h <;> cases h <;> trivial
      · cases h; exact ⟨hs.1.mono hsub, hs.2⟩
  | readingDocument =>
    simp only [registerStep] at h
    split at h
    · cases h; trivial
    · split at h <;> cases h
      · trivial
      · exact ⟨hs.1.mono hsub, hs.2, rfl⟩
  | storing datos put pasajeroId =>
    simp only [registerStep] at h
    split at h
    · cases h; trivial
    · next hlives =>
      split at h <;> cases h
      · trivial
      · next foto hmedia =>
        obtain ⟨hv, himg, hpath⟩ := hs
        refine ⟨hv.mono hsub, put.image, himg, hshows _ ?_⟩
        simp [RegisterPhase.shows, hlives, hmedia, Pasajero.registrar, ← hpath]
  | adding datos p =>
    have hcomplete := (complete_of_adding hl hs).mono hsub
    simp only [registerStep] at h
    split at h
    · cases h; trivial
    split at h
    · cases h; trivial
    · split at h <;> cases h
      · trivial
      · exact hcomplete
  | resolving =>
    simp only [registerStep] at h
    split at h
    · cases h; trivial
    split at h
    · cases h; trivial
    · split at h
      · split at h <;> cases h <;> trivial
      · cases h; trivial
  | withIdentity =>
    simp only [registerStep] at h
    split at h <;> cases h <;> trivial
  | done => cases h

/-- One step of a call. -/
theorem registrarStep_shown {l : Registrar} {b : RegistrarAct} (hl : l.OK w)
    (hs : l.Shown hist i) (hsub : hist ⊆ hist') (hshows : ∀ e ∈ l.shows w b, (i, e) ∈ hist')
    {r : RegistrationWorld × Registrar} (h : registrarStep w l b = some r) :
    r.2.Shown hist' i := by
  unfold registrarStep at h
  split at h
  · cases h; trivial
  · obtain ⟨r', hr', rfl⟩ := Option.map_eq_some_iff.1 h
    exact registerStep_shown hl hs hsub hshows hr'
  · cases h

/-- A step of a call appends the passenger that it returns as created, and a call that has
returned takes no step. -/
theorem registrarStep_rows (hw : w.pasajeros.UniqueRows) {l : Registrar} {b : RegistrarAct}
    {r : RegistrationWorld × Registrar} (h : registrarStep w l b = some r) :
    r.1.pasajeros.rows = w.pasajeros.rows ++ (r.2.created?.map (·.toPasajeroRow)).toList ∧
      l.created? = none := by
  unfold registrarStep at h
  split at h
  · cases h; simp [Registrar.created?]
  · next q ph ch =>
    obtain ⟨r', hr', rfl⟩ := Option.map_eq_some_iff.1 h
    refine ⟨registerStep_rows hw hr', ?_⟩
    cases ph with
    | done => cases hr'
    | _ => rfl
  · cases h

/-- The environment leaves the columns that registration has written. -/
theorem registrationEnvStep_fijas {e : RegistrationEnv} (h : registrationEnvStep w e = some w') :
    w'.pasajeros.rows.map (·.fijas) = w.pasajeros.rows.map (·.fijas) := by
  cases e with
  | tick | identify =>
    cases h
    rfl
  | verify id estado intentosFallidos updatedAt =>
    cases h
    simp only [Rows.modify, Rows.map, List.map_map]
    refine List.map_congr_left fun r _ => ?_
    simp only [Function.comp_apply]
    split <;> rfl

/-! ## Runs -/

theorem altas_append (hist hist' : List (Nat × RegisterEvent)) :
    altas (hist ++ hist') = altas hist ++ altas hist' :=
  List.filterMap_append ..

/-- What a step shows before it touches the table is no insert. -/
theorem altas_shows (l : Registrar) (b : RegistrarAct) :
    altas ((l.shows w b).map (Prod.mk i)) = [] := by
  refine List.filterMap_eq_nil_iff.2 fun x hx => ?_
  obtain ⟨e, he, rfl⟩ := List.mem_map.1 hx
  unfold Registrar.shows RegisterPhase.shows at he
  split at he
  · split at he
    · split at he
      · cases he
      · cases List.mem_singleton.1 he
        rfl
    · split at he
      · cases he
      · obtain ⟨foto, -, rfl⟩ := Option.map_eq_some_iff.1 (Option.mem_toList.1 he)
        rfl
    · cases he
  · cases he

/-- The inserts that a step of a call shows are the rows that it appends. -/
theorem altas_registrationEvents {b : RegistrarAct} {nuevas : List PasajeroRow}
    (h : t.shared.pasajeros.rows = s.shared.pasajeros.rows ++ nuevas) :
    altas (registrationEvents s (.call i b) t) = nuevas.map (Prod.mk i) := by
  simp only [registrationEvents, h, List.drop_left, List.map_append, altas_append, altas_shows,
    List.nil_append]
  rw [altas, List.map_map, List.filterMap_map]
  exact congrFun List.filterMap_eq_map nuevas

/-- One step keeps the rows those of the calls answered `created`. -/
theorem Inserted.step (hs : RegistrarsOK s) (h : Inserted hist s)
    {a : Act RegistrarAct RegistrationEnv} (hst : registrationStep s a = some t) :
    Inserted (hist ++ registrationEvents s a t) t := by
  rcases Program.step_cases hst with ⟨i, b, r, rfl, hc, hsh, hi, hother⟩ | ⟨e, rfl, he, hloc⟩
  · obtain ⟨hrows, hnone⟩ := registrarStep_rows hs.1 hc
    rw [← hi, ← hsh] at hrows
    have haltas := altas_registrationEvents (i := i) (b := b) hrows
    have hfree : ∀ r, (i, r) ∉ altas hist := by
      intro r hr
      have hcreado := (h.creados i r).1 hr
      rw [hnone] at hcreado
      cases hcreado
    refine ⟨?_, fun j r => ?_, ?_⟩
    · rw [altas_append, haltas, List.map_append, List.nodup_append]
      refine ⟨h.llamadas, ?_, ?_⟩
      · cases (t.locals i).created? <;> simp
      · rintro x hx y hy rfl
        obtain ⟨⟨j, r⟩, hmem, rfl⟩ := List.mem_map.1 hx
        rw [List.map_map] at hy
        obtain ⟨r', -, hj⟩ := List.mem_map.1 hy
        cases hj
        exact hfree r hmem
    · rw [altas_append, haltas, List.mem_append]
      by_cases hij : j = i
      · subst hij
        simp [hfree]
      · rw [hother j hij, ← h.creados j r]
        simp [Ne.symm hij]
    · rw [altas_append, haltas, hrows, List.map_append, List.map_append, h.filas, List.map_map]
      rfl
  · have hfijas := registrationEnvStep_fijas he
    rw [registrationEvents, List.append_nil]
    refine ⟨h.llamadas, fun j r => ?_, hfijas.trans h.filas⟩
    rw [hloc]
    exact h.creados j r

/-- Every call has shown what its phase asks for. -/
def AllShown (hist : List (Nat × RegisterEvent)) (s : RegistrationSystem) : Prop :=
  ∀ i, (s.locals i).Shown hist i

/-- One step keeps it so. -/
theorem AllShown.step (hs : RegistrarsOK s) (h : AllShown hist s)
    {a : Act RegistrarAct RegistrationEnv} (hst : registrationStep s a = some t) :
    AllShown (hist ++ registrationEvents s a t) t := by
  have hsub : hist ⊆ hist ++ registrationEvents s a t := List.subset_append_left ..
  intro j
  by_cases hmoved : t.locals j = s.locals j
  · rw [hmoved]
    exact (h j).mono hsub
  obtain ⟨b, rfl⟩ := Program.step_of_moved hst hmoved
  obtain ⟨r, hc, -, hr, -⟩ := Program.step_call hst
  rw [hr]
  refine registrarStep_shown (hs.2 j) (h j) hsub (fun e he => ?_) hc
  exact List.mem_append_right _ (List.mem_map_of_mem (List.mem_append_left _ he))

/-- What holds of the table, the calls and their history after every run. -/
structure Stored (hist : List (Nat × RegisterEvent)) (t : RegistrationSystem) : Prop where
  inserted : Inserted hist t
  unicas : t.shared.pasajeros.UniqueRows
  completas : ∀ i r, (i, r) ∈ altas hist →
    ∃ q ph, t.locals i = .register q ph ∧ Complete hist i q r
  checks : ∀ i q datos p, t.locals i = .register q (.adding datos p) →
    ∀ c ∈ t.shared.pasajeros.insertError p.toPasajeroRow, c ∉ checksPasajeros

/-- **Registration stores only complete, canonical, unique passengers.** After every run from an
empty table the rows are those of the calls answered `created`, one each; there is one for an
account and one for a document; each was inserted with what its own call validated and uploaded;
and no call is about to fail a CHECK constraint. -/
theorem registrations_stored (h0 : s.Initial) {as : List (Act RegistrarAct RegistrationEnv)}
    (h : run registrationStep s as = some t) :
    Stored (outputs registrationEvents registrationStep s as) t := by
  have hinit : RegistrarsOK s ∧ Inserted [] s ∧ AllShown [] s := by
    refine ⟨h0.ok, ⟨List.nodup_nil, fun i r => ?_, ?_⟩, fun i => ?_⟩
    · rw [h0.2]
      simp [altas, Registrar.created?]
    · rw [h0.1]
      rfl
    · rw [h0.2]
      trivial
  obtain ⟨hok, hins, hshown⟩ := outputs_invariant
    (J := fun t hist => RegistrarsOK t ∧ Inserted hist t ∧ AllShown hist t) hinit
    (fun u hist a v hu hst => ⟨registration_relyGuarantee.step hu.1 hst, hu.2.1.step hu.1 hst,
      hu.2.2.step hu.1 hst⟩) h
  refine ⟨hins, hok.1, fun i r hr => ?_, fun i q datos p hi c hc => ?_⟩
  · obtain ⟨p, hp, rfl⟩ := Option.map_eq_some_iff.1 ((hins.creados i r).1 hr)
    obtain ⟨q, hl⟩ := Registrar.created?_eq_some hp
    have hown := hshown i
    rw [hl] at hown
    exact ⟨q, _, hl, hown⟩
  · have hadding := hok.2 i
    rw [hi] at hadding
    obtain ⟨hv, id, foto, ahora, rfl⟩ := hadding
    rcases PasajerosTable.insertError_some hc hv.valido rfl with ⟨rfl, -⟩ | ⟨rfl, -⟩ | ⟨rfl, -⟩ <;>
      decide

/-- Of the two calls of a double submit the second is answered `created`, and its passenger is the
one that is stored. -/
theorem registrations_stored_doubleSubmit :
    ∃ t, run registrationStep sampleRegistration (doubleSubmit ++ registerNext 1 1) = some t ∧
      t.shared.pasajeros.rows.map (·.id) = [2] ∧
      Stored (outputs registrationEvents registrationStep sampleRegistration
        (doubleSubmit ++ registerNext 1 1)) t := by
  have hids : (run registrationStep sampleRegistration (doubleSubmit ++ registerNext 1 1)).map
      (fun t => t.shared.pasajeros.rows.map (·.id)) = some [2] := by
    decide +kernel
  obtain ⟨t, ht, hid⟩ := Option.map_eq_some_iff.1 hids
  exact ⟨t, ht, hid, registrations_stored sampleRegistration_initial ht⟩

end Aeropass
