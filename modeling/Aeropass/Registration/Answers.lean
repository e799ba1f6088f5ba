import Aeropass.Registration.Inv

/-!
# What concurrent registrations are answered

An answer is justified when the rows say what it says (`Justified`). All answers but one are, in
whatever order the calls interleave: `register` reads the account before the document, so a
resubmission whose twin commits between the two reads finds its own document and is told that
another account holds it. `_resolve_race` asks for the account first and has no such gap.
-/

namespace Aeropass

open Runs Threads

/-- The rows justify what a step answers to the request `q`: an account that is said to hold a
document holds it, a passenger returned is the caller's own, and one returned as created was
inserted by the step. -/
def Justified (w w' : RegistrationWorld) (q : RegisterRequest) : RegisterAnswer → Prop
  | .error (.domain e) =>
    (e.clase = .documentoYaRegistrado → ∃ x ∈ w'.pasajeros.rows,
      x.clerkUserId ≠ q.clerkUserId ∧ q.Same x.documento.toDatosDocumento) ∧
    (e.clase = .cuentaYaRegistrada → ∃ x ∈ w'.pasajeros.rows,
      x.clerkUserId = q.clerkUserId ∧ ¬ q.Same x.documento.toDatosDocumento)
  | .error _ => True
  | .ok (p, false) => Own w' q p
  | .ok (p, true) => w.pasajeros.find? p.id = none ∧
    w'.pasajeros.rows = w.pasajeros.rows ++ [p.toPasajeroRow] ∧ p.clerkUserId = q.clerkUserId ∧
      q.Same p.documento.toDatosDocumento

/-- A step that answers a call answers what the rows justify. -/
def AnswersJustified (s : RegistrationSystem) (a : Act RegistrarAct RegistrationEnv)
    (t : RegistrationSystem) : Prop :=
  ∀ i b q ph r, a = .call i b → s.locals i = .register q ph → t.locals i = .register q (.done r) →
    Justified s.shared t.shared q r

/-- The passenger that a call is about to insert. -/
def Registrar.adding? : Registrar → Option Pasajero
  | .register _ (.adding _ p) => some p
  | _ => none

/-- The request of a call that is about to read by its document. -/
def Registrar.readingDocument? : Registrar → Option RegisterRequest
  | .register q (.readingDocument _ _) => some q
  | _ => none

/-- The call does not die in this step. -/
def RegistrarAct.lives : RegistrarAct → Bool
  | .register _ => true
  | .next ch => !ch.dies

/-- A step that inserts a passenger has a fresh id for it: `uuid7` gives each id once. -/
def FreshIds (s : RegistrationSystem) (a : Act RegistrarAct RegistrationEnv)
    (_ : RegistrationSystem) : Prop :=
  ∀ c ∈ a.call?, ∀ p ∈ (s.locals c.1).adding?, s.shared.pasajeros.find? p.id = none

/-- A step that reads by a document does not find the passenger of the caller itself. -/
def ForeignDocument (s : RegistrationSystem) (a : Act RegistrarAct RegistrationEnv)
    (_ : RegistrationSystem) : Prop :=
  ∀ c ∈ a.call?, c.2.lives → ∀ q ∈ (s.locals c.1).readingDocument?,
    ∀ x ∈ s.shared.pasajeros.rows, x.clerkUserId = q.clerkUserId →
      ¬ q.Same x.documento.toDatosDocumento

instance (s : RegistrationSystem) (a : Act RegistrarAct RegistrationEnv)
    (t : RegistrationSystem) : Decidable (FreshIds s a t) :=
  inferInstanceAs (Decidable (∀ c ∈ a.call?, ∀ p ∈ (s.locals c.1).adding?,
    s.shared.pasajeros.find? p.id = none))

instance (s : RegistrationSystem) (a : Act RegistrarAct RegistrationEnv)
    (t : RegistrationSystem) : Decidable (ForeignDocument s a t) :=
  inferInstanceAs (Decidable (∀ c ∈ a.call?, c.2.lives → ∀ q ∈ (s.locals c.1).readingDocument?,
    ∀ x ∈ s.shared.pasajeros.rows, x.clerkUserId = q.clerkUserId →
      ¬ q.Same x.documento.toDatosDocumento))

variable {w w' : RegistrationWorld} {q : RegisterRequest} {ph : RegisterPhase}
  {ch : RegisterChoice} {r : RegisterAnswer} {s t : RegistrationSystem}

/-- The calls that are about to read by document. -/
theorem Registrar.readingDocument?_eq_some {l : Registrar} :
    l.readingDocument? = some q ↔
      ∃ datos imagen, l = .register q (.readingDocument datos imagen) := by
  constructor
  · intro h
    unfold readingDocument? at h
    split at h
    · next datos imagen =>
      cases h
      exact ⟨datos, imagen, rfl⟩
    · cases h
  · rintro ⟨datos, imagen, rfl⟩
    rfl

/-! ## Single steps -/

/-- An error that says nothing about the rows. -/
theorem Justified.of_clase {e : DomainError}
    (h : e.clase ≠ .documentoYaRegistrado ∧ e.clase ≠ .cuentaYaRegistrada) :
    Justified w w' q (.error (.domain e)) :=
  ⟨fun hc => absurd hc h.1, fun hc => absurd hc h.2⟩

/-- Nor does a text that the database does not store. -/
theorem Justified.of_textError {textos : List String} {e : Failure}
    (h : textError? textos = some e) : Justified w w' q (.error e) := by
  obtain ⟨texto, -, -, rfl⟩ := textError?_eq_some h
  trivial

/-- `CuentaYaRegistrada` is justified by the row of the caller. -/
theorem Justified.cuentaYaRegistrada {d : DatosDocumento} (hd : q.Same d) {x : PasajeroRow}
    (hx : w'.pasajeros.getByClerkUser q.clerkUserId = some x) (hne : ¬ x.documento.esMismo d) :
    Justified w w' q (.error (.domain { clase := .cuentaYaRegistrada })) := by
  obtain ⟨hmem, hu⟩ := PasajerosTable.getByClerkUser_some hx
  exact ⟨nofun, fun _ => ⟨x, hmem, hu, fun h => hne (hd.iff_esMismo.1 h)⟩⟩

/-- `DocumentoYaRegistrado` is justified by a row of another account. -/
theorem Justified.documentoYaRegistrado {x : PasajeroRow} (hx : x ∈ w'.pasajeros.rows)
    (hne : x.clerkUserId ≠ q.clerkUserId) (hd : q.Same x.documento.toDatosDocumento) :
    Justified w w' q (.error (.domain { clase := .documentoYaRegistrado })) :=
  ⟨fun _ => ⟨x, hx, hne, hd⟩, nofun⟩

/-- What `validar` raises says nothing about the rows. -/
theorem DatosDocumento.validar_error {nombre tipo numero : Option String} {fecha : Option Date}
    {hoy : Date} {e : DomainError} (h : validar nombre tipo numero fecha hoy = .error e) :
    e.clase = .documentoVencido ∨ e.clase = .datosInvalidos := by
  unfold validar at h
  dsimp only at h
  split at h
  · split at h <;> cases h
    exact .inl rfl
  · cases h
    exact .inr rfl

/-- Neither does what `_validate` raises. -/
theorem RegisterRequest.validate_error {hoy : Date} {e : DomainError}
    (h : q.validate hoy = .error e) :
    e.clase ≠ .documentoYaRegistrado ∧ e.clase ≠ .cuentaYaRegistrada := by
  unfold validate at h
  dsimp only at h
  generalize (if (q.foto.getD []).isEmpty then ["foto_documento"] else []) = faltantes at h
  split at h
  · next e' hval =>
    split at h
    · cases h
      exact ⟨nofun, nofun⟩
    · split at h <;> cases h
      · rcases DatosDocumento.validar_error hval with hc | hc
        · simp [hc]
        · simp [hc]
      · exact ⟨nofun, nofun⟩
  · split at h <;> cases h
    exact ⟨nofun, nofun⟩

/-- Nor what `validate_image` raises. -/
theorem validateImage_error {data : List UInt8} {declared : Option String} {e : DomainError}
    (h : validateImage data declared = .error e) :
    e.clase ≠ .documentoYaRegistrado ∧ e.clase ≠ .cuentaYaRegistrada := by
  unfold validateImage at h
  split at h
  · cases h
    exact ⟨nofun, nofun⟩
  · dsimp only at h
    split at h <;> cases h
    exact ⟨nofun, nofun⟩

/-- One step of `register` answers what the rows justify, unless it reads the document of the
caller's own passenger, or an insert was refused for its id. -/
theorem registerStep_justified (hw : w.pasajeros.UniqueRows) (hl : ph.OK w q)
    (h : registerStep w q ch ph = some (w', .done r))
    (hread : ∀ datos imagen, ph = .readingDocument datos imagen → ch.dies = false →
      ∀ x ∈ w.pasajeros.rows, x.clerkUserId = q.clerkUserId →
        ¬ q.Same x.documento.toDatosDocumento)
    (hpk : ∀ datos, ph ≠ .resolving datos "pasajeros_pkey") : Justified w w' q r := by
  cases ph with
  | start =>
    simp only [registerStep] at h
    split at h
    · next hval => cases h; exact .of_clase (q.validate_error hval)
    · split at h
      · next himg => cases h; exact .of_clase (validateImage_error himg)
      · cases h
  | readingUser datos imagen =>
    simp only [registerStep] at h
    split at h
    · cases h; trivial
    split at h
    · next htext =>
      cases h
      exact Justified.of_textError htext
    · split at h
      · next propio hget =>
        split at h
        · cases h
        · next hm => cases h; exact .cuentaYaRegistrada hl.same hget hm
      · cases h
  | readingDocument datos imagen =>
    simp only [registerStep] at h
    split at h
    · cases h; trivial
    · next hd =>
      split at h
      · next x hget =>
        cases h
        obtain ⟨hx, hm⟩ := PasajerosTable.getByDocument_some hget
        have hs := hl.same.iff_esMismo.2 hm
        refine .documentoYaRegistrado hx (fun hu => ?_) hs
        exact hread datos imagen rfl (Bool.eq_false_iff.2 hd) x hx hu hs
      · cases h
  | storing datos imagen pasajeroId =>
    simp only [registerStep] at h
    split at h
    · cases h; trivial
    · split at h
      · cases h
        exact .of_clase ⟨by decide, by decide⟩
      · cases h
  | adding datos pasajero =>
    obtain ⟨hv, id, foto, ahora, rfl⟩ := hl
    simp only [registerStep] at h
    split at h
    · cases h; trivial
    split at h
    · next htext =>
      cases h
      exact Justified.of_textError htext
    · split at h
      · cases h
      · next hins =>
        obtain ⟨t, ht, hrows, hfree, -⟩ := PasajerosTable.insertError_none hins hw
        rw [ht] at h
        cases h
        exact ⟨hfree, hrows, rfl, hv.same⟩
  | resolving datos violated =>
    obtain ⟨hv, href⟩ := hl
    simp only [registerStep] at h
    split at h
    · cases h; trivial
    split at h
    · next htext =>
      cases h
      exact Justified.of_textError htext
    · split at h
      · next propio hget =>
        split at h
        · cases h
        · next hm => cases h; exact .cuentaYaRegistrada hv.same hget hm
      · next hget =>
        cases h
        have hnone := PasajerosTable.getByClerkUser_none hget
        rcases href with rfl | ⟨-, x, hx, hu⟩ | ⟨-, x, hx, hs⟩
        · exact absurd rfl (hpk datos)
        · exact absurd hu (hnone x hx)
        · exact .documentoYaRegistrado hx (hnone x hx) hs
  | withIdentity propio =>
    simp only [registerStep] at h
    split at h
    · cases h; trivial
    · cases h
      exact ⟨hl.cuenta, hl.documento, hl.stored⟩
  | done => cases h

/-- A call that reads the document of its caller's own passenger is told that another account holds
it, although none does. -/
theorem registerStep_own_document (hw : w.pasajeros.UniqueRows) {datos : DatosDocumento}
    (imagen : ImageInput) (hv : Validated q datos) (hlives : ch.dies = false) {x : PasajeroRow}
    (hx : x ∈ w.pasajeros.rows) (hu : x.clerkUserId = q.clerkUserId)
    (hs : q.Same x.documento.toDatosDocumento) :
    registerStep w q ch (.readingDocument datos imagen) =
      some (w, .done (.error (.domain { clase := .documentoYaRegistrado }))) ∧
    ¬ Justified w w q (.error (.domain { clase := .documentoYaRegistrado })) := by
  have hm := hv.same.iff_esMismo.1 hs
  constructor
  · cases hget : w.pasajeros.getByDocument datos.tipo datos.numero with
    | none => exact absurd hm (PasajerosTable.getByDocument_none hget x hx)
    | some y => simp [registerStep, hlives, hget]
  · rintro ⟨hdoc, -⟩
    obtain ⟨y, hy, hne, hsy⟩ := hdoc rfl
    have heq := hw.eq_of_esMismo hx hy hm (hv.same.iff_esMismo.1 hsy)
    exact hne (heq ▸ hu)

/-- A call that waits for `_resolve_race` was refused by an insert. -/
theorem registerStep_violated {r : RegistrationWorld × RegisterPhase} {datos : DatosDocumento}
    {c : String} (h : registerStep w q ch ph = some r) (hr : r.2 = .resolving datos c) :
    ∃ p, ph = .adding datos p ∧ w.pasajeros.insertError p.toPasajeroRow = some c := by
  cases ph with
  | adding datos' p =>
    simp only [registerStep] at h
    split at h
    · cases h; cases hr
    split at h
    · cases h; cases hr
    · split at h
      · next hins => cases h; cases hr; exact ⟨p, rfl, hins⟩
      · cases h; cases hr
  | start =>
    simp only [registerStep] at h
    split at h
    · cases h; cases hr
    · split at h <;> cases h <;> cases hr
  | readingUser | resolving =>
    simp only [registerStep] at h
    split at h
    · cases h; cases hr
    split at h
    · cases h; cases hr
    · split at h
      · split at h <;> cases h <;> cases hr
      · cases h; cases hr
  | readingDocument | storing =>
    simp only [registerStep] at h
    split at h
    · cases h; cases hr
    · split at h <;> cases h <;> cases hr
  | withIdentity =>
    simp only [registerStep] at h
    split at h <;> cases h <;> cases hr
  | done => cases h

/-! ## Runs -/

/-- No call waits for `_resolve_race` because of its id. -/
def NoIdRefused (s : RegistrationSystem) : Prop :=
  ∀ i q datos, s.locals i ≠ .register q (.resolving datos "pasajeros_pkey")

/-- A step with fresh ids keeps that. -/
theorem NoIdRefused.step (hs : RegistrarsOK s) (hn : NoIdRefused s)
    {a : Act RegistrarAct RegistrationEnv} (hfresh : FreshIds s a t)
    (hst : registrationStep s a = some t) : NoIdRefused t := by
  intro i q datos hi
  by_cases hmoved : t.locals i = s.locals i
  · exact hn i q datos (hmoved ▸ hi)
  obtain ⟨b, rfl⟩ := Program.step_of_moved hst hmoved
  obtain ⟨r, hc, -, hr, -⟩ := Program.step_call hst
  have hc : registrarStep s.shared (s.locals i) b = some r := hc
  rw [hr] at hi
  unfold registrarStep at hc
  split at hc
  · cases hc
    cases hi
  · next q' ph ch hl _ =>
    obtain ⟨r', hr', rfl⟩ := Option.map_eq_some_iff.1 hc
    injection hi with hq hph
    obtain ⟨p, rfl, hins⟩ := registerStep_violated hr' hph
    have hok : RegisterPhase.OK s.shared q' (.adding datos p) := by
      have hok := hs.2 i
      rwa [hl] at hok
    obtain ⟨hv, id, foto, ahora, rfl⟩ := hok
    have hfree := hfresh _ rfl _ (by rw [hl]; rfl)
    rcases PasajerosTable.insertError_some hins hv.valido rfl with ⟨-, hid⟩ | ⟨hc, -⟩ | ⟨hc, -⟩
    · rw [hfree] at hid
      cases hid
    · exact absurd hc (by decide)
    · exact absurd hc (by decide)
  · cases hc

/-- A step answers what the rows justify exactly when it does not read the document of the caller's
own passenger. -/
theorem answersJustified_iff (hs : RegistrarsOK s) (hn : NoIdRefused s)
    {a : Act RegistrarAct RegistrationEnv} (hst : registrationStep s a = some t) :
    AnswersJustified s a t ↔ ForeignDocument s a t := by
  rcases Program.step_cases hst with ⟨i, b, r, rfl, hc, hsh, hi, -⟩ | ⟨e, rfl, -, -⟩
  · have hc : registrarStep s.shared (s.locals i) b = some r := hc
    constructor
    · intro hans c hcall hlives q hq x hx hu hsame
      cases hcall
      obtain ⟨datos, imagen, hl⟩ := Registrar.readingDocument?_eq_some.1 hq
      have hl : s.locals i = .register q (.readingDocument datos imagen) := hl
      have hv : Validated q datos := by
        have hok := hs.2 i
        rwa [hl] at hok
      rw [hl] at hc
      cases b with
      | register q' => cases hc
      | next ch =>
        have hdies : ch.dies = false := by simpa [RegistrarAct.lives] using hlives
        obtain ⟨hstep, hnot⟩ := registerStep_own_document hs.1 imagen hv hdies hx hu hsame
        simp only [registrarStep, hstep, Option.map_some, Option.some.injEq] at hc
        subst hc
        have hjust := hans i _ q _ _ rfl hl hi
        rw [hsh] at hjust
        exact hnot hjust
    · intro hfor j b' q ph ans ha hl ht
      cases ha
      rw [hl] at hc
      cases b with
      | register q' => cases hc
      | next ch =>
        obtain ⟨r', hr', rfl⟩ := Option.map_eq_some_iff.1 hc
        rw [hi] at ht
        injection ht with _ hdone
        have hr' : registerStep s.shared q ch ph = some (t.shared, .done ans) := by
          rw [hr', hsh, ← hdone]
        have hok : ph.OK s.shared q := by
          have hok := hs.2 i
          rwa [hl] at hok
        refine registerStep_justified hs.1 hok hr' ?_ ?_
        · intro datos imagen hph hdies x hx hu
          refine hfor _ rfl (by simp [RegistrarAct.lives, hdies]) q ?_ x hx hu
          exact Registrar.readingDocument?_eq_some.2 ⟨datos, imagen, hph ▸ hl⟩
        · intro datos hph
          exact hn i q datos (hph ▸ hl)
  · constructor
    · intro _ c hcall
      cases hcall
    · intro _ i b q ph r ha
      cases ha

/-- **When concurrent registrations are answered as if they had run one after another.** In every
run from an empty table in which new passengers get fresh ids, all answers are justified exactly
when no step reads by a document that the caller's own account holds by then. -/
theorem answers_justified_iff (h0 : s.Initial) (as : List (Act RegistrarAct RegistrationEnv))
    (hfresh : EachStep registrationStep FreshIds s as) :
    EachStep registrationStep AnswersJustified s as ↔
      EachStep registrationStep ForeignDocument s as := by
  have hstep : ∀ u a v, RegistrarsOK u ∧ NoIdRefused u → FreshIds u a v →
      registrationStep u a = some v → RegistrarsOK v ∧ NoIdRefused v :=
    fun u a v hu hf hst => ⟨registration_relyGuarantee.step hu.1 hst, hu.2.step hu.1 hf hst⟩
  have hinit : RegistrarsOK s ∧ NoIdRefused s := by
    refine ⟨h0.ok, fun i q datos hi => ?_⟩
    rw [h0.2] at hi
    cases hi
  have hiff : EachStep registrationStep
      (fun u a v => AnswersJustified u a v ↔ ForeignDocument u a v) s as :=
    hfresh.of_invariant hstep (fun u a v hu _ hst => answersJustified_iff hu.1 hu.2 hst) hinit
  constructor
  · intro h pre a post u v has hu hst
    exact (hiff pre a post u v has hu hst).1 (h pre a post u v has hu hst)
  · intro h pre a post u v has hu hst
    exact (hiff pre a post u v has hu hst).2 (h pre a post u v has hu hst)

/-! ## A double submit -/

/-- An empty table at the epoch. -/
def sampleRegistration : RegistrationSystem := ⟨⟨Rows.empty, [], 0⟩, fun _ => .idle⟩

theorem sampleRegistration_initial : sampleRegistration.Initial := ⟨rfl, rfl⟩

/-- A request of the account `ana`. -/
def sampleRequest : RegisterRequest where
  clerkUserId := "ana"
  nombreCompleto := some "Ana Gil"
  tipoDocumento := some "CC"
  numeroDocumento := some "1.020.345"
  fechaVencimiento := some 20000
  foto := some [0xff, 0xd8, 0xff]
  fotoContentType := some "image/jpeg"

/-- `n` steps of call `i`, whose passenger gets the id `i`. -/
def registerNext (i n : Nat) : List (Act RegistrarAct RegistrationEnv) :=
  List.replicate n (.call i (.next { pasajeroId := i, media := some ⟨"url", "foto"⟩ }))

/-- Call 1 has read the account when call 2, the same request again, registers. -/
def doubleSubmit : List (Act RegistrarAct RegistrationEnv) :=
  .call 1 (.register sampleRequest) :: registerNext 1 2 ++
    .call 2 (.register sampleRequest) :: registerNext 2 5

/-- Then call 1 reads the document and is told that another account holds it, but there is no other
account. -/
theorem doubleSubmit_unjustified :
    ¬ EachStep registrationStep AnswersJustified sampleRegistration
      (doubleSubmit ++ registerNext 1 1) := by
  intro h
  obtain ⟨v, hv⟩ := Option.isSome_iff_exists.1 (by decide +kernel :
    (run registrationStep sampleRegistration (doubleSubmit ++ registerNext 1 1)).isSome = true)
  obtain ⟨u, hu, hst⟩ := run_snoc.1 hv
  have hbefore : (run registrationStep sampleRegistration doubleSubmit).map (·.locals 1) =
      some (.register sampleRequest (.readingDocument ⟨"Ana Gil", .cc, "1020345", 20000⟩
        ⟨[0xff, 0xd8, 0xff], "image/jpeg"⟩)) := by
    decide +kernel
  have hafter : (run registrationStep sampleRegistration (doubleSubmit ++ registerNext 1 1)).map
      (fun v => (v.locals 1, v.shared.pasajeros.rows.map (·.clerkUserId))) =
        some (.register sampleRequest (.done (.error (.domain
          { clase := .documentoYaRegistrado }))), ["ana"]) := by
    decide +kernel
  rw [hu, Option.map_some, Option.some.injEq] at hbefore
  rw [hv, Option.map_some, Option.some.injEq, Prod.mk.injEq] at hafter
  obtain ⟨x, hx, hne, -⟩ :=
    (h doubleSubmit _ [] u v rfl hu hst 1 _ _ _ _ rfl hbefore hafter.1).1 rfl
  have hmem : x.clerkUserId ∈ v.shared.pasajeros.rows.map (·.clerkUserId) := List.mem_map_of_mem hx
  rw [hafter.2, List.mem_singleton] at hmem
  exact hne hmem

/-- Not every run answers what the rows justify, also when ids are fresh. -/
theorem answers_justified_fails :
    ¬ ∀ (s : RegistrationSystem) (as : List (Act RegistrarAct RegistrationEnv)), s.Initial →
      EachStep registrationStep FreshIds s as → EachStep registrationStep AnswersJustified s as :=
  fun h => doubleSubmit_unjustified (h _ _ sampleRegistration_initial (by decide +kernel))

/-- In that run call 1 reads the document of its own account. -/
theorem answers_justified_iff_sample :
    ¬ EachStep registrationStep ForeignDocument sampleRegistration
      (doubleSubmit ++ registerNext 1 1) :=
  fun h => doubleSubmit_unjustified
    ((answers_justified_iff sampleRegistration_initial _ (by decide +kernel)).2 h)

end Aeropass
