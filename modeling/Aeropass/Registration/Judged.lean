import Aeropass.Registration.Inv
import Mathlib.Data.List.Dedup
import Mathlib.Data.String.Basic

/-!
# What registration accepts

`_validate` calls `validar`, which stops at the first kind of fault it names, and adds the photo to
what that raised. `RegisterRequest.Invalido` says of each field alone when it is missing or invalid;
`validate_eq` brings the two validators into one case analysis over the five fields. What they
accept is in canonical form: the words of the name joined by one space, and a number without
separators in upper case.
-/

namespace Aeropass

open PyStr

/-- The value of a member of `TipoDocumento`. -/
def TipoDocumento.value : TipoDocumento → String
  | .cc => "CC"
  | .ce => "CE"
  | .pasaporte => "PASAPORTE"

/-- The members are found by their values. -/
theorem TipoDocumento.of?_eq_some {tipo : Option String} {t : TipoDocumento} :
    TipoDocumento.of? tipo = some t ↔ tipo = some t.value := by
  constructor
  · intro h
    unfold TipoDocumento.of? at h
    split at h <;> cases h <;> rfl
  · rintro rfl
    cases t <;> rfl

/-- The field is missing in the request, or its value is invalid. -/
inductive RegisterRequest.Invalido (q : RegisterRequest) : String → Prop where
  | nombre (h : ¬ (2 ≤ (joinSpace (split (q.nombreCompleto.getD "").toList)).length ∧
      (joinSpace (split (q.nombreCompleto.getD "").toList)).length ≤ 200)) :
      q.Invalido "nombre_completo"
  | tipo (h : ∀ t : TipoDocumento, q.tipoDocumento ≠ some t.value) : q.Invalido "tipo_documento"
  | numero (h : matchNumero (normalizarNumero (q.numeroDocumento.getD "")).toList = false) :
      q.Invalido "numero_documento"
  | fecha (h : q.fechaVencimiento = none) : q.Invalido "fecha_vencimiento"
  | foto (h : q.foto = none ∨ q.foto = some []) : q.Invalido "foto_documento"

/-- The fields with a fault, in alphabetical order. -/
def camposDe (fecha foto nombre numero tipo : Bool) : List String :=
  (if fecha then ["fecha_vencimiento"] else []) ++ (if foto then ["foto_documento"] else []) ++
  (if nombre then ["nombre_completo"] else []) ++ (if numero then ["numero_documento"] else []) ++
  (if tipo then ["tipo_documento"] else [])

/-- The fields of a request with a fault. -/
def RegisterRequest.camposInvalidos (q : RegisterRequest) : List String :=
  let nombre := joinSpace (split (q.nombreCompleto.getD "").toList)
  let numero := normalizarNumero (q.numeroDocumento.getD "")
  camposDe q.fechaVencimiento.isNone (q.foto.getD []).isEmpty
    (!decide (2 ≤ nombre.length ∧ nombre.length ≤ 200)) (!matchEnd matchNumero numero.toList)
    (TipoDocumento.of? q.tipoDocumento).isNone

/-- The request with the data of a document. -/
def RegisterRequest.conDatos (q : RegisterRequest) (d : DatosDocumento) : RegisterRequest :=
  { q with
    nombreCompleto := some d.nombreCompleto
    tipoDocumento := some d.tipo.value
    numeroDocumento := some d.numero
    fechaVencimiento := some d.fechaVencimiento }

variable {q q' : RegisterRequest} {hoy hoy' : Date} {d d' : DatosDocumento}

/-! ## The fields -/

/-- The list is in order and names no field twice. -/
theorem camposDe_sorted (fecha foto nombre numero tipo : Bool) :
    (camposDe fecha foto nombre numero tipo).Pairwise (· < ·) := by
  have key : ["fecha_vencimiento", "foto_documento", "nombre_completo", "numero_documento",
      "tipo_documento"].Pairwise (· < ·) := by decide
  refine key.sublist ?_
  cases fecha <;> cases foto <;> cases nombre <;> cases numero <;> cases tipo <;> decide

/-- `sorted(set(xs))` is the list in strict order with the same members. -/
theorem sorted_set_eq {xs ys : List String} (hys : ys.Pairwise (· < ·))
    (hmem : ∀ x, x ∈ xs ↔ x ∈ ys) : xs.dedup.insertionSort (· ≤ ·) = ys := by
  have hperm : (xs.dedup.insertionSort (· ≤ ·)).Perm ys := by
    refine (List.perm_insertionSort _ _).trans ?_
    refine (List.perm_ext_iff_of_nodup (List.nodup_dedup xs) ?_).2 fun x => ?_
    · exact hys.imp fun h => ne_of_lt h
    · rw [List.mem_dedup, hmem]
  exact hperm.eq_of_pairwise' List.sortedLE_insertionSort.pairwise (hys.imp fun h => le_of_lt h)

/-- What `validar` names, sorted, with the photo added, is what has a fault. -/
theorem sorted_union_eq (fecha foto nombre numero tipo : Bool) :
    ((((if nombre then ["nombre_completo"] else []) ++ (if tipo then ["tipo_documento"] else []) ++
      (if numero then ["numero_documento"] else []) ++
      (if fecha then ["fecha_vencimiento"] else [])).insertionSort (· ≤ ·) ++
      (if foto then ["foto_documento"] else [])).dedup).insertionSort (· ≤ ·) =
    camposDe fecha foto nombre numero tipo := by
  refine sorted_set_eq (camposDe_sorted fecha foto nombre numero tipo) fun x => ?_
  simp only [camposDe, List.mem_append, List.mem_insertionSort]
  tauto

/-- The list holds the fields that are missing or invalid. -/
theorem RegisterRequest.mem_camposInvalidos {campo : String} :
    campo ∈ q.camposInvalidos ↔ q.Invalido campo := by
  have hnumero : (!matchEnd matchNumero (normalizarNumero (q.numeroDocumento.getD "")).toList) =
      !matchNumero (normalizarNumero (q.numeroDocumento.getD "")).toList := by
    rw [matchEnd, beq_eq_false_iff_ne.2 (getLast?_normalizarNumero _), Bool.false_and,
      Bool.or_false]
  have htipo : (TipoDocumento.of? q.tipoDocumento).isNone = true ↔
      ∀ t : TipoDocumento, q.tipoDocumento ≠ some t.value := by
    rw [Option.isNone_iff_eq_none, Option.eq_none_iff_forall_ne_some]
    exact forall_congr' fun t => not_congr TipoDocumento.of?_eq_some
  have hfoto : (q.foto.getD []).isEmpty = true ↔ q.foto = none ∨ q.foto = some [] := by
    cases q.foto <;> simp
  simp only [camposInvalidos, camposDe, hnumero, List.mem_append, List.mem_ite_nil_right,
    List.mem_singleton, Bool.not_eq_true', decide_eq_false_iff_not, htipo, hfoto,
    Option.isNone_iff_eq_none]
  constructor
  · rintro ((((⟨h, rfl⟩ | ⟨h, rfl⟩) | ⟨h, rfl⟩) | ⟨h, rfl⟩) | ⟨h, rfl⟩)
    · exact .fecha h
    · exact .foto h
    · exact .nombre h
    · exact .numero h
    · exact .tipo h
  · intro h
    cases h with
    | nombre h => exact .inl (.inl (.inr ⟨h, rfl⟩))
    | tipo h => exact .inr ⟨h, rfl⟩
    | numero h => exact .inl (.inr ⟨h, rfl⟩)
    | fecha h => exact .inl (.inl (.inl (.inl ⟨h, rfl⟩)))
    | foto h => exact .inl (.inl (.inl (.inr ⟨h, rfl⟩)))

/-! ## The two validators as one -/

/-- `_validate` reports the faults before it looks at the expiry date, and accepts the document in
canonical form. -/
theorem RegisterRequest.validate_eq (q : RegisterRequest) (hoy : Date) :
    q.validate hoy =
      match TipoDocumento.of? q.tipoDocumento, q.fechaVencimiento, q.camposInvalidos with
      | some tipo, some fecha, [] =>
        if fecha < hoy then .error { clase := .documentoVencido }
        else .ok ⟨String.ofList (joinSpace (split (q.nombreCompleto.getD "").toList)), tipo,
          normalizarNumero (q.numeroDocumento.getD ""), fecha⟩
      | _, _, _ =>
        .error { clase := .datosInvalidos, campos := some q.camposInvalidos } := by
  unfold validate DatosDocumento.validar
  dsimp only
  have hsorted : _ = q.camposInvalidos := sorted_union_eq _ _ _ _ _
  simp only [Bool.not_eq_true', decide_eq_false_iff_not] at hsorted
  simp only [← Bool.not_eq_true, ite_not] at hsorted
  generalize hinv : _ ++ (if q.fechaVencimiento.isNone then ["fecha_vencimiento"] else []) =
    invalidos at hsorted ⊢
  cases invalidos with
  | nil =>
    -- the data are valid, so the photo is all that can be missing
    simp only [List.append_eq_nil_iff, ite_eq_right_iff, List.cons_ne_nil, imp_false,
      Bool.not_eq_true, Option.isNone_eq_false_iff, Option.isSome_iff_exists] at hinv
    obtain ⟨⟨⟨-, tipo, htipo⟩, -⟩, fecha, hfecha⟩ := hinv
    rw [htipo, hfecha, ← hsorted]
    cases (q.foto.getD []).isEmpty with
    | false => by_cases hlt : fecha < hoy <;> simp [hlt]
    | true => by_cases hlt : fecha < hoy <;> simp [hlt]
  | cons campo campos =>
    have hne : q.camposInvalidos ≠ [] := by
      have hmem : campo ∈ q.camposInvalidos := by
        rw [← hsorted]
        simp [List.mem_insertionSort]
      exact List.ne_nil_of_mem hmem
    obtain ⟨c, cs, hcs⟩ := List.exists_cons_of_ne_nil hne
    rw [hcs] at hsorted ⊢
    cases TipoDocumento.of? q.tipoDocumento <;> cases q.fechaVencimiento <;>
      simp only [if_true, Option.getD_some, hsorted]

/-- Without faults, the answer hangs on the expiry date alone. -/
theorem RegisterRequest.validate_of_sin_faltas (h : ∀ campo, ¬ q.Invalido campo) (hoy : Date) :
    ∃ tipo fecha, q.tipoDocumento = some tipo.value ∧ q.fechaVencimiento = some fecha ∧
      q.validate hoy = if fecha < hoy then .error { clase := .documentoVencido }
        else .ok ⟨String.ofList (joinSpace (split (q.nombreCompleto.getD "").toList)), tipo,
          normalizarNumero (q.numeroDocumento.getD ""), fecha⟩ := by
  have hnil : q.camposInvalidos = [] :=
    List.eq_nil_iff_forall_not_mem.2 fun campo hc => h campo (mem_camposInvalidos.1 hc)
  obtain ⟨fecha, hfecha⟩ := Option.ne_none_iff_exists'.1 fun hf => h _ (.fecha hf)
  have htipo : ∃ tipo : TipoDocumento, q.tipoDocumento = some tipo.value := by
    by_contra hne
    exact h _ (.tipo fun tipo ht => hne ⟨tipo, ht⟩)
  obtain ⟨tipo, htipo⟩ := htipo
  refine ⟨tipo, fecha, htipo, hfecha, ?_⟩
  rw [validate_eq, TipoDocumento.of?_eq_some.2 htipo, hfecha, hnil]

/-- With a fault, the answer is the list of the faults. -/
theorem RegisterRequest.validate_of_falta {campo : String} (h : q.Invalido campo) :
    q.validate hoy = .error { clase := .datosInvalidos, campos := some q.camposInvalidos } := by
  obtain ⟨c, cs, hcs⟩ := List.exists_cons_of_ne_nil
    (List.ne_nil_of_mem (mem_camposInvalidos.2 h))
  rw [validate_eq, hcs]
  cases TipoDocumento.of? q.tipoDocumento <;> cases q.fechaVencimiento <;> rfl

/-- What is accepted, and from what. -/
theorem RegisterRequest.validate_eq_ok :
    q.validate hoy = .ok d ↔ (∀ campo, ¬ q.Invalido campo) ∧
      q.tipoDocumento = some d.tipo.value ∧ q.fechaVencimiento = some d.fechaVencimiento ∧
      hoy ≤ d.fechaVencimiento ∧
      d.nombreCompleto.toList = joinSpace (split (q.nombreCompleto.getD "").toList) ∧
      d.numero = normalizarNumero (q.numeroDocumento.getD "") := by
  constructor
  · intro h
    have hfaltas : ∀ campo, ¬ q.Invalido campo := by
      intro campo hc
      rw [validate_of_falta hc] at h
      cases h
    obtain ⟨tipo, fecha, htipo, hfecha, heq⟩ := validate_of_sin_faltas hfaltas hoy
    rw [heq] at h
    split at h
    · cases h
    · next hlt =>
      cases h
      exact ⟨hfaltas, htipo, hfecha, Int.not_lt.1 hlt, String.toList_ofList, rfl⟩
  · rintro ⟨hfaltas, htipo, hfecha, hle, hnombre, hnumero⟩
    obtain ⟨tipo, fecha, htipo', hfecha', heq⟩ := validate_of_sin_faltas hfaltas hoy
    rw [hfecha'] at hfecha
    rw [htipo', ← TipoDocumento.of?_eq_some, TipoDocumento.of?_eq_some.2 rfl] at htipo
    cases hfecha
    cases htipo
    rw [heq, if_neg (Int.not_lt.2 hle), ← hnombre, String.ofList_toList, ← hnumero]

/-! ## Canonical form -/

/-- Without a fault in the number, it matches the pattern. -/
theorem RegisterRequest.matchNumero_of_sin_faltas (h : ∀ campo, ¬ q.Invalido campo) :
    matchNumero (normalizarNumero (q.numeroDocumento.getD "")).toList = true := by
  rw [← Bool.not_eq_false]
  exact fun hm => h _ (.numero hm)

/-- The words of an accepted name are joined by one space each. -/
theorem RegisterRequest.nombre_canonico (h : q.validate hoy = .ok d) :
    joinSpace (split d.nombreCompleto.toList) = d.nombreCompleto.toList := by
  obtain ⟨-, -, -, -, hnombre, -⟩ := validate_eq_ok.1 h
  rw [hnombre, split_joinSpace_split]

/-- An accepted number is its own canonical form. -/
theorem RegisterRequest.numero_canonico (h : q.validate hoy = .ok d) :
    normalizarNumero d.numero = d.numero := by
  obtain ⟨hfaltas, -, -, -, -, hnumero⟩ := validate_eq_ok.1 h
  rw [hnumero]
  exact normalizarNumero_of_match (matchNumero_of_sin_faltas hfaltas)

/-- The data of an accepted document have no fault. -/
theorem RegisterRequest.conDatos_sin_faltas (h : q.validate hoy = .ok d) (campo : String) :
    ¬ (q.conDatos d).Invalido campo := by
  obtain ⟨hfaltas, -, -, -, hnombre, hnumero⟩ := validate_eq_ok.1 h
  intro hc
  cases hc with
  | nombre hn =>
    refine hfaltas _ (.nombre ?_)
    rw [← hnombre, ← nombre_canonico h]
    exact hn
  | tipo ht => exact ht d.tipo rfl
  | numero hm =>
    refine hfaltas _ (.numero ?_)
    rw [← hnumero, ← numero_canonico h]
    exact hm
  | fecha hf => cases hf
  | foto hf => exact hfaltas _ (.foto hf)

/-- What is accepted is accepted again as it is. -/
theorem RegisterRequest.validate_conDatos (h : q.validate hoy = .ok d) :
    (q.conDatos d).validate hoy = .ok d := by
  obtain ⟨-, -, -, hle, -, -⟩ := validate_eq_ok.1 h
  exact validate_eq_ok.2 ⟨conDatos_sin_faltas h, rfl, rfl, hle, (nombre_canonico h).symm,
    (numero_canonico h).symm⟩

/-- `es_mismo` holds of two accepted documents when the requests have the same type, and numbers
with the same canonical form. -/
theorem RegisterRequest.esMismo_iff (h : q.validate hoy = .ok d) (h' : q'.validate hoy' = .ok d')
    (foto : StoredMedia) :
    DocumentoRegistrado.esMismo { d with foto } d' ↔ q.tipoDocumento = q'.tipoDocumento ∧
      normalizarNumero (q.numeroDocumento.getD "") =
        normalizarNumero (q'.numeroDocumento.getD "") := by
  obtain ⟨-, htipo, -, -, -, hnumero⟩ := validate_eq_ok.1 h
  obtain ⟨-, htipo', -, -, -, hnumero'⟩ := validate_eq_ok.1 h'
  have hvalue : d.tipo = d'.tipo ↔ d.tipo.value = d'.tipo.value := by
    cases d.tipo <;> cases d'.tipo <;> decide
  rw [DocumentoRegistrado.esMismo, Bool.and_eq_true, decide_eq_true_iff, decide_eq_true_iff,
    htipo, htipo', Option.some_inj, ← hnumero, ← hnumero', hvalue]

/-- **Registration input.** The missing and invalid fields, all of them, come before an expired
document, and what is accepted is canonical. -/
theorem registration_judged (q : RegisterRequest) (hoy : Date) :
    ((∃ campo, q.Invalido campo) → ∃ campos,
      q.validate hoy = .error { clase := .datosInvalidos, campos := some campos } ∧
      campos.Pairwise (· < ·) ∧ ∀ campo, campo ∈ campos ↔ q.Invalido campo) ∧
    ((∀ campo, ¬ q.Invalido campo) →
      (q.validate hoy = .error { clase := .documentoVencido } ↔
        ∃ fecha, q.fechaVencimiento = some fecha ∧ fecha < hoy) ∧
      ((∃ d, q.validate hoy = .ok d) ↔
        ∃ fecha, q.fechaVencimiento = some fecha ∧ ¬ fecha < hoy)) ∧
    (∀ d, q.validate hoy = .ok d → (q.conDatos d).validate hoy = .ok d) ∧
    ∀ (q' : RegisterRequest) (hoy' : Date) (d d' : DatosDocumento) (foto : StoredMedia),
      q.validate hoy = .ok d → q'.validate hoy' = .ok d' →
      (DocumentoRegistrado.esMismo { d with foto } d' ↔ q.tipoDocumento = q'.tipoDocumento ∧
        normalizarNumero (q.numeroDocumento.getD "") =
          normalizarNumero (q'.numeroDocumento.getD "")) := by
  refine ⟨?faltas, ?fecha, fun d h => RegisterRequest.validate_conDatos h,
    fun q' hoy' d d' foto h h' => RegisterRequest.esMismo_iff h h' foto⟩
  case faltas =>
    rintro ⟨campo, h⟩
    exact ⟨q.camposInvalidos, RegisterRequest.validate_of_falta h, camposDe_sorted _ _ _ _ _,
      fun campo => RegisterRequest.mem_camposInvalidos⟩
  case fecha =>
    intro h
    obtain ⟨tipo, fecha, -, hfecha, heq⟩ := RegisterRequest.validate_of_sin_faltas h hoy
    rw [heq, hfecha]
    by_cases hlt : fecha < hoy
    · simp [hlt]
    · simp [hlt, Int.not_lt.1 hlt]

/-- A document on its last day, with the name and number as a person writes them. -/
def solicitudAna : RegisterRequest :=
  { clerkUserId := "user_1"
    nombreCompleto := some "  Ana  María\nPérez "
    tipoDocumento := some "CC"
    numeroDocumento := some "1.020-345 678"
    fechaVencimiento := some 20000
    foto := some [0xff, 0xd8, 0xff]
    fotoContentType := some "image/jpeg" }

/-- It is accepted in canonical form, and so again; the day after, without the photo, the photo is
what is named. -/
theorem registration_judged_ana :
    (solicitudAna.conDatos ⟨"Ana María Pérez", .cc, "1020345678", 20000⟩).validate 20000 =
      .ok ⟨"Ana María Pérez", .cc, "1020345678", 20000⟩ ∧
    ∃ campos, ({ solicitudAna with foto := none } : RegisterRequest).validate 20001 =
      .error { clase := .datosInvalidos, campos := some campos } ∧ "foto_documento" ∈ campos := by
  refine ⟨(registration_judged solicitudAna 20000).2.2.1 _ (by decide +kernel), ?_⟩
  obtain ⟨campos, h, -, hmem⟩ :=
    (registration_judged { solicitudAna with foto := none } 20001).1 ⟨_, .foto (.inl rfl)⟩
  exact ⟨campos, h, (hmem _).2 (.foto (.inl rfl))⟩

end Aeropass
