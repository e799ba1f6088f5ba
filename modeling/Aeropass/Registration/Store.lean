import Aeropass.Domain.Passenger
import Aeropass.Lib.Rows

/-!
# The passengers table of the registration

The lookups of `SqlPassengerRepository` that registration makes, and the constraints of
`pasajeros`. The two unique ones are invariants of the table (`UniqueRows`); the checks never refuse
a document that `validar` accepted.
-/

namespace Aeropass

open PyStr

/-! ## Validated documents -/

/-- What the checks of the table ask of a document. -/
structure DatosDocumento.Valido (d : DatosDocumento) : Prop where
  nombre : 2 ≤ d.nombreCompleto.toList.length ∧ d.nombreCompleto.toList.length ≤ 200
  numero : matchNumero d.numero.toList = true

/-- A normalised number has no newline, so `$` matches at its end only. -/
theorem getLast?_normalizarNumero (numero : String) :
    (normalizarNumero numero).toList.getLast? ≠ some '\n' := by
  intro h
  rw [normalizarNumero, String.toList_ofList] at h
  obtain ⟨c, hc, hnl⟩ := List.mem_flatMap.1 (List.mem_of_getLast? h)
  have hkeep := (List.mem_filter.1 hc).2
  rw [newline_mem_upperChar hnl] at hkeep
  exact absurd hkeep (by decide)

/-- A number that the table accepts is its own canonical form. -/
theorem normalizarNumero_of_match {numero : String} (h : matchNumero numero.toList = true) :
    normalizarNumero numero = numero := by
  simp only [matchNumero, Bool.and_eq_true, List.all_eq_true] at h
  have hkept : numero.toList.filter (fun c => !(isSpace c || c == '.' || c == '-')) =
      numero.toList := by
    refine List.filter_eq_self.2 fun c hc => ?_
    have hAZ := h.2 c hc
    have hdot : c ≠ '.' := by
      rintro rfl
      exact absurd hAZ (by decide)
    have hhyphen : c ≠ '-' := by
      rintro rfl
      exact absurd hAZ (by decide)
    simp [isSpace_of_isAZ09 hAZ, hdot, hhyphen]
  rw [normalizarNumero, hkept, upper_of_isAZ09 h.2, String.ofList_toList]

/-- `validar` returns the canonical document of its arguments, and one that the table accepts. -/
theorem DatosDocumento.validar_ok {nombre tipo numero : Option String} {fecha : Option Date}
    {hoy : Date} {d : DatosDocumento} (h : validar nombre tipo numero fecha hoy = .ok d) :
    TipoDocumento.of? tipo = some d.tipo ∧ d.numero = normalizarNumero (numero.getD "") ∧
      d.Valido := by
  unfold validar at h
  dsimp only at h
  split at h
  · next htipo hinv =>
    split at h
    · cases h
    · cases h
      simp only [List.append_eq_nil_iff, ite_eq_left_iff, reduceCtorEq, imp_false,
        Classical.not_not] at hinv
      obtain ⟨⟨⟨hnombre, -⟩, hnumero⟩, -⟩ := hinv
      refine ⟨htipo, rfl, ?_, ?_⟩
      · rw [String.toList_ofList]
        exact hnombre
      · simp only [matchEnd, Bool.or_eq_true, Bool.and_eq_true, beq_iff_eq] at hnumero
        rcases hnumero with hm | ⟨hnl, -⟩
        · exact hm
        · exact absurd hnl (getLast?_normalizarNumero _)
  · cases h

/-! ## The table -/

/-- `pasajeros`. -/
abbrev PasajerosTable := Rows PasajeroRow.id

namespace PasajerosTable

variable {t t' : PasajerosTable} {r : PasajeroRow} {d : DatosDocumento}

/-- `get_by_clerk_user`. -/
def getByClerkUser (t : PasajerosTable) (clerkUserId : String) : Option PasajeroRow :=
  t.rows.find? fun r => r.clerkUserId = clerkUserId

/-- `get_by_document`. -/
def getByDocument (t : PasajerosTable) (tipo : TipoDocumento) (numero : String) :
    Option PasajeroRow :=
  t.rows.find? fun r => r.documento.tipo = tipo && r.documento.numero = numero

/-- What refuses a new passenger: a check of the table, or one of its unique indexes in the order of
their creation. -/
def insertError (t : PasajerosTable) (p : PasajeroRow) : Option String :=
  if !(2 ≤ p.documento.nombreCompleto.toList.length &&
      p.documento.nombreCompleto.toList.length ≤ 200) then some "ck_pasajeros_nombre_longitud"
  else if !matchNumero p.documento.numero.toList then some "ck_pasajeros_numero_formato"
  else if 3 < p.intentosFallidos then some "ck_pasajeros_intentos_fallidos_rango"
  else if (t.find? p.id).isSome then some "pasajeros_pkey"
  else if (t.getByClerkUser p.clerkUserId).isSome then some "uq_pasajeros_clerk_user_id"
  else if (t.getByDocument p.documento.tipo p.documento.numero).isSome then
    some "uq_pasajeros_documento"
  else none

/-- The unique constraints hold of the table. -/
structure UniqueRows (t : PasajerosTable) : Prop where
  cuentas : (t.rows.map (·.clerkUserId)).Nodup
  documentos : (t.rows.map fun r => (r.documento.tipo, r.documento.numero)).Nodup

theorem getByClerkUser_some {clerkUserId : String} (h : t.getByClerkUser clerkUserId = some r) :
    r ∈ t.rows ∧ r.clerkUserId = clerkUserId :=
  ⟨List.mem_of_find?_eq_some h, by simpa using List.find?_some h⟩

theorem getByClerkUser_none {clerkUserId : String} (h : t.getByClerkUser clerkUserId = none) :
    ∀ r ∈ t.rows, r.clerkUserId ≠ clerkUserId := by
  simpa [getByClerkUser] using h

theorem getByDocument_some (h : t.getByDocument d.tipo d.numero = some r) :
    r ∈ t.rows ∧ r.documento.esMismo d := by
  have hd := List.find?_some h
  exact ⟨List.mem_of_find?_eq_some h, hd⟩

theorem getByDocument_none (h : t.getByDocument d.tipo d.numero = none) :
    ∀ r ∈ t.rows, ¬ r.documento.esMismo d := by
  intro r hr hd
  exact List.find?_eq_none.1 h r hr hd

/-- Two passengers with one document are one passenger. -/
theorem UniqueRows.eq_of_esMismo (h : UniqueRows t) {r r' : PasajeroRow} (hr : r ∈ t.rows)
    (hr' : r' ∈ t.rows) (hd : r.documento.esMismo d) (hd' : r'.documento.esMismo d) : r = r' := by
  refine List.inj_on_of_nodup_map h.documentos hr hr' ?_
  simp only [DocumentoRegistrado.esMismo, Bool.and_eq_true, decide_eq_true_eq] at hd hd'
  simp [hd, hd']

/-- A new passenger with a validated document can only be refused by a unique index, and then a
stored passenger has the same key. -/
theorem insertError_some {p : PasajeroRow} {c : String} (h : t.insertError p = some c)
    (hv : p.documento.toDatosDocumento.Valido) (hf : p.intentosFallidos = 0) :
    (c = "pasajeros_pkey" ∧ (t.find? p.id).isSome) ∨
    (c = "uq_pasajeros_clerk_user_id" ∧ ∃ r ∈ t.rows, r.clerkUserId = p.clerkUserId) ∨
    (c = "uq_pasajeros_documento" ∧
      ∃ r ∈ t.rows, r.documento.esMismo p.documento.toDatosDocumento) := by
  simp only [insertError, hv.nombre.1, hv.nombre.2, hv.numero, hf, decide_true, Bool.and_self,
    Bool.not_true, Bool.false_eq_true, if_false, Nat.not_lt_zero] at h
  split at h
  · next hid =>
    exact .inl ⟨(Option.some.inj h).symm, hid⟩
  · split at h
    · next hc =>
      obtain ⟨r, hr⟩ := Option.isSome_iff_exists.1 hc
      exact .inr (.inl ⟨(Option.some.inj h).symm, r, getByClerkUser_some hr⟩)
    · split at h
      · next hd =>
        obtain ⟨r, hr⟩ := Option.isSome_iff_exists.1 hd
        exact .inr (.inr ⟨(Option.some.inj h).symm, r, getByDocument_some hr⟩)
      · cases h

/-- A passenger that nothing refuses is appended, and the constraints still hold. -/
theorem insertError_none {p : PasajeroRow} (h : t.insertError p = none) (hu : UniqueRows t) :
    ∃ t', t.insert? p = some t' ∧ t'.rows = t.rows ++ [p] ∧ t.find? p.id = none ∧
      UniqueRows t' := by
  simp only [insertError] at h
  split at h
  · cases h
  split at h
  · cases h
  split at h
  · cases h
  split at h
  · cases h
  next hid =>
  split at h
  · cases h
  next hc =>
  split at h
  · cases h
  next hd =>
  have hid := Option.not_isSome_iff_eq_none.1 hid
  have hc := getByClerkUser_none (Option.not_isSome_iff_eq_none.1 hc)
  have hd := getByDocument_none (d := p.documento.toDatosDocumento)
    (Option.not_isSome_iff_eq_none.1 hd)
  obtain ⟨t', ht', hrows⟩ := Rows.insert?_of_free hid
  refine ⟨t', ht', hrows, hid, ?_, ?_⟩
  · rw [hrows, List.map_append, List.nodup_append]
    refine ⟨hu.cuentas, by simp, ?_⟩
    rintro a ha b hb rfl
    obtain ⟨r, hr, rfl⟩ := List.mem_map.1 ha
    exact hc r hr (by simpa using hb)
  · rw [hrows, List.map_append, List.nodup_append]
    refine ⟨hu.documentos, by simp, ?_⟩
    rintro a ha b hb rfl
    obtain ⟨r, hr, rfl⟩ := List.mem_map.1 ha
    refine hd r hr ?_
    simpa [DocumentoRegistrado.esMismo] using hb

end PasajerosTable

end Aeropass
