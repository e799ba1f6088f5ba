import Aeropass.Domain.Verification
import Aeropass.Domain.Identity
import Aeropass.Lib.Rows

/-!
# The tables of the verification services

`pasajeros`, `intentos_verificacion` and `identidades_digitales` with the repository calls of the
verification services and the constraints that can refuse them.
-/

namespace Aeropass

/-- `_dec`: a score rounded to thousandths, halves to the even one, as their number. -/
def dec (value : ℚ) : Int :=
  let floor := (value * 1000).floor
  let rest := value * 1000 - floor
  if rest < 1 / 2 then floor
  else if 1 / 2 < rest then floor + 1
  else if floor % 2 = 0 then floor else floor + 1

/-- `IntentoVerificacionRow`, with scores and thresholds in thousandths. -/
structure IntentoVerificacionRow where
  id : UUID
  pasajeroId : UUID
  selfie : StoredMedia
  resultado : ResultadoIntento
  motivoFallo : Option MotivoFallo
  scoreLiveness : Option Int
  scoreComparacion : Option Int
  umbralLiveness : Int
  umbralComparacion : Int
  proveedor : String
  createdAt : Instant
  deriving DecidableEq, Repr

/-- The row that `add` inserts. -/
def IntentoVerificacion.row (i : IntentoVerificacion) : IntentoVerificacionRow where
  id := i.id
  pasajeroId := i.pasajeroId
  selfie := i.selfie
  resultado := i.resultado
  motivoFallo := i.motivoFallo
  scoreLiveness := i.scoreLiveness.map dec
  scoreComparacion := i.scoreComparacion.map dec
  umbralLiveness := dec i.umbrales.liveness
  umbralComparacion := dec i.umbrales.comparacion
  proveedor := i.proveedor
  createdAt := i.createdAt

/-- The columns that are `NUMERIC(4, 3)`. -/
def IntentoVerificacionRow.numerics (r : IntentoVerificacionRow) : List Int :=
  r.scoreLiveness.toList ++ r.scoreComparacion.toList ++ [r.umbralLiveness, r.umbralComparacion]

/-- The columns of type `Text`. -/
def IntentoVerificacionRow.textos (r : IntentoVerificacionRow) : List String :=
  [r.selfie.pathname, r.selfie.url, r.proveedor]

/-- What refuses an attempt: a text that is not stored, the range of `NUMERIC(4, 3)`, a check of the
table or its key. -/
def insertIntentoError (t : Rows IntentoVerificacionRow.id) (r : IntentoVerificacionRow) :
    Option Failure :=
  if let some e := textError? r.textos then some e
  else if r.numerics.any fun n => 9999 < n.natAbs then some .numeric
  else if !((r.resultado = .fallido) == r.motivoFallo.isSome) then
    some (.uniqueViolation "ck_intentos_verificacion_motivo_solo_si_fallido")
  else if !((r.resultado = .noConcluyente) ==
      (r.scoreLiveness.isNone && r.scoreComparacion.isNone)) then
    some (.uniqueViolation "ck_intentos_verificacion_scores_segun_resultado")
  else if (r.scoreLiveness.toList ++ r.scoreComparacion.toList).any fun n => n < 0 || 1000 < n then
    some (.uniqueViolation "ck_intentos_verificacion_scores_rango")
  else if (t.find? r.id).isSome then some (.uniqueViolation "intentos_verificacion_pkey")
  else none

/-- An attempt that was evaluated is refused for its texts, its numbers or its key only. -/
theorem insertIntentoError_evaluar (t : Rows IntentoVerificacionRow.id) (id pasajeroId : UUID)
    (selfie : StoredMedia) (result : Option BiometricResult) (umbrales : Thresholds)
    (proveedor : String) (ahora : Instant) {e : Failure}
    (h : insertIntentoError t
      (IntentoVerificacion.evaluar id pasajeroId selfie result umbrales proveedor ahora).row =
        some e) :
    (∃ texto, storable texto = false ∧ e = .text texto) ∨ e = .numeric ∨
      e = .uniqueViolation "ck_intentos_verificacion_scores_rango" ∨
      (e = .uniqueViolation "intentos_verificacion_pkey" ∧ (t.find? id).isSome) := by
  obtain ⟨hmotivo, hscores⟩ :=
    IntentoVerificacion.evaluar_checks id pasajeroId selfie result umbrales proveedor ahora
  have hid : (IntentoVerificacion.evaluar id pasajeroId selfie result umbrales proveedor
    ahora).row.id = id := rfl
  generalize IntentoVerificacion.evaluar id pasajeroId selfie result umbrales proveedor ahora = i
    at h hid hmotivo hscores
  have hmotivo : decide (i.row.resultado = .fallido) = i.row.motivoFallo.isSome := by
    rw [Bool.eq_iff_iff, decide_eq_true_eq]
    exact hmotivo
  have hscores : decide (i.row.resultado = .noConcluyente) =
      (i.row.scoreLiveness.isNone && i.row.scoreComparacion.isNone) := by
    rw [Bool.eq_iff_iff, decide_eq_true_eq]
    simpa [IntentoVerificacion.row] using hscores
  simp only [insertIntentoError, hmotivo, hscores, beq_self_eq_true, Bool.not_true,
    Bool.false_eq_true, if_false] at h
  split at h
  · next htext =>
    obtain ⟨texto, -, hbad, rfl⟩ := textError?_eq_some htext
    exact .inl ⟨texto, hbad, (Option.some.inj h).symm⟩
  split at h
  · exact .inr (.inl (Option.some.inj h).symm)
  split at h
  · exact .inr (.inr (.inl (Option.some.inj h).symm))
  split at h
  · next hfound => exact .inr (.inr (.inr ⟨(Option.some.inj h).symm, hid ▸ hfound⟩))
  · cases h

/-- What refuses a passenger whose verification columns changed. -/
def savePasajeroError (p : PasajeroRow) : Option Failure :=
  if p.intentosFallidos ≤ 3 then none
  else some (.uniqueViolation "ck_pasajeros_intentos_fallidos_rango")

/-- `save` of the passenger repository: all columns are written. -/
def savePasajero (t : Rows PasajeroRow.id) (p : PasajeroRow) : Rows PasajeroRow.id :=
  t.modify p.id (fun r => { p with id := r.id }) fun _ => rfl

/-- What is found after a save: the passenger saved, if its row exists. -/
theorem find?_savePasajero (t : Rows PasajeroRow.id) (p : PasajeroRow) (id : UUID) :
    (savePasajero t p).find? id =
      if p.id = id then (t.find? id).map fun _ => p else t.find? id := by
  rw [savePasajero, Rows.find?_modify]
  split
  · next h =>
    cases hr : t.find? id with
    | none => rfl
    | some r =>
      have hid := Rows.find?_key hr
      simp only [Option.map_some, hid, ← h]
  · rfl

/-- What refuses an identity: its keys, the check of its table and the index of ACTIVA ones. -/
def insertIdentidadError (t : Rows IdentidadDigital.id) (x : IdentidadDigital) : Option Failure :=
  if (t.find? x.id).isSome then some (.uniqueViolation "identidades_digitales_pkey")
  else if !((x.estado = .revocada) == x.revocadaAt.isSome) then
    some (.uniqueViolation "ck_identidades_digitales_revocada_at")
  else if t.rows.any fun y => y.intentoOrigenId = x.intentoOrigenId then
    some (.uniqueViolation "uq_identidades_digitales_intento_origen_id")
  else if x.activa && t.rows.any fun y => y.activa && y.pasajeroId = x.pasajeroId then
    some (.uniqueViolation "uq_identidades_digitales_una_activa")
  else none

end Aeropass
