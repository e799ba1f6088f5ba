import Aeropass.Lib.Binary64
import Aeropass.Verification.Store

/-!
# Stored verdicts

The verdict on an attempt is taken on the scores and thresholds as they are, and its row keeps them
rounded to thousandths. Evaluating the row again (`reevaluate`) can only differ where the score that
failed the attempt is rounded to its threshold.
-/

namespace Aeropass

/-- `evaluate_outcome` on the columns of a row. -/
def IntentoVerificacionRow.reevaluate (r : IntentoVerificacionRow) :
    ResultadoIntento × Option MotivoFallo :=
  let result := match r.scoreLiveness, r.scoreComparacion with
    | some liveness, some comparacion =>
      some ⟨(liveness : ℚ) / 1000, (comparacion : ℚ) / 1000, r.proveedor⟩
    | _, _ => none
  evaluateOutcome result ⟨(r.umbralLiveness : ℚ) / 1000, (r.umbralComparacion : ℚ) / 1000⟩

/-- The score under its threshold that failed the attempt is not rounded to the same thousandth. -/
def RoundsApart (result : BiometricResult) (umbrales : Thresholds) : Prop :=
  (result.scoreLiveness < umbrales.liveness →
    dec result.scoreLiveness ≠ dec umbrales.liveness) ∧
  (umbrales.liveness ≤ result.scoreLiveness → result.scoreComparacion < umbrales.comparacion →
    dec result.scoreComparacion ≠ dec umbrales.comparacion)

theorem dec_eq (value : ℚ) : dec value = Binary64.roundHalfEven (value * 1000) := rfl

/-- Rounding keeps the order of scores. -/
theorem dec_mono {x y : ℚ} (h : x ≤ y) : dec x ≤ dec y := by
  rw [dec_eq, dec_eq]
  exact Binary64.roundHalfEven_mono (mul_le_mul_of_nonneg_right h (by norm_num))

/-- Columns compare as their thousandths. -/
theorem thousandths_lt_iff (m n : Int) : (m : ℚ) / 1000 < (n : ℚ) / 1000 ↔ m < n := by
  rw [div_lt_div_iff_of_pos_right (by norm_num), Int.cast_lt]

/-- A score under its threshold is stored under it exactly when they are rounded apart. -/
theorem dec_lt_iff {score umbral : ℚ} (h : score < umbral) :
    dec score < dec umbral ↔ dec score ≠ dec umbral :=
  ⟨ne_of_lt, lt_of_le_of_ne (dec_mono h.le)⟩

/-- Without a result the row keeps no scores. -/
theorem reevaluate_none (id pasajeroId : UUID) (selfie : StoredMedia) (umbrales : Thresholds)
    (proveedor : String) (ahora : Instant) :
    let row := (IntentoVerificacion.evaluar id pasajeroId selfie none umbrales proveedor ahora).row
    row.reevaluate = (row.resultado, row.motivoFallo) := rfl

/-- With a result the row is explained exactly when the failing score is rounded apart. -/
theorem reevaluate_some_iff (id pasajeroId : UUID) (selfie : StoredMedia)
    (result : BiometricResult) (umbrales : Thresholds) (proveedor : String) (ahora : Instant) :
    let row := (IntentoVerificacion.evaluar id pasajeroId selfie (some result) umbrales proveedor
      ahora).row
    row.reevaluate = (row.resultado, row.motivoFallo) ↔ RoundsApart result umbrales := by
  intro row
  have hrow : row.reevaluate =
      if dec result.scoreLiveness < dec umbrales.liveness then (.fallido, some .liveness)
      else if dec result.scoreComparacion < dec umbrales.comparacion then
        (.fallido, some .comparacion)
      else (.exitoso, none) := by
    simp only [row, IntentoVerificacionRow.reevaluate, IntentoVerificacion.row,
      IntentoVerificacion.evaluar, Option.map_some, evaluateOutcome, thousandths_lt_iff]
  have hverdict : (row.resultado, row.motivoFallo) =
      if result.scoreLiveness < umbrales.liveness then (.fallido, some .liveness)
      else if result.scoreComparacion < umbrales.comparacion then (.fallido, some .comparacion)
      else (.exitoso, none) := rfl
  rw [hrow, hverdict, RoundsApart]
  by_cases hl : result.scoreLiveness < umbrales.liveness
  · rw [if_pos hl, ← dec_lt_iff hl]
    by_cases hl' : dec result.scoreLiveness < dec umbrales.liveness
    · simp [hl, hl']
    · simp only [hl, hl', if_false, true_imp_iff, false_and, iff_false]
      split <;> simp
  · have hle := not_lt.1 hl
    rw [if_neg hl, if_neg (not_lt.2 (dec_mono hle))]
    by_cases hc : result.scoreComparacion < umbrales.comparacion
    · rw [if_pos hc, ← dec_lt_iff hc]
      by_cases hc' : dec result.scoreComparacion < dec umbrales.comparacion
      · simp [hl, hc']
      · simp [hle, hc, hc']
    · rw [if_neg hc, if_neg (not_lt.2 (dec_mono (not_lt.1 hc)))]
      simp [hl, hc]

/-- **Stored verdicts.** Evaluating the row of an attempt again gives its result and its reason
exactly when the score that failed it, if one did, is not rounded to its threshold. -/
theorem reevaluate_iff (id pasajeroId : UUID) (selfie : StoredMedia)
    (result : Option BiometricResult) (umbrales : Thresholds) (proveedor : String)
    (ahora : Instant) :
    let row := (IntentoVerificacion.evaluar id pasajeroId selfie result umbrales proveedor
      ahora).row
    row.reevaluate = (row.resultado, row.motivoFallo) ↔
      ∀ r ∈ result, RoundsApart r umbrales := by
  intro row
  cases result with
  | none => simpa using reevaluate_none id pasajeroId selfie umbrales proveedor ahora
  | some result =>
    simpa using reevaluate_some_iff id pasajeroId selfie result umbrales proveedor ahora

/-- A liveness score of 0.7996 fails against 0.8 and is stored as 0.800, which passes. -/
theorem reevaluate_fails :
    let row := (IntentoVerificacion.evaluar 1 2 ⟨"u", "p"⟩ (some ⟨7996 / 10000, 1, "mock"⟩)
      ⟨8 / 10, 8 / 10⟩ "mock" 0).row
    (row.resultado, row.motivoFallo) = (.fallido, some .liveness) ∧
      row.reevaluate = (.exitoso, none) ∧
      ¬ row.reevaluate = (row.resultado, row.motivoFallo) := by
  decide +kernel

end Aeropass
