import Aeropass.Domain.Passenger
import Mathlib.Algebra.Order.Ring.Rat

/-!
# Verification attempts

`domain/verification.py`: the verdict on a selfie from the provider's two scores, and the attempt
that records it. A score, a float in the source, is the rational number that it stands for.
-/

namespace Aeropass

/-- `BiometricResult`. -/
structure BiometricResult where
  scoreLiveness : ℚ
  scoreComparacion : ℚ
  proveedor : String
  deriving DecidableEq

/-- `Thresholds`. -/
structure Thresholds where
  liveness : ℚ
  comparacion : ℚ
  deriving DecidableEq

/-- `evaluate_outcome`. -/
def evaluateOutcome (result : Option BiometricResult) (thresholds : Thresholds) :
    ResultadoIntento × Option MotivoFallo :=
  match result with
  | none => (.noConcluyente, none)
  | some result =>
    if result.scoreLiveness < thresholds.liveness then (.fallido, some .liveness)
    else if result.scoreComparacion < thresholds.comparacion then (.fallido, some .comparacion)
    else (.exitoso, none)

/-- `IntentoVerificacion`. -/
structure IntentoVerificacion where
  id : UUID
  pasajeroId : UUID
  selfie : StoredMedia
  resultado : ResultadoIntento
  motivoFallo : Option MotivoFallo
  scoreLiveness : Option ℚ
  scoreComparacion : Option ℚ
  umbrales : Thresholds
  proveedor : String
  createdAt : Instant
  deriving DecidableEq

/-- `IntentoVerificacion.evaluar`. -/
def IntentoVerificacion.evaluar (id pasajeroId : UUID) (selfie : StoredMedia)
    (result : Option BiometricResult) (umbrales : Thresholds) (proveedor : String)
    (ahora : Instant) : IntentoVerificacion :=
  let (resultado, motivo) := evaluateOutcome result umbrales
  { id, pasajeroId, selfie, resultado, umbrales
    motivoFallo := motivo
    scoreLiveness := result.map (·.scoreLiveness)
    scoreComparacion := result.map (·.scoreComparacion)
    proveedor := (result.map (·.proveedor)).getD proveedor
    createdAt := ahora }

/-- An attempt carries a reason exactly when it failed, and scores exactly when it is conclusive:
the two checks of its table that relate columns. -/
theorem IntentoVerificacion.evaluar_checks (id pasajeroId : UUID) (selfie : StoredMedia)
    (result : Option BiometricResult) (umbrales : Thresholds) (proveedor : String)
    (ahora : Instant) :
    let i := evaluar id pasajeroId selfie result umbrales proveedor ahora
    (i.resultado = .fallido ↔ i.motivoFallo.isSome) ∧
      (i.resultado = .noConcluyente ↔ i.scoreLiveness = none ∧ i.scoreComparacion = none) := by
  intro i
  simp only [i, evaluar, evaluateOutcome]
  cases result with
  | none => simp
  | some r => dsimp only; split <;> (try split) <;> simp

end Aeropass
