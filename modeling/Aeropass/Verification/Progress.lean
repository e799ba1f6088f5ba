import Aeropass.Domain.Passenger
import Aeropass.Lib.Runs

/-!
# The progress of a verification

What the attempts of a passenger are for, as a state machine of its own: each outcome moves the
state and the counter of failures, and the two final states take no outcome any more. The passenger
aggregate refines it, `applyOutcome` being one of its steps.
-/

namespace Aeropass

open Runs

/-- The part of a passenger that attempts move. -/
structure Progress where
  estado : EstadoPasajero := .pendienteVerificacion
  fallidos : Nat := 0
  deriving DecidableEq

namespace Progress

/-- What one outcome makes of it; nothing once the state is final. -/
def step (s : Progress) (r : ResultadoIntento) : Option Progress :=
  match s.estado, r with
  | .pendienteVerificacion, .exitoso => some { s with estado := .verificado }
  | .pendienteVerificacion, .fallido =>
    if maxIntentosFallidos ≤ s.fallidos + 1 then
      some { estado := .requiereRevisionManual, fallidos := s.fallidos + 1 }
    else some { s with fallidos := s.fallidos + 1 }
  | .pendienteVerificacion, .noConcluyente => some s
  | _, _ => none

variable {s s' : Progress} {r : ResultadoIntento} {rs : List ResultadoIntento}

/-- Only a pending verification takes an outcome. -/
theorem pendiente_of_step (h : s.step r = some s') : s.estado = .pendienteVerificacion := by
  cases hs : s.estado with
  | pendienteVerificacion => rfl
  | verificado => simp [step, hs] at h
  | requiereRevisionManual => simp [step, hs] at h

/-- An inconclusive attempt changes nothing. -/
theorem step_noConcluyente (h : s.step .noConcluyente = some s') : s' = s := by
  have hs := pendiente_of_step h
  simp only [step, hs, Option.some.injEq] at h
  exact h.symm

/-- What the state says about the outcomes so far: while it is pending there were fewer than three
failures and no success, and it is final by the third failure or by one success. -/
structure Counts (rs : List ResultadoIntento) (s : Progress) : Prop where
  fallidos : s.fallidos = rs.count .fallido
  estado : match s.estado with
    | .pendienteVerificacion => rs.count .fallido < 3 ∧ rs.count .exitoso = 0
    | .verificado => rs.count .fallido < 3 ∧ rs.count .exitoso = 1
    | .requiereRevisionManual => rs.count .fallido = 3 ∧ rs.count .exitoso = 0

/-- One more outcome is counted. -/
theorem Counts.snoc (hc : Counts rs s) (h : s.step r = some s') : Counts (rs ++ [r]) s' := by
  have hs := pendiente_of_step h
  obtain ⟨hf, hest⟩ := hc
  simp only [hs] at hest
  obtain ⟨hlt, hex⟩ := hest
  cases r with
  | exitoso =>
    simp only [step, hs, Option.some.injEq] at h
    subst h
    constructor
    · simp [hf]
    · simp [hex, hlt]
  | fallido =>
    simp only [step, hs, maxIntentosFallidos] at h
    have hcount : (rs ++ [ResultadoIntento.fallido]).count .fallido = rs.count .fallido + 1 := by
      simp
    have hcount' : (rs ++ [ResultadoIntento.fallido]).count .exitoso = 0 := by simp [hex]
    split at h
    · cases h
      constructor
      · simp only [hcount, hf]
      · simp only [hcount, hcount', and_true]
        omega
    · cases h
      constructor
      · simp only [hcount, hf]
      · simp only [hcount, hcount', and_true]
        omega
  | noConcluyente =>
    obtain rfl := step_noConcluyente h
    constructor
    · simp [hf]
    · simp [hs, hlt, hex]

/-- The state counts the outcomes that led to it. -/
theorem counts_of_run (h : run step {} rs = some s) : Counts rs s := by
  refine run_induction (P := Counts) ?_ ?_ h
  · constructor <;> simp
  · intro rs s r s' _ hc hst
    exact hc.snoc hst

/-- Before each outcome the verification was pending. -/
theorem pendiente_before {pre post : List ResultadoIntento}
    (h : run step {} (pre ++ r :: post) = some s) :
    ∃ u, run step {} pre = some u ∧ u.estado = .pendienteVerificacion := by
  obtain ⟨u, v, hu, hst, -⟩ := run_split h
  exact ⟨u, hu, pendiente_of_step hst⟩

end Progress

/-- The progress that the columns of a passenger record. -/
def PasajeroRow.progress (p : PasajeroRow) : Progress := ⟨p.estado, p.intentosFallidos⟩

@[simp] theorem PasajeroRow.progress_estado (p : PasajeroRow) : p.progress.estado = p.estado := rfl

@[simp] theorem PasajeroRow.progress_fallidos (p : PasajeroRow) :
    p.progress.fallidos = p.intentosFallidos := rfl

/-- A new passenger has made none. -/
@[simp] theorem Pasajero.progress_registrar (id : UUID) (clerkUserId : String)
    (datos : DatosDocumento) (foto : StoredMedia) (ahora : Instant) :
    (registrar id clerkUserId datos foto ahora).progress = {} := rfl

/-- `assert_can_verify` passes exactly while the verification is pending. -/
theorem Pasajero.assertCanVerify_eq_ok {p : Pasajero} :
    p.assertCanVerify = .ok () ↔ p.estado = .pendienteVerificacion := by
  unfold assertCanVerify
  split
  · next h => simp [h]
  · next h => simp [h]

/-- `apply_outcome` is a step of the verification, and keeps the key of the passenger. -/
theorem Pasajero.applyOutcome_ok {p q : Pasajero} {resultado : ResultadoIntento} {ahora : Instant}
    (h : p.applyOutcome resultado ahora = .ok q) :
    p.progress.step resultado = some q.progress ∧ q.id = p.id := by
  simp only [applyOutcome, bind, Except.bind] at h
  split at h
  · cases h
  · next hcan =>
    have hp := assertCanVerify_eq_ok.1 hcan
    cases resultado with
    | exitoso =>
      cases h
      simp [Progress.step, PasajeroRow.progress, hp]
    | fallido =>
      cases h
      simp only [Progress.step, PasajeroRow.progress, hp, and_true]
      split <;> rfl
    | noConcluyente =>
      cases h
      simp [Progress.step, PasajeroRow.progress, hp]

end Aeropass
