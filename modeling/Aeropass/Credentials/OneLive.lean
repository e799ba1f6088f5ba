import Aeropass.Credentials.Reach

/-!
# One live pass for each passenger and flight

The partial unique index `uq_credenciales_acceso_una_viva` is never what stops `issue`: the
transaction holds the passenger, has made the live credential of its key final, and the builder
stores the key that it looked up.
-/

namespace Aeropass

open CredentialTables CredencialAcceso Runs Threads

/-- **At most one live pass.** In every reachable state no credential is EMITIDA, every stored
flight code is its own normal form, and a passenger has at most one ACTIVA credential for a
normalised code. An `issue` call at its insert holds the passenger, inserts the key that it looked
up and violates no constraint, so no `issue` call ends with `UniqueViolation`. Normalising twice is
normalising once. -/
theorem one_live_pass {cfg : PassSettings} {s : CredentialSystem}
    (hs : Reachable CredentialSystem.Initial (credentialStep cfg) s) :
    (∀ id r, s.shared.tables.row? id = some r → r.estado ≠ .emitida ∧
      normalizarCodigoVuelo (some r.codigoVuelo) = .ok r.codigoVuelo) ∧
    (∀ id id' r r', s.shared.tables.row? id = some r → s.shared.tables.row? id' = some r' →
      r.estado = .activa → r'.estado = .activa → r.pasajeroId = r'.pasajeroId →
      normalizarCodigoVuelo (some r.codigoVuelo) = normalizarCodigoVuelo (some r'.codigoVuelo) →
      id = id') ∧
    (∀ i user codigo tx c token, s.locals i = .issue user codigo (.built tx c token) →
      s.shared.locks (.pasajero tx.pasajeroId) = some i ∧ c.pasajeroId = tx.pasajeroId ∧
      c.codigoVuelo = tx.codigo ∧ (s.shared.tables.applyAll tx.writes).insertError c = none) ∧
    (∀ i user codigo k, s.locals i ≠ .issue user codigo (.done (.error (.uniqueViolation k)))) ∧
    ∀ codigo normal, normalizarCodigoVuelo codigo = .ok normal →
      normalizarCodigoVuelo (some normal) = .ok normal := by
  obtain ⟨hw, hl⟩ := credential_inv hs
  have hnorm : ∀ {id r}, s.shared.tables.row? id = some r →
      normalizarCodigoVuelo (some r.codigoVuelo) = .ok r.codigoVuelo :=
    fun hr => normalizarCodigoVuelo_of_match (hw.codigo hr)
  refine ⟨fun id r hr => ⟨hw.noEmitida hr, hnorm hr⟩, ?_, ?_, ?_,
    fun _ _ => normalizarCodigoVuelo_idempotent⟩
  · intro id id' r r' hr hr' ha ha' hp hc
    rw [hnorm hr, hnorm hr', Except.ok.injEq] at hc
    exact hw.unaViva hr hr' (by rw [ha]; rfl) (by rw [ha']; rfl) hp hc
  · intro i user codigo tx c token hi
    have hok := hl i
    rw [hi] at hok
    obtain ⟨old, hready, hwr, hb⟩ := hok
    rw [hwr]
    exact ⟨hready.lock, hb.pasajero, hb.codigo, insertError_none hw hready hb⟩
  · intro i user codigo k hi
    have hok := hl i
    rw [hi] at hok
    exact hok k rfl

/-- Two issues of one flight, the second before the first is due. -/
theorem one_live_pass_sample :
    ∃ s, run (credentialStep sampleSettings) sampleStart (sampleIssue 0 7 ++
        callThrough 1 (.issue "user" "AV9380") 12 { jti := 8 }) = some s ∧
      (∃ r, s.shared.tables.row? 8 = some r ∧ r.estado = .activa) ∧
      ∀ r, s.shared.tables.row? 7 = some r → r.estado ≠ .activa := by
  obtain ⟨s, hs⟩ := Option.isSome_iff_exists.1 (by decide +kernel :
    (run (credentialStep sampleSettings) sampleStart (sampleIssue 0 7 ++
      callThrough 1 (.issue "user" "AV9380") 12 { jti := 8 })).isSome = true)
  have hspec := one_live_pass (Reachable.run (.start sampleStart_initial) hs)
  cases hs
  refine ⟨_, rfl, ⟨_, rfl, rfl⟩, fun r hr ha => ?_⟩
  have hid := hspec.2.1 7 8 r _ hr rfl ha rfl (by cases hr; rfl) (by cases hr; rfl)
  exact absurd hid (by decide)

end Aeropass
