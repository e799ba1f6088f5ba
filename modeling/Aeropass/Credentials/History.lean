import Aeropass.Credentials.Reach

/-!
# The history is the credential

In every reachable state the history of a credential replays to its stored state
(`history_replays`), whatever calls made it, and no entry is changed or lost later.
-/

namespace Aeropass

open CredentialTables CredencialAcceso Runs Threads

/-- What `history` has to say of a credential: `historial.replay` of a prefix is the target of its
last accepted entry. -/
structure ReplaysTo (r : CredencialAccesoRow) (h : List Transicion) : Prop where
  first : ∃ t rest, h = t :: rest ∧ t.estadoAnterior = none ∧ t.estadoSolicitado = .emitida ∧
    t.aceptada = true
  anterior : ∀ pre t post, h = pre ++ t :: post → t.estadoAnterior = historial.replay pre
  aceptada : ∀ pre t post e, h = pre ++ t :: post → t.estadoAnterior = some e →
    (t.aceptada = true ↔ (stateFor e).canTransitionTo t.estadoSolicitado = true)
  rechazada : ∀ t ∈ h, t.aceptada = false → t.motivo = motivoInvalida
  estado : historial.replay h = some r.estado
  final : ∀ pre t post, h = pre ++ t :: post → t.aceptada = true →
    t.estadoSolicitado ∈ [.consumida, .expirada, .revocada] → ∀ u ∈ post, u.aceptada = false
  consumida : ∀ t ∈ h, t.aceptada = true → t.estadoSolicitado = .consumida →
    t.createdAt < r.expiraAt
  expirada : ∀ t ∈ h, t.aceptada = true → t.estadoSolicitado = .expirada →
    r.expiraAt ≤ t.createdAt

/-- A true history replays to its credential. -/
theorem HistoryOK.replaysTo {r : CredencialAccesoRow} {h : List Transicion}
    (hh : HistoryOK r.expiraAt r.estado h) : ReplaysTo r h where
  first := hh.first
  anterior pre t post heq := (hh.faithful pre t post heq).1
  aceptada pre t post e heq he := by
    obtain ⟨hprev, hacc⟩ := hh.faithful pre t post heq
    have hacc : t.aceptada = historial.allowed (historial.replay pre) t.estadoSolicitado := hacc
    have hprev : t.estadoAnterior = historial.replay pre := hprev
    rw [hacc, ← hprev, he]
    rfl
  rechazada := hh.invalida
  estado := hh.replay
  final pre t post heq ha hf := hh.rejected_after_final heq ha <| by
    simp only [List.mem_cons, List.not_mem_nil, or_false] at hf
    rcases hf with h | h | h <;> rw [h] <;> rfl
  consumida := hh.consumida
  expirada := hh.expirada

/-- **The history is a faithful replay of the credential.** In every reachable state every
credential's history replays to it; a later state has the same entries, and more behind them, and
the same credentials, of which the final ones keep their state. What `detail_for_owner` returns is
a state that its history replays to, never EMITIDA, and ACTIVA only before the expiry. -/
theorem history_replays {cfg : PassSettings} {s t : CredentialSystem}
    {as : List (Act CallAct EnvAct)}
    (hs : Reachable CredentialSystem.Initial (credentialStep cfg) s)
    (hrun : run (credentialStep cfg) s as = some t) :
    (∀ id r, t.shared.tables.row? id = some r → ReplaysTo r (t.shared.tables.history id)) ∧
    s.shared.tables.transiciones <+: t.shared.tables.transiciones ∧
    (∀ id r, s.shared.tables.row? id = some r → ∃ r', t.shared.tables.row? id = some r' ∧
      SameIssue r r' ∧ (r.estado.live = false → r'.estado = r.estado)) ∧
    ∀ i jti pasajeroId now c h,
      t.locals i = .detail jti pasajeroId (.done now (.ok (c, h))) →
      historial.replay h = some c.estado ∧ c.estado ≠ .emitida ∧
        (c.estado = .activa → now < c.expiraAt) := by
  have hok := credential_inv hs
  have hok' := credential_inv (hs.run hrun)
  obtain ⟨-, hev⟩ := run_later hok hrun
  refine ⟨fun id r hr => (hok'.1.tables.history hr).replaysTo, hev.log, fun id r hr => hev.row hr,
    fun i jti pasajeroId now c h hl => ?_⟩
  have := hok'.2 i
  rw [hl] at this
  exact this

/-- A pass is issued and consumed, and its owner reads the detail in between. -/
theorem history_replays_sample :
    ∃ t, run (credentialStep sampleSettings) sampleStart
        (sampleIssue 0 7 ++ callThrough 1 (.detail 7 1) 3 ++ callThrough 2 (.consume 7 "gate") 2) =
          some t ∧
      (∃ r, t.shared.tables.row? 7 = some r ∧ r.estado = .consumida ∧
        ReplaysTo r (t.shared.tables.history 7)) ∧
      ∃ now c h, t.locals 1 = .detail 7 1 (.done now (.ok (c, h))) ∧
        historial.replay h = some c.estado := by
  obtain ⟨t, ht⟩ := Option.isSome_iff_exists.1 (by decide +kernel :
    (run (credentialStep sampleSettings) sampleStart (sampleIssue 0 7 ++
      callThrough 1 (.detail 7 1) 3 ++ callThrough 2 (.consume 7 "gate") 2)).isSome = true)
  have hspec := history_replays (.start sampleStart_initial) ht
  cases ht
  exact ⟨_, rfl, ⟨_, rfl, rfl, hspec.1 7 _ rfl⟩, _, _, _, rfl, (hspec.2.2.2 1 7 1 _ _ _ rfl).1⟩

end Aeropass
