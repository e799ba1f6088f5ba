import Aeropass.Credentials.Consume

/-!
# What a step writes

The repository calls that a step commits (`Call.commits`) and the Redis keys it leaves
(`Call.keys`), read off from where its call is; a step leaves exactly these (`Wrote`).
-/

namespace Aeropass

open CredentialTables CredencialAcceso Runs Threads

variable {cfg : PassSettings} {i : Nat} {w : World} {l : Call} {ch : Choice} {r : World × Call}

/-- The repository calls that the next step of a call commits. -/
def Call.commits (w : World) (ch : Choice) : Call → List Write
  | .issue _ _ (.registered tx _ _) | .issue _ _ (.unregistered tx _) =>
    if ch.commits then tx.writes else []
  | .consume jti actor (.read now) =>
    match w.tables.getForUpdate jti with
    | some c => if ch.commits && storable actor then [.save (consumed c now actor).2] else []
    | none => []
  | .revokeById _ motivo (.revoked c _) =>
    if ch.commits && storable motivo then [.save c] else []
  | .detail _ _ (.refreshed _ _ writes) => if ch.commits then writes else []
  | .sweep limit (.read now) =>
    if ch.commits then
      (w.tables.expiredLiveForUpdate now limit fun id =>
        w.locks (.credencial id) ≠ none || ch.skip.contains id).map fun c => .save (c.expirar now).2
    else []
  | _ => []

/-- The Redis keys after the next step of a call. -/
def Call.keys (cfg : PassSettings) (w : World) (ch : Choice) : Call → Redis
  | .issue _ _ (.added _ c _) => (w.redis.register w.clock ch.fault c.id cfg.ttl).2
  | .issue _ _ (.committed jti _) | .revokeById jti _ (.forgetting _) =>
    (w.redis.revoke ch.fault jti).2
  | .consume jti _ .marking => (w.redis.consume w.clock ch.fault jti).2
  | _ => w.redis

@[simp] theorem applyAll_nil (t : CredentialTables) : t.applyAll [] = t := rfl

/-- What a step leaves of the tables, of Redis and of the clock. -/
def Wrote (cfg : PassSettings) (w : World) (ch : Choice) (l : Call) (w' : World) : Prop :=
  w'.tables = w.tables.applyAll (l.commits w ch) ∧ w'.redis = l.keys cfg w ch ∧ w'.clock = w.clock

/-- The tables after a step of `issue` are those of its commit, if it commits. -/
theorem issueStep_wrote {user codigoVuelo : String} {ph : IssuePhase} {r : World × IssuePhase}
    (h : issueStep cfg i w user codigoVuelo ch ph = some r) :
    Wrote cfg w ch (.issue user codigoVuelo ph) r.1 := by
  cases ph with
  | start | validated | found | locked | built =>
    simp only [issueStep] at h
    split at h <;> cases h <;> exact ⟨rfl, rfl, rfl⟩
  | added =>
    simp only [issueStep] at h
    split at h <;> cases h <;> exact ⟨rfl, rfl, rfl⟩
  | admitted codigo p =>
    simp only [issueStep] at h
    split at h
    · cases h; exact ⟨rfl, rfl, rfl⟩
    split at h
    · cases h
    split at h <;> cases h <;> exact ⟨rfl, rfl, rfl⟩
  | dated tx =>
    simp only [issueStep] at h
    split at h
    · cases h; exact ⟨rfl, rfl, rfl⟩
    split at h
    · cases h
    split at h <;> cases h <;> exact ⟨rfl, rfl, rfl⟩
  | ready tx =>
    simp only [issueStep] at h
    split at h
    · cases h
    split at h <;> cases h <;> exact ⟨rfl, rfl, rfl⟩
  | registered tx c token =>
    simp only [issueStep] at h
    split at h
    · next hc => split at h <;> cases h <;> exact ⟨by simp [Call.commits, hc]; rfl, rfl, rfl⟩
    · next hc => cases h; exact ⟨by simp [Call.commits, hc]; rfl, rfl, rfl⟩
  | unregistered tx c =>
    simp only [issueStep] at h
    split at h
    · next hc => cases h; exact ⟨by simp [Call.commits, hc]; rfl, rfl, rfl⟩
    · next hc => cases h; exact ⟨by simp [Call.commits, hc]; rfl, rfl, rfl⟩
  | renewing | committed => cases h; exact ⟨rfl, rfl, rfl⟩
  | done => cases h

/-- The tables after a step of `consume` are those of its commit, if it commits. -/
theorem consumeStep_wrote {jti : UUID} {actor : String} {ph : ConsumePhase}
    {r : World × ConsumePhase} (h : consumeStep i w jti actor ch ph = some r) :
    Wrote cfg w ch (.consume jti actor ph) r.1 := by
  cases ph with
  | start | marking => cases h; exact ⟨rfl, rfl, rfl⟩
  | done => cases h
  | read now =>
    simp only [consumeStep] at h
    split at h
    · cases h
    split at h
    · next hg => cases h; exact ⟨by simp [Call.commits, hg], rfl, rfl⟩
    next c hg =>
    split at h
    · next hc =>
      have hw : (Call.consume jti actor (.read now)).commits w ch =
          [.save (consumed c now actor).2] := by
        simp [Call.commits, hg, hc]
      rw [Wrote, hw]
      split at h
      · cases h; exact ⟨rfl, rfl, rfl⟩
      · split at h <;> cases h <;> exact ⟨rfl, rfl, rfl⟩
    · next hc => cases h; exact ⟨by simp [Call.commits, hg, hc], rfl, rfl⟩

/-- The tables after a step of `revoke_by_id` are those of its commit, if it commits. -/
theorem revokeStep_wrote {jti : UUID} {motivo : String} {ph : RevokePhase}
    {r : World × RevokePhase} (h : revokeStep i w jti motivo ch ph = some r) :
    Wrote cfg w ch (.revokeById jti motivo ph) r.1 := by
  cases ph with
  | start =>
    simp only [revokeStep] at h
    split at h
    · cases h
    split at h <;> cases h <;> exact ⟨rfl, rfl, rfl⟩
  | locked | refreshed | forgetting => cases h; exact ⟨rfl, rfl, rfl⟩
  | revoked c res =>
    simp only [revokeStep] at h
    split at h
    · next hc => split at h <;> cases h <;> exact ⟨by simp [Call.commits, hc]; rfl, rfl, rfl⟩
    · next hc => cases h; exact ⟨by simp [Call.commits, hc]; rfl, rfl, rfl⟩
  | done => cases h

/-- The tables after a step of `detail_for_owner` are those of its commit, if it commits. -/
theorem detailStep_wrote {jti pasajeroId : UUID} {ph : DetailPhase} {r : World × DetailPhase}
    (h : detailStep i w jti pasajeroId ch ph = some r) :
    Wrote cfg w ch (.detail jti pasajeroId ph) r.1 := by
  cases ph with
  | start =>
    simp only [detailStep] at h
    split at h
    · cases h
    split at h
    · cases h; exact ⟨rfl, rfl, rfl⟩
    split at h <;> cases h <;> exact ⟨rfl, rfl, rfl⟩
  | locked c =>
    simp only [detailStep] at h
    split at h <;> cases h <;> exact ⟨rfl, rfl, rfl⟩
  | refreshed now c writes =>
    simp only [detailStep] at h
    split at h
    · next hc => cases h; exact ⟨by simp [Call.commits, hc]; rfl, rfl, rfl⟩
    · next hc => cases h; exact ⟨by simp [Call.commits, hc]; rfl, rfl, rfl⟩
  | done => cases h

/-- The tables after a step of `sweep_expired` are those of its commit, if it commits. -/
theorem sweepStep_wrote {limit : Nat} {ph : SweepPhase} {r : World × SweepPhase}
    (h : sweepStep i w limit ch ph = some r) : Wrote cfg w ch (.sweep limit ph) r.1 := by
  cases ph with
  | start => cases h; exact ⟨rfl, rfl, rfl⟩
  | read now =>
    simp only [sweepStep] at h
    split at h
    · next hc => cases h; exact ⟨by simp [Call.commits, hc]; rfl, rfl, rfl⟩
    · next hc => cases h; exact ⟨by simp [Call.commits, hc], rfl, rfl⟩
  | done => cases h

/-- **What a step writes.** -/
theorem callStep_wrote (h : callStep cfg i w l (.next ch) = some r) : Wrote cfg w ch l r.1 := by
  cases l with
  | idle => cases h
  | issue user codigoVuelo ph =>
    obtain ⟨r', hr', rfl⟩ := Option.map_eq_some_iff.1 h
    exact issueStep_wrote hr'
  | consume jti actor ph =>
    obtain ⟨r', hr', rfl⟩ := Option.map_eq_some_iff.1 h
    exact consumeStep_wrote hr'
  | revokeById jti motivo ph =>
    obtain ⟨r', hr', rfl⟩ := Option.map_eq_some_iff.1 h
    exact revokeStep_wrote hr'
  | detail jti pasajeroId ph =>
    obtain ⟨r', hr', rfl⟩ := Option.map_eq_some_iff.1 h
    exact detailStep_wrote hr'
  | sweep limit ph =>
    obtain ⟨r', hr', rfl⟩ := Option.map_eq_some_iff.1 h
    exact sweepStep_wrote hr'
  | mayBeUsable jti ans =>
    cases ans <;> cases h
    exact ⟨rfl, rfl, rfl⟩

end Aeropass
