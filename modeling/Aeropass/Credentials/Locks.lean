import Aeropass.Credentials.AtRest
import Aeropass.Lib.LockOrder

/-!
# The order of the row locks

Which row the next step of a call needs (`Call.needs`), and how many of its own steps it still makes
before its transaction ends (`Call.left`). `issue` locks its passenger before the previous
credential, and every other call locks one credential, so the locks are taken in one order.
-/

namespace Aeropass

open CredentialTables Runs Threads

/-- The row that the next step of a call locks. -/
def Call.needs (w : World) : Call → Option Lock
  | .issue _ _ (.admitted _ p) => (w.pasajeros.find? p.id).map fun _ => .pasajero p.id
  | .issue _ _ (.dated tx) =>
    (w.tables.getLiveForUpdate tx.pasajeroId tx.codigo).map fun a => .credencial a.id
  | .consume jti _ (.read _) | .revokeById jti _ .start | .detail jti _ .start =>
    some (.credencial jti)
  | _ => none

/-- The row that a call waits for: one that it needs and a transaction holds. -/
def Call.waitsOn (w : World) (l : Call) : Option Lock :=
  (l.needs w).filter fun k => (w.locks k).isSome

/-- How many steps a call makes until its transaction ends; none without an open transaction. -/
def Call.left : Call → Nat
  | .issue _ _ (.locked ..) => 7
  | .issue _ _ (.dated _) => 6
  | .issue _ _ (.renewing ..) => 5
  | .issue _ _ (.ready _) => 4
  | .issue _ _ (.built ..) => 3
  | .issue _ _ (.added ..) => 2
  | .issue _ _ (.registered ..) | .issue _ _ (.unregistered ..) => 1
  | .revokeById _ _ (.locked _) => 3
  | .revokeById _ _ (.refreshed _) => 2
  | .revokeById _ _ (.revoked ..) => 1
  | .detail _ _ (.locked _) => 2
  | .detail _ _ (.refreshed ..) => 1
  | _ => 0

/-- Passengers are locked before credentials. -/
def Lock.rank : Lock → Nat
  | .pasajero _ => 0
  | .credencial _ => 1

variable {cfg : PassSettings} {i j : Nat} {w w' : World} {l l' : Call} {ch : Choice} {k : Lock}

/-- What a call holds in a reachable state it may hold where it is. -/
theorem locks_mayHold {s : CredentialSystem}
    (hs : Reachable CredentialSystem.Initial (credentialStep cfg) s) : LocksOK s := by
  refine hs.invariant (fun s h k j hk => ?_) fun _ _ _ h hst => h.step hst
  rw [h.2.2.1] at hk
  cases hk

/-! ## The order of the locks -/

/-- What a call needs ranks above what it may hold. -/
theorem Call.rank_lt {k' : Lock} (hn : l.needs w = some k) (hk : l.MayHold k') :
    k'.rank < k.rank := by
  cases l with
  | issue user codigoVuelo ph =>
    cases ph with
    | dated tx =>
      obtain ⟨a, -, rfl⟩ := Option.map_eq_some_iff.1 hn
      obtain ⟨id, rfl⟩ := hk
      exact Nat.zero_lt_one
    | start | validated | found | admitted | committed | done => exact hk.elim
    | locked | renewing | ready | built | added | registered | unregistered => cases hn
  | revokeById jti motivo ph =>
    cases ph with
    | start | forgetting | done => exact hk.elim
    | locked | refreshed | revoked => cases hn
  | detail jti pasajeroId ph =>
    cases ph with
    | start | done => exact hk.elim
    | locked | refreshed => cases hn
  | idle | consume | sweep | mayBeUsable => exact hk.elim

theorem Lock.rank_le (k : Lock) : k.rank ≤ 1 := by
  cases k with
  | pasajero => exact Nat.zero_le 1
  | credencial => exact Nat.le_refl 1

/-! ## Progress -/

/-- The previous credential of a transaction that does not wait is free. -/
theorem Call.free_of_not_waiting (hw : l.waitsOn w = none) (hn : l.needs w = some k) :
    w.locks k = none := by
  rw [waitsOn, hn] at hw
  cases hloc : w.locks k with
  | none => rfl
  | some j => simp [Option.filter, hloc] at hw

/-- An `issue` under way that waits for no row can make its next step, if an id is free. -/
theorem issueStep_enabled {user codigoVuelo : String} {ph : IssuePhase}
    (hl : ¬ (Call.issue user codigoVuelo ph).AtRest)
    (hw : (Call.issue user codigoVuelo ph).waitsOn w = none) {jti : UUID}
    (hfree : w.issuer jti = none) :
    (issueStep cfg i w user codigoVuelo { jti } ph).isSome := by
  cases ph with
  | admitted codigo p =>
    simp only [issueStep]
    split
    · rfl
    · next r hfind =>
      have hnone := Call.free_of_not_waiting hw (k := .pasajero p.id) (by
        simp only [Call.needs, hfind, Option.map_some])
      rw [hnone, if_neg (by simp)]
      split <;> rfl
  | dated tx =>
    simp only [issueStep]
    split
    · rfl
    · next a hget =>
      have hnone := Call.free_of_not_waiting hw (k := .credencial a.id) (by
        simp only [Call.needs, hget, Option.map_some])
      rw [hnone, if_neg (by simp)]
      split <;> rfl
  | ready tx =>
    simp only [issueStep, hfree]
    rw [if_neg (by simp)]
    split <;> rfl
  | start | validated | found | locked | built | added =>
    simp only [issueStep]
    split <;> rfl
  | registered tx c token =>
    simp only [issueStep, if_true]
    split <;> rfl
  | renewing | unregistered | committed => rfl
  | done => exact absurd trivial hl

/-- So can every call under way. -/
theorem callStep_enabled (hl : ¬ l.AtRest) (hw : l.waitsOn w = none) {jti : UUID}
    (hfree : w.issuer jti = none) : (callStep cfg i w l (.next { jti })).isSome := by
  cases l with
  | idle => exact absurd trivial hl
  | issue user codigoVuelo ph =>
    simp only [callStep, Option.isSome_map]
    exact issueStep_enabled hl hw hfree
  | consume jti actor ph =>
    simp only [callStep, Option.isSome_map]
    cases ph with
    | start | marking => rfl
    | read now =>
      have hnone : w.locks (.credencial jti) = none := Call.free_of_not_waiting hw rfl
      simp only [consumeStep, hnone, Bool.true_and]
      rw [if_neg (by simp)]
      split
      · rfl
      split
      · split
        · rfl
        · split <;> rfl
      · rfl
    | done => exact absurd trivial hl
  | revokeById jti motivo ph =>
    simp only [callStep, Option.isSome_map]
    cases ph with
    | start =>
      have hnone : w.locks (.credencial jti) = none := Call.free_of_not_waiting hw rfl
      simp only [revokeStep, hnone]
      rw [if_neg (by simp)]
      split <;> rfl
    | locked | refreshed | forgetting => rfl
    | revoked c r =>
      simp only [revokeStep, Bool.true_and]
      split
      · split <;> rfl
      · rfl
    | done => exact absurd trivial hl
  | detail jti pasajeroId ph =>
    simp only [callStep, Option.isSome_map]
    cases ph with
    | start =>
      have hnone : w.locks (.credencial jti) = none := Call.free_of_not_waiting hw rfl
      simp only [detailStep, hnone]
      rw [if_neg (by simp)]
      split
      · rfl
      · split <;> rfl
    | locked c =>
      simp only [detailStep]
      split <;> rfl
    | refreshed => rfl
    | done => exact absurd trivial hl
  | sweep limit ph =>
    simp only [callStep, Option.isSome_map]
    cases ph with
    | start | read => rfl
    | done => exact absurd trivial hl
  | mayBeUsable jti ans =>
    cases ans with
    | none => rfl
    | some => exact absurd trivial hl

/-- Every step of a transaction of `issue` brings its end nearer. -/
theorem issueStep_left {user codigoVuelo : String} {ph : IssuePhase} {r : World × IssuePhase}
    (hk : (Call.issue user codigoVuelo ph).MayHold k)
    (h : issueStep cfg i w user codigoVuelo ch ph = some r) :
    (Call.issue user codigoVuelo r.2).left < (Call.issue user codigoVuelo ph).left := by
  cases ph with
  | locked | built | added =>
    simp only [issueStep] at h
    split at h <;> cases h <;> simp [Call.left]
  | dated tx =>
    simp only [issueStep] at h
    split at h
    · cases h; simp [Call.left]
    split at h
    · cases h
    split at h <;> cases h <;> simp [Call.left]
  | renewing tx a => cases h; simp [Call.left]
  | ready tx =>
    simp only [issueStep] at h
    split at h
    · cases h
    split at h <;> cases h <;> simp [Call.left]
  | registered | unregistered =>
    simp only [issueStep] at h
    repeat' split at h
    all_goals cases h; simp [Call.left]
  | start | validated | found | admitted | committed | done => exact hk.elim

/-- So does every step of a call with an open transaction. -/
theorem callStep_left {a : CallAct} {r : World × Call} (hk : l.MayHold k)
    (h : callStep cfg i w l a = some r) : r.2.left < l.left := by
  unfold callStep at h
  split at h
  · exact hk.elim
  · obtain ⟨r', hr', rfl⟩ := Option.map_eq_some_iff.1 h
    exact issueStep_left hk hr'
  · exact hk.elim
  · obtain ⟨r', hr', rfl⟩ := Option.map_eq_some_iff.1 h
    rename_i jti motivo ph ch
    cases ph with
    | locked | refreshed => cases hr'; simp [Call.left]
    | revoked c t =>
      simp only [revokeStep] at hr'
      repeat' split at hr'
      all_goals cases hr'; simp [Call.left]
    | start | forgetting | done => exact hk.elim
  · obtain ⟨r', hr', rfl⟩ := Option.map_eq_some_iff.1 h
    rename_i jti pasajeroId ph ch
    cases ph with
    | locked | refreshed =>
      simp only [detailStep] at hr'
      split at hr' <;> cases hr' <;> simp [Call.left]
    | start | done => exact hk.elim
  · exact hk.elim
  · exact hk.elim
  · cases h

end Aeropass
