import Aeropass.Credentials.IssueSteps

/-!
# Reachable states of the credential services

Every step of every call keeps the invariant (`credential_relyGuarantee`), so it holds in every
reachable state, and from there the tables only evolve.
-/

namespace Aeropass

open CredentialTables CredencialAcceso Runs Threads

variable {cfg : PassSettings} {i : Nat} {w : World} {s t : CredentialSystem}

/-- One step of a call. -/
theorem callStep_ok (hw : WorldOK w) {l : Call} {a : CallAct} {r : World × Call}
    (hl : l.OK cfg i w) (h : callStep cfg i w l a = some r) :
    WorldOK r.1 ∧ r.2.OK cfg i r.1 ∧ Guar i w r.1 := by
  cases a with
  | invoke q =>
    cases l with
    | idle =>
      cases h
      refine ⟨hw, ?_, .refl i w⟩
      cases q <;> trivial
    | issue | consume | revokeById | detail | sweep => cases h
    | mayBeUsable jti ans => cases ans <;> cases h
  | next ch =>
    cases l with
    | idle => cases h
    | issue user codigoVuelo ph =>
      obtain ⟨r', hr', rfl⟩ := Option.map_eq_some_iff.1 h
      exact issueStep_ok hw hl hr'
    | consume jti actor ph =>
      obtain ⟨r', hr', rfl⟩ := Option.map_eq_some_iff.1 h
      exact consumeStep_ok hw hl hr'
    | revokeById jti motivo ph =>
      obtain ⟨r', hr', rfl⟩ := Option.map_eq_some_iff.1 h
      exact revokeStep_ok hw hl hr'
    | detail jti pasajeroId ph =>
      obtain ⟨r', hr', rfl⟩ := Option.map_eq_some_iff.1 h
      exact detailStep_ok hw hl hr'
    | sweep limit ph =>
      obtain ⟨r', hr', rfl⟩ := Option.map_eq_some_iff.1 h
      exact ⟨(sweepStep_ok hw hr').1, trivial, (sweepStep_ok hw hr').2⟩
    | mayBeUsable jti ans =>
      cases ans <;> cases h
      exact ⟨hw, trivial, .refl i w⟩

/-- One step of the environment. -/
theorem envStep_ok (hw : WorldOK w) {e : EnvAct} {w' : World} (h : envStep w e = some w') :
    WorldOK w' ∧ ∀ j, Rely j w w' := by
  cases e with
  | tick d =>
    cases h
    refine ⟨hw.of_tables rfl rfl fun _ _ => rfl, fun j => .of_tables ?_ rfl rfl (fun _ h => h)
      fun _ _ => rfl⟩
    simp only [Instant]
    omega
  | others p q =>
    cases h
    exact ⟨hw.of_tables rfl rfl fun _ _ => rfl,
      fun j => .of_tables (Int.le_refl _) rfl rfl (fun _ h => h) fun _ _ => rfl⟩

/-- The credential services keep the invariant. -/
theorem credential_relyGuarantee (cfg : PassSettings) :
    RelyGuarantee (credentialProgram cfg) WorldOK (fun i w l => l.OK cfg i w) Guar where
  call hw hl h := callStep_ok hw hl h
  stable hij hg hl := hl.stable (hg _ hij)
  env hw h := ⟨(envStep_ok hw h).1, fun i _ hl => hl.stable ((envStep_ok hw h).2 i)⟩

/-- The invariant of the credential services. -/
abbrev CredentialsOK (cfg : PassSettings) : CredentialSystem → Prop :=
  Holds WorldOK fun i w l => l.OK cfg i w

/-- The invariant holds of empty tables. -/
theorem CredentialSystem.Initial.ok (h : s.Initial) : CredentialsOK cfg s := by
  obtain ⟨ht, hr, hl, hi, hloc⟩ := h
  refine ⟨⟨?_, ?_, ?_, ?_, ?_, ?_⟩, fun i => ?_⟩
  · rw [ht]; exact .empty
  · intro id r h; rw [ht] at h; cases h
  · intro id id' r r' h; rw [ht] at h; cases h
  · intro id r h; rw [ht] at h; cases h
  · intro id r h; rw [ht] at h; cases h
  · intro id r h; rw [ht] at h; cases h
  · rw [hloc]; trivial

/-- **The invariant.** -/
theorem credential_inv (hs : Reachable CredentialSystem.Initial (credentialStep cfg) s) :
    CredentialsOK cfg s :=
  (credential_relyGuarantee cfg).reachable (fun _ h => h.ok) hs

/-- From one state to a later one time passes and the tables evolve. -/
def Later (s t : CredentialSystem) : Prop :=
  s.shared.clock ≤ t.shared.clock ∧ Evolves s.shared.tables t.shared.tables

theorem Later.refl (s : CredentialSystem) : Later s s := ⟨Int.le_refl _, .refl _⟩

theorem Later.trans {u : CredentialSystem} (h : Later s t) (h' : Later t u) : Later s u :=
  ⟨Int.le_trans h.1 h'.1, h.2.trans h'.2⟩

/-- What one step leaves to the calls that do not make it. -/
theorem step_rely (hs : CredentialsOK cfg s) {a : Act CallAct EnvAct}
    (h : credentialStep cfg s a = some t) (j : Nat) (hj : ∀ b, a ≠ .call j b) :
    Rely j s.shared t.shared := by
  rcases Program.step_cases h with ⟨i, b, r, rfl, hc, hsh, -⟩ | ⟨e, rfl, he, -⟩
  · have hij : j ≠ i := by rintro rfl; exact hj b rfl
    rw [hsh]
    exact (callStep_ok hs.1 (hs.2 i) hc).2.2 j hij
  · exact (envStep_ok hs.1 he).2 j

/-- What a step of the credential services leaves. -/
theorem step_later (hs : CredentialsOK cfg s) {a : Act CallAct EnvAct}
    (h : credentialStep cfg s a = some t) : Later s t := by
  obtain ⟨j, hj⟩ : ∃ j, ∀ b, a ≠ .call j b := by
    cases a with
    | call i b => exact ⟨i + 1, fun b' h => by injection h with h; omega⟩
    | env e => exact ⟨0, fun b h => by cases h⟩
  have hr := step_rely hs h j hj
  exact ⟨hr.clock, hr.evolves⟩

/-- Along a run time passes and the tables evolve. -/
theorem run_later (hs : CredentialsOK cfg s) {as : List (Act CallAct EnvAct)}
    (h : run (credentialStep cfg) s as = some t) : Later s t :=
  run_rel (fun _ _ _ hs hst => (credential_relyGuarantee cfg).step hs hst) Later.refl Later.trans
    (fun _ _ _ hs hst => step_later hs hst) h hs

/-! ## A small system

One verified passenger and a signer, for the runs on fixed inputs further on. -/

/-- A passenger with an ACTIVA identity, at the epoch. -/
def sampleStart : CredentialSystem where
  shared :=
    { pasajeros := ⟨[{ id := 1, clerkUserId := "user", estado := .verificado
                       documento := ⟨⟨"Ana", .cc, "1234", 100⟩, ⟨"", ""⟩⟩ }], by simp⟩
      identidades := [.crear 2 1 3 0]
      tables := .empty
      redis := fun _ => none
      clock := 0
      locks := fun _ => none
      issuer := fun _ => none }
  locals := fun _ => .idle

theorem sampleStart_initial : sampleStart.Initial := ⟨rfl, rfl, rfl, rfl, rfl⟩

def sampleSettings : PassSettings := ⟨⟨"k", fun _ => some "header.payload.signature"⟩, 30⟩

/-- Call `i`, from its request through `n` steps. -/
def callThrough (i : Nat) (q : Request) (n : Nat) (ch : Choice := {}) :
    List (Act CallAct EnvAct) :=
  .call i (.invoke q) :: List.replicate n (.call i (.next ch))

/-- Call `i` issues the credential `jti` for the flight AV9380. -/
def sampleIssue (i : Nat) (jti : UUID) : List (Act CallAct EnvAct) :=
  callThrough i (.issue "user" " av9380") 10 { jti }

end Aeropass
