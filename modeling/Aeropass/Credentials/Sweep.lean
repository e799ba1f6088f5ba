import Aeropass.Credentials.LazyExpiry
import Mathlib.Data.Finset.Basic

/-!
# The expiry sweep is invisible

In a run in which one call at a time takes steps, sweeps can be left out and put in anywhere without
changing what the other calls return (`SameButSweeps`), but for the instants of expiries. What a
sweep itself does is `swept_exactly`.
-/

namespace Aeropass

open CredentialTables CredencialAcceso Runs Threads

variable {cfg : PassSettings} {i j k : Nat} {w w' : World} {ch : Choice} {E : Finset Nat}
  {s s' t t' : CredentialSystem} {a : Act CallAct EnvAct}

/-! ## Sequential runs -/

/-- A step of a call finds the other calls at rest. -/
def OneAtATime (s : CredentialSystem) (a : Act CallAct EnvAct) (_ : CredentialSystem) : Prop :=
  ∀ i b, a = .call i b → ∀ j, j ≠ i → (s.locals j).AtRest

/-- A run in which one call at a time takes steps. -/
def SequentialRun (cfg : PassSettings) (s : CredentialSystem) (as : List (Act CallAct EnvAct))
    (t : CredentialSystem) : Prop :=
  run (credentialStep cfg) s as = some t ∧ EachStep (credentialStep cfg) OneAtATime s as

theorem SequentialRun.append {as bs : List (Act CallAct EnvAct)} {u : CredentialSystem}
    (h : SequentialRun cfg s as u) (h' : SequentialRun cfg u bs t) :
    SequentialRun cfg s (as ++ bs) t :=
  ⟨by rw [run_append, h.1]; exact h'.1, h.2.append h.1 h'.2⟩

theorem SequentialRun.cons {as : List (Act CallAct EnvAct)} {u : CredentialSystem}
    (hst : credentialStep cfg s a = some u) (hone : OneAtATime s a u)
    (h : SequentialRun cfg u as t) : SequentialRun cfg s (a :: as) t :=
  ⟨by rw [run_cons, hst]; exact h.1, (eachStep_cons_of_some hst).1 ⟨hone, h.2⟩⟩

theorem SequentialRun.split {as bs : List (Act CallAct EnvAct)}
    (h : SequentialRun cfg s (as ++ bs) t) :
    ∃ u, SequentialRun cfg s as u ∧ SequentialRun cfg u bs t := by
  obtain ⟨u, hu, hrun⟩ := Option.bind_eq_some_iff.1 (run_append s as bs ▸ h.1)
  exact ⟨u, ⟨hu, h.2.left⟩, hrun, h.2.right hu⟩

/-- One call, all others being at rest. -/
theorem SequentialRun.of_call {as : List (Act CallAct EnvAct)}
    (hrest : ∀ j, j ≠ i → (s.locals j).AtRest) (has : ∀ a ∈ as, ∃ b, a = .call i b)
    (hrun : run (credentialStep cfg) s as = some t) :
    SequentialRun cfg s as t ∧ ∀ j, j ≠ i → (t.locals j).AtRest := by
  induction as generalizing s with
  | nil => cases hrun; exact ⟨⟨rfl, eachStep_nil _⟩, hrest⟩
  | cons a as ih =>
    obtain ⟨u, hst, hu⟩ := Option.bind_eq_some_iff.1 hrun
    obtain ⟨b, rfl⟩ := has a (by simp)
    obtain ⟨-, -, -, -, hother⟩ := Program.step_call hst
    obtain ⟨hseq, hrest'⟩ := ih (fun j hj => by rw [hother j hj]; exact hrest j hj)
      (fun a ha => has a (by simp [ha])) hu
    refine ⟨.cons hst (fun i' b' heq j hj => ?_) hseq, hrest'⟩
    cases heq
    exact hrest j hj

/-- A step that is not of one of the calls. -/
def visible (E : Finset Nat) : Act CallAct EnvAct → Bool
  | .call k _ => k ∉ E
  | .env _ => true

/-- These calls ask for sweeps only. -/
def OnlySweeps (E : Finset Nat) (as : List (Act CallAct EnvAct)) : Prop :=
  ∀ k q, k ∈ E → .call k (.invoke q) ∈ as → ∃ limit, q = .sweep limit

/-- A call that sweeps, or has not begun. -/
def Sweeping (w : World) (l : Call) : Prop :=
  l = .idle ∨ ∃ limit ph, l = .sweep limit ph ∧ ph.Alike w ph

theorem Sweeping.not_mayHold {l : Call} (h : Sweeping w l) (k : Lock) : ¬ l.MayHold k := by
  rcases h with rfl | ⟨limit, ph, rfl, -⟩ <;> exact id

/-- A sweep goes on while other calls step. -/
theorem Sweeping.stable {l : Call} (h : Sweeping w l) (hc : w.clock ≤ w'.clock) :
    Sweeping w' l := by
  rcases h with rfl | ⟨limit, ph, rfl, hp⟩
  · exact .inl rfl
  · refine .inr ⟨limit, ph, rfl, ?_⟩
    cases hp with
    | start => exact .start
    | read hn => exact .read (Int.le_trans hn hc)
    | done r r' => exact .done r r

/-- Two states between which only the calls in `E` have swept, in one of them or in the other. -/
structure SameButSweeps (cfg : PassSettings) (E : Finset Nat) (s t : CredentialSystem) : Prop where
  ok : CredentialsOK cfg s
  ok' : CredentialsOK cfg t
  locks : LocksOK s
  locks' : LocksOK t
  shared : Alike s.shared t.shared
  calls : ∀ j, j ∉ E → (s.locals j).Alike s.shared t.shared (t.locals j)
  sweeps : ∀ k ∈ E, Sweeping s.shared (s.locals k) ∧ Sweeping t.shared (t.locals k)

namespace SameButSweeps

theorem symm (h : SameButSweeps cfg E s t) : SameButSweeps cfg E t s where
  ok := h.ok'
  ok' := h.ok
  locks := h.locks'
  locks' := h.locks
  shared := h.shared.symm
  calls j hj := (h.calls j hj).symm h.shared.clock.symm
  sweeps k hk := (h.sweeps k hk).symm

/-- A state all of whose calls are at rest. -/
theorem refl (hok : CredentialsOK cfg s) (hl : LocksOK s) (hrest : ∀ j, (s.locals j).AtRest)
    (hE : ∀ k ∈ E, Sweeping s.shared (s.locals k)) : SameButSweeps cfg E s s where
  ok := hok
  ok' := hok
  locks := hl
  locks' := hl
  shared := ⟨rfl, .refl _ _⟩
  calls j _ := by
    have := hrest j
    revert this
    generalize s.locals j = l
    intro hl
    cases l with
    | idle => exact .idle
    | issue user codigo ph => cases ph <;> first | exact hl.elim | exact .issue (.plain trivial)
    | consume jti actor ph => cases ph <;> first | exact hl.elim | exact .consume (.done _)
    | revokeById jti motivo ph => cases ph <;> first | exact hl.elim | exact .revokeById (.done _)
    | detail jti p ph => cases ph <;> first | exact hl.elim | exact .detail (.done rfl)
    | sweep limit ph => cases ph <;> first | exact hl.elim | exact .sweep (.done _ _)
    | mayBeUsable jti ans => exact .mayBeUsable jti ans
  sweeps k hk := ⟨hE k hk, hE k hk⟩

/-- Only the running call can be in its own way. -/
theorem free (h : SameButSweeps cfg E s t) (hrest : ∀ j, j ≠ i → (s.locals j).AtRest)
    (l : Lock) :
    (¬ (s.locals i).MayHold l → s.shared.locks l = none) ∧
      (¬ (t.locals i).MayHold l → t.shared.locks l = none) := by
  refine ⟨h.locks.free fun j hj l' => (hrest j hj).not_mayHold l', h.locks'.free fun j hj l' => ?_⟩
  by_cases hE : j ∈ E
  · exact (h.sweeps j hE).2.not_mayHold l'
  · exact ((h.calls j hE).atRest (hrest j hj)).not_mayHold l'

/-- A visible step is taken in both states. -/
theorem step (h : SameButSweeps cfg E s t) (hone : OneAtATime s a s') (hv : visible E a = true)
    (hrestE : ∀ i b, a = .call i b → ∀ k ∈ E, (t.locals k).AtRest)
    (hst : credentialStep cfg s a = some s') :
    ∃ t', credentialStep cfg t a = some t' ∧ OneAtATime t a t' ∧ SameButSweeps cfg E s' t' := by
  cases a with
  | call i b =>
    have hiE : i ∉ E := of_decide_eq_true hv
    have hrest := hone i b rfl
    obtain ⟨r, hc, hsh, hl, hother⟩ := Program.step_call hst
    obtain ⟨r', hc', ha, hp⟩ := callStep_sim h.ok.1 h.ok'.1 (h.ok.2 i) (h.ok'.2 i) h.shared
      (h.calls i hiE) (fun l => (h.free hrest l).1) (fun l => (h.free hrest l).2) hc
    obtain ⟨t', hst', hsh', hl', hother'⟩ := Program.step_of_call (P := credentialProgram cfg) hc'
    have hrg := credential_relyGuarantee cfg
    refine ⟨t', hst', ?_, hrg.step h.ok hst, hrg.step h.ok' hst', h.locks.step hst,
      h.locks'.step hst', by rw [hsh, hsh']; exact ha, fun j hj => ?_, fun k hk => ?_⟩
    · intro i' b' heq j hj
      cases heq
      by_cases hE : j ∈ E
      · exact hrestE i b rfl j hE
      · exact (h.calls j hE).atRest (hrest j hj)
    · by_cases hji : j = i
      · subst hji
        rw [hl, hl', hsh, hsh']
        exact hp
      · rw [hother j hji, hother' j hji]
        exact ((h.calls j hj).of_rest (hrest j hji)).1
    · have hki : k ≠ i := by rintro rfl; exact hiE hk
      rw [hother k hki, hother' k hki]
      exact ⟨(h.sweeps k hk).1.stable (step_later h.ok hst).1,
        (h.sweeps k hk).2.stable (step_later h.ok' hst').1⟩
  | env e =>
    obtain ⟨x, hx, hsx⟩ := Option.map_eq_some_iff.1 hst
    have hrg := credential_relyGuarantee cfg
    -- both states change alike, and neither tables nor calls do
    obtain ⟨y, hy, ha, ht, ht', hcl, hcl'⟩ : ∃ y, envStep t.shared e = some y ∧ Alike x y ∧
        x.tables = s.shared.tables ∧ y.tables = t.shared.tables ∧ s.shared.clock ≤ x.clock ∧
        t.shared.clock ≤ y.clock := by
      cases e with
      | tick d =>
        cases hx
        refine ⟨_, rfl, ⟨by rw [h.shared.rest], h.shared.view.later ?_⟩, rfl, rfl, ?_, ?_⟩
        all_goals simp only [Instant]; omega
      | others p q =>
        cases hx
        exact ⟨_, rfl, ⟨by rw [h.shared.rest], h.shared.view⟩, rfl, rfl, Int.le_refl _,
          Int.le_refl _⟩
    have hst' : credentialStep cfg t (.env e) = some ⟨y, t.locals⟩ := by
      change (envStep t.shared e).map _ = _
      rw [hy]
      rfl
    subst hsx
    exact ⟨_, hst', fun i b heq => by (cases heq), hrg.step h.ok hst, hrg.step h.ok' hst',
      h.locks.step hst, h.locks'.step hst', ha, fun j hj => (h.calls j hj).stable ht ht' hcl,
      fun k hk => ⟨(h.sweeps k hk).1.stable hcl, (h.sweeps k hk).2.stable hcl'⟩⟩

/-- A step of a sweep is taken in one state. -/
theorem hidden (h : SameButSweeps cfg E s t) (hone : OneAtATime s a s')
    (honly : ∀ k q, k ∈ E → a = .call k (.invoke q) → ∃ limit, q = .sweep limit)
    (hv : visible E a = false) (hst : credentialStep cfg s a = some s') :
    SameButSweeps cfg E s' t := by
  have hrg := credential_relyGuarantee cfg
  cases a with
  | env e => cases hv
  | call k b =>
    have hkE : k ∈ E := by simpa [visible] using hv
    have hrest := hone k b rfl
    obtain ⟨r, hc, hsh, hl, hother⟩ := Program.step_call hst
    have hswept :
        s'.shared = { s.shared with tables := s'.shared.tables, locks := s'.shared.locks } ∧
        SameView s.shared.clock s'.shared.tables s.shared.tables ∧
        Sweeping s'.shared (s'.locals k) := by
      rw [hsh, hl]
      rcases (h.sweeps k hkE).1 with hidle | ⟨limit, ph, hsw, hp⟩
      · rw [hidle] at hc
        cases b with
        | invoke q =>
          obtain ⟨limit, rfl⟩ := honly k q hkE rfl
          cases hc
          exact ⟨rfl, .refl _ _, .inr ⟨limit, .start, rfl, .start⟩⟩
        | next ch => cases hc
      · rw [hsw] at hc
        cases b with
        | invoke q => cases hc
        | next ch =>
          obtain ⟨r', hr', rfl⟩ := Option.map_eq_some_iff.1 hc
          obtain ⟨h1, h2, h3⟩ := sweepStep_view h.ok.1 hp hr'
          exact ⟨h1, h2, .inr ⟨limit, r'.2, rfl, h3⟩⟩
    obtain ⟨heq, hview, hsw⟩ := hswept
    have hclock : s'.shared.clock = s.shared.clock := by rw [heq]
    refine ⟨hrg.step h.ok hst, h.ok', h.locks.step hst, h.locks', ⟨?_, ?_⟩, fun j hj => ?_,
      fun k' hk' => ⟨?_, (h.sweeps k' hk').2⟩⟩
    · rw [h.shared.rest, heq]
    · rw [hclock]
      exact hview.trans h.shared.view
    · have hjk : j ≠ k := by rintro rfl; exact hj hkE
      rw [hother j hjk]
      exact ((h.calls j hj).of_rest (hrest j hjk)).1
    · by_cases hk : k' = k
      · rw [hk]; exact hsw
      · rw [hother k' hk]
        exact (h.sweeps k' hk').1.stable (Int.le_of_eq hclock.symm)

end SameButSweeps

/-! ## Leaving sweeps out -/

theorem CredentialSystem.Initial.locksOK (hs : s.Initial) : LocksOK s := by
  intro l j hl
  rw [hs.2.2.1] at hl
  cases hl

theorem CredentialSystem.Initial.sameButSweeps (hs : s.Initial) : SameButSweeps cfg E s s := by
  refine .refl hs.ok hs.locksOK (fun j => ?_) fun k _ => .inl ?_
  · rw [hs.2.2.2.2]; trivial
  · rw [hs.2.2.2.2]

theorem visible_locals (hv : visible E a = true) (hst : credentialStep cfg s a = some t)
    (hk : k ∈ E) : t.locals k = s.locals k := by
  refine Program.locals_eq (P := credentialProgram cfg) hst fun b hb => ?_
  subst hb
  exact of_decide_eq_true hv hk

/-- A sequential run without its sweeps. -/
theorem run_without (hs : s.Initial) {as : List (Act CallAct EnvAct)}
    (hrun : SequentialRun cfg s as t) (hE : OnlySweeps E as) :
    ∃ t', SequentialRun cfg s (as.filter (visible E)) t' ∧ SameButSweeps cfg E t t' := by
  obtain ⟨t', ht', hone', hsame, -⟩ := run_filter_of_sim (Q := OneAtATime)
    (R := fun u u' => SameButSweeps cfg E u u' ∧ ∀ k ∈ E, (u'.locals k).AtRest)
    (P := fun u a v => OneAtATime u a v ∧ a ∈ as)
    (fun u u' a v hR hP hv hst => by
      obtain ⟨v', hst', hone', hsame⟩ := hR.1.step hP.1 hv (fun _ _ _ => hR.2) hst
      refine ⟨v', hst', hone', hsame, fun k hk => ?_⟩
      rw [visible_locals hv hst' hk]
      exact hR.2 k hk)
    (fun u u' a v hR hP hv hst =>
      ⟨hR.1.hidden hP.1 (fun k q hk ha => hE k q hk (ha ▸ hP.2)) hv hst, hR.2⟩)
    (hrun.2.and fun pre a post u v has _ _ => by rw [has]; simp) hrun.1
    ⟨hs.sameButSweeps, fun k _ => by rw [hs.2.2.2.2]; trivial⟩
  exact ⟨t', ⟨ht', hone'⟩, hsame⟩

/-! ## Putting a sweep in -/

/-- Two states between which only sweeps differ take the same visible steps. -/
theorem SameButSweeps.run {x u v : CredentialSystem} (h : SameButSweeps cfg E x u)
    {as : List (Act CallAct EnvAct)} (hrun : SequentialRun cfg u as v)
    (hvis : ∀ a ∈ as, visible E a = true)
    (hrestE : (∀ k ∈ E, (x.locals k).AtRest) ∨ ∀ a ∈ as, ∃ e, a = .env e) :
    ∃ y, SequentialRun cfg x as y ∧ SameButSweeps cfg E y v ∧
      ∀ k ∈ E, y.locals k = x.locals k := by
  obtain ⟨y, hy, hone', hsame, hloc⟩ := run_filter_of_sim (Q := OneAtATime)
    (R := fun u x' => SameButSweeps cfg E u x' ∧ ∀ k ∈ E, x'.locals k = x.locals k)
    (P := fun u a v => OneAtATime u a v ∧ a ∈ as)
    (fun u x' a v hR hP hv hst => by
      obtain ⟨y, hst', hone', hsame⟩ := hR.1.step hP.1 hv (fun i b hab k hk => by
        rcases hrestE with hrestE | henv
        · rw [hR.2 k hk]; exact hrestE k hk
        · obtain ⟨e, he⟩ := henv a hP.2
          rw [hab] at he
          cases he) hst
      refine ⟨y, hst', hone', hsame, fun k hk => ?_⟩
      rw [visible_locals hv hst' hk]
      exact hR.2 k hk)
    (fun u x' a v hR hP hv hst => absurd (hvis a hP.2) (by simp [hv]))
    (hrun.2.and fun pre a post u v has _ _ => by rw [has]; simp) hrun.1 ⟨h.symm, fun _ _ => rfl⟩
  rw [List.filter_eq_self.2 hvis] at hy hone'
  exact ⟨y, ⟨hy, hone'⟩, hsame.symm, hloc⟩

/-- A step of the sweep that is put in. -/
theorem SameButSweeps.insert {x u : CredentialSystem} (h : SameButSweeps cfg {k} x u)
    (hrest : ∀ j, (u.locals j).AtRest) {b : CallAct} {r : World × Call}
    (hb : ∀ q, b = .invoke q → ∃ limit, q = .sweep limit)
    (hc : callStep cfg k x.shared (x.locals k) b = some r) :
    ∃ y, credentialStep cfg x (.call k b) = some y ∧ OneAtATime x (.call k b) y ∧
      SameButSweeps cfg {k} y u ∧ y.locals k = r.2 := by
  obtain ⟨y, hst, -, hl, -⟩ := Program.step_of_call (P := credentialProgram cfg) hc
  have hone : OneAtATime x (.call k b) y := by
    intro i b' heq j hj
    cases heq
    have := h.symm.calls j (by simpa using hj)
    exact this.atRest (hrest j)
  refine ⟨y, hst, hone, h.hidden hone (fun k' q _ heq => ?_) (by simp [visible]) hst, hl⟩
  cases heq
  exact hb q rfl

/-- Time leaves the calls at rest. -/
theorem env_locals {as : List (Act CallAct EnvAct)} (henv : ∀ a ∈ as, ∃ e, a = .env e)
    (hrun : run (credentialStep cfg) s as = some t) : t.locals = s.locals := by
  induction as generalizing s with
  | nil => cases hrun; rfl
  | cons a as ih =>
    obtain ⟨u, hst, hu⟩ := Option.bind_eq_some_iff.1 hrun
    rw [ih (fun b hb => henv b (by simp [hb])) hu]
    obtain ⟨e, rfl⟩ := henv a (by simp)
    obtain ⟨x, -, rfl⟩ := Option.map_eq_some_iff.1 hst
    rfl

/-- A call that takes no step. -/
theorem run_locals {as : List (Act CallAct EnvAct)} (hk : ∀ b, .call k b ∉ as)
    (hrun : run (credentialStep cfg) s as = some t) : t.locals k = s.locals k := by
  induction as generalizing s with
  | nil => cases hrun; rfl
  | cons a as ih =>
    obtain ⟨u, hst, hu⟩ := Option.bind_eq_some_iff.1 hrun
    rw [ih (fun b hb => hk b (by simp [hb])) hu]
    refine Program.locals_eq (P := credentialProgram cfg) hst fun b hb => ?_
    exact hk b (by simp [hb])

/-- A sequential run with a sweep put in at a point at which all calls are at rest; time may pass
while it sweeps. -/
theorem run_with (hs : s.Initial) {pre mid mid' post : List (Act CallAct EnvAct)}
    (hrun : SequentialRun cfg s (pre ++ mid ++ mid' ++ post) t)
    (hrest : ∀ u, run (credentialStep cfg) s pre = some u → ∀ j, (u.locals j).AtRest)
    (hmid : ∀ a ∈ mid, ∃ e, a = .env e) (hmid' : ∀ a ∈ mid', ∃ e, a = .env e)
    (hk : ∀ b, .call k b ∉ pre ++ mid ++ mid' ++ post) (limit : Nat) (ch ch' : Choice) :
    ∃ t', SequentialRun cfg s (pre ++ .call k (.invoke (.sweep limit)) :: mid ++
        .call k (.next ch) :: mid' ++ .call k (.next ch') :: post) t' ∧
      SameButSweeps cfg {k} t' t := by
  have hvis : ∀ {as : List (Act CallAct EnvAct)}, (∀ b, .call k b ∉ as) →
      ∀ a ∈ as, visible {k} a = true := by
    intro as hno a ha
    cases a with
    | call i b => simpa [visible] using fun hik : i = k => hno b (hik ▸ ha)
    | env e => rfl
  -- the four parts of the run, with all calls at rest between them
  obtain ⟨u₃, h₃, hpost⟩ := hrun.split
  obtain ⟨u₂, h₂, hrun₂⟩ := h₃.split
  obtain ⟨u₁, h₁, hrun₁⟩ := h₂.split
  have hrest₁ := hrest u₁ h₁.1
  have hrest₂ : ∀ j, (u₂.locals j).AtRest := by rw [env_locals hmid hrun₁.1]; exact hrest₁
  have hrest₃ : ∀ j, (u₃.locals j).AtRest := by rw [env_locals hmid' hrun₂.1]; exact hrest₂
  have hidle : u₁.locals k = .idle := by
    rw [run_locals (fun b hb => hk b (by simp [hb])) h₁.1, hs.2.2.2.2]
  have hsame : SameButSweeps cfg {k} u₁ u₁ :=
    .refl ((credential_relyGuarantee cfg).run hs.ok h₁.1)
      (run_invariant (fun _ _ _ hl hst => hl.step hst) h₁.1 hs.locksOK) hrest₁
      fun k' hk' => .inl (by rw [Finset.mem_singleton.1 hk', hidle])
  -- the steps of the sweep between them
  obtain ⟨x₁, hx₁, hone₁, hs₁, hl₁⟩ := hsame.insert hrest₁ (b := .invoke (.sweep limit))
    (fun q hq => by cases hq; exact ⟨limit, rfl⟩) (by rw [hidle]; rfl)
  obtain ⟨y₁, hy₁, hsy₁, hly₁⟩ := hs₁.run hrun₁ (hvis fun b hb => hk b (by simp [hb])) (.inr hmid)
  have hstart : y₁.locals k = .sweep limit .start := by
    rw [hly₁ k (by simp), hl₁]
    rfl
  obtain ⟨x₂, hx₂, hone₂, hs₂, hl₂⟩ := hsy₁.insert hrest₂ (b := .next ch)
    (fun q hq => by cases hq) (by rw [hstart]; rfl)
  obtain ⟨y₂, hy₂, hsy₂, hly₂⟩ := hs₂.run hrun₂ (hvis fun b hb => hk b (by simp [hb])) (.inr hmid')
  have hread : ∃ now, y₂.locals k = .sweep limit (.read now) := ⟨_, by rw [hly₂ k (by simp), hl₂]⟩
  obtain ⟨now, hread⟩ := hread
  have hdone : ∃ w' q, callStep cfg k y₂.shared (y₂.locals k) (.next ch') =
      some (w', .sweep limit (.done q)) := by
    rw [hread]
    simp only [callStep, sweepStep]
    split <;> exact ⟨_, _, rfl⟩
  obtain ⟨w', q, hdone⟩ := hdone
  obtain ⟨x₃, hx₃, hone₃, hs₃, hl₃⟩ := hsy₂.insert hrest₃ (b := .next ch')
    (fun q hq => by cases hq) hdone
  obtain ⟨y₃, hy₃, hsy₃, -⟩ := hs₃.run hpost (hvis fun b hb => hk b (by simp [hb]))
    (.inl fun k' hk' => by rw [Finset.mem_singleton.1 hk', hl₃]; trivial)
  exact ⟨y₃, ((h₁.append (.cons hx₁ hone₁ hy₁)).append (.cons hx₂ hone₂ hy₂)).append
    (.cons hx₃ hone₃ hy₃), hsy₃⟩

/-! ## What a sweep does -/

/-- The live credentials that are due at `now`. -/
def CredentialTables.pastDue (t : CredentialTables) (now : Instant) : List CredencialAccesoRow :=
  t.credenciales.rows.filter fun r => r.estado.live && r.expiraAt ≤ now

/-- As many of the live credentials due at `now` as the limit allows have expired, and no other
credential was touched. -/
def SweptExactly (limit : Nat) (now : Instant) (t t' : CredentialTables) : Prop :=
  ∃ ids : List UUID, ids.Nodup ∧ ids.length = min limit (t.pastDue now).length ∧
    (∀ id ∈ ids, ∃ r ∈ t.pastDue now, r.id = id ∧
      t'.row? id = some { r with estado := .expirada, updatedAt := now } ∧
      t'.history id = t.history id ++
        [⟨some r.estado, .expirada, true, motivoExpiracion, sistema, now⟩]) ∧
    ∀ id, id ∉ ids → t'.row? id = t.row? id ∧ t'.history id = t.history id

/-- A sweep for which no row is held finds as many due credentials as its limit allows. -/
theorem length_expiredLiveForUpdate (t : CredentialTables) (now : Instant) (limit : Nat) :
    (t.expiredLiveForUpdate now limit fun _ => false).length =
      min limit (t.pastDue now).length := by
  unfold expiredLiveForUpdate CredentialTables.pastDue
  rw [List.length_map, List.length_take, List.length_insertionSort]
  simp

/-- **A sweep for which no row is held** expires exactly the due credentials it found. -/
theorem swept_exactly {t : CredentialTables} (ht : TablesOK t) (now : Instant) (limit : Nat) :
    SweptExactly limit now t (t.applyAll
      ((t.expiredLiveForUpdate now limit fun _ => false).map fun c =>
        .save (c.expirar now).2)) := by
  obtain ⟨hs, -⟩ := swept_saved ht now limit fun _ => false
  obtain ⟨hv, hnd⟩ := expiredLiveForUpdate_spec t now limit fun _ => false
  refine ⟨(t.expiredLiveForUpdate now limit fun _ => false).map (·.id), hnd, ?_,
    fun id hid => ?_, fun id hid => ?_⟩
  · rw [List.length_map, length_expiredLiveForUpdate]
  · obtain ⟨c, hc, rfl⟩ := List.mem_map.1 hid
    obtain ⟨hrow, hpend, hlive, hdue, -⟩ := hv c hc
    have hmem := List.mem_map_of_mem (f := fun c => (c.expirar now).2) hc
    have hcan : (stateFor c.estado).canTransitionTo .expirada = true := by
      revert hlive
      cases c.estado <;> decide
    refine ⟨c.toCredencialAccesoRow, ?_, rfl, ?_, ?_⟩
    · exact List.mem_filter.2 ⟨mem_rows.2 hrow, by simp [hlive, hdue]⟩
    · rw [show c.id = (c.expirar now).2.id from rfl, hs.row _ hmem]
      simp [expirar, transition, hcan]
    · rw [show c.id = (c.expirar now).2.id from rfl, hs.history _ hmem]
      simp [expirar, transition, hcan, hpend]
  · refine hs.other id fun c hc he => hid ?_
    obtain ⟨a, ha, rfl⟩ := List.mem_map.1 hc
    exact List.mem_map.2 ⟨a, ha, he⟩

/-- The transaction of a sweep in a sequential run. -/
theorem sweep_step (hok : CredentialsOK cfg s) (hl : LocksOK s) {limit : Nat} {now : Instant}
    (hone : OneAtATime s (.call k (.next ch)) t)
    (hst : credentialStep cfg s (.call k (.next ch)) = some t)
    (hread : s.locals k = .sweep limit (.read now)) (hskip : ch.skip = []) :
    (ch.commits = true → SweptExactly limit now s.shared.tables t.shared.tables ∧
      t.locals k =
        .sweep limit (.done (.ok (min limit (s.shared.tables.pastDue now).length)))) ∧
    (ch.commits = false → t.shared.tables = s.shared.tables ∧
      t.locals k = .sweep limit (.done (.error .database))) := by
  obtain ⟨r, hc, hsh, hlk, -⟩ := Program.step_call hst
  rw [hread] at hc
  obtain ⟨r', hr', rfl⟩ := Option.map_eq_some_iff.1 hc
  have hfree : (fun id => s.shared.locks (.credencial id) ≠ none || ch.skip.contains id) =
      fun _ => false := by
    funext id
    have : s.shared.locks (.credencial id) = none :=
      hl.free (i := k) (fun j hj l => (hone k _ rfl j hj).not_mayHold l)
        (by rw [hread]; exact fun h => h.elim)
    simp [this, hskip]
  simp only [sweepStep] at hr'
  rw [hfree] at hr'
  constructor
  · intro hcom
    rw [if_pos hcom] at hr'
    cases hr'
    refine ⟨?_, ?_⟩
    · rw [hsh]
      exact swept_exactly hok.1.tables now limit
    · rw [hlk, length_expiredLiveForUpdate]
  · intro hcom
    simp only [hcom, Bool.false_eq_true, if_false] at hr'
    cases hr'
    exact ⟨by rw [hsh], hlk⟩

/-! ## The sweep is invisible -/

/-- **Lazy and swept expiry agree.** From a run in which one call at a time takes steps any of the
sweeps can be left out, and a sweep can be put in wherever all calls are at rest, with time passing
while it sweeps or not: it is again such a run, and the other calls that are over have returned the
same, up to the instants of expiries. A sweep that commits, while nobody else holds rows, expires as
many live credentials that are due as its limit allows, and touches no other; one that fails touches
none. -/
theorem sweeps_invisible {cfg : PassSettings} {s t : CredentialSystem}
    {as : List (Act CallAct EnvAct)} (hs : s.Initial) (hrun : SequentialRun cfg s as t) :
    (∀ E, OnlySweeps E as → ∃ t', SequentialRun cfg s (as.filter (visible E)) t' ∧
      ∀ j, j ∉ E → (t.locals j).AtRest → (t.locals j).SameAnswer (t'.locals j)) ∧
    (∀ pre mid mid' post, as = pre ++ mid ++ mid' ++ post →
      (∀ u, run (credentialStep cfg) s pre = some u → ∀ j, (u.locals j).AtRest) →
      (∀ a ∈ mid, ∃ e, a = .env e) → (∀ a ∈ mid', ∃ e, a = .env e) →
      ∀ k, (∀ b, .call k b ∉ as) → ∀ limit ch ch',
        ∃ t', SequentialRun cfg s (pre ++ .call k (.invoke (.sweep limit)) :: mid ++
            .call k (.next ch) :: mid' ++ .call k (.next ch') :: post) t' ∧
          ∀ j, j ≠ k → (t.locals j).AtRest → (t.locals j).SameAnswer (t'.locals j)) ∧
    ∀ pre k ch post u v limit now, as = pre ++ .call k (.next ch) :: post →
      run (credentialStep cfg) s pre = some u →
      credentialStep cfg u (.call k (.next ch)) = some v →
      u.locals k = .sweep limit (.read now) → ch.skip = [] →
      (ch.commits = true → SweptExactly limit now u.shared.tables v.shared.tables ∧
        v.locals k =
          .sweep limit (.done (.ok (min limit (u.shared.tables.pastDue now).length)))) ∧
      (ch.commits = false → v.shared.tables = u.shared.tables ∧
        v.locals k = .sweep limit (.done (.error .database))) := by
  refine ⟨fun E hE => ?_, ?_, ?_⟩
  · obtain ⟨t', hrun', hsame⟩ := run_without hs hrun hE
    exact ⟨t', hrun', fun j hj hrest => (hsame.calls j hj).sameAnswer hrest⟩
  · rintro pre mid mid' post rfl hrest hmid hmid' k hk limit ch ch'
    obtain ⟨t', hrun', hsame⟩ := run_with hs hrun hrest hmid hmid' hk limit ch ch'
    exact ⟨t', hrun', fun j hj hrest => (hsame.symm.calls j (by simpa using hj)).sameAnswer hrest⟩
  · intro pre k ch post u v limit now has hu hst hread hskip
    exact sweep_step ((credential_relyGuarantee cfg).run hs.ok hu)
      (run_invariant (fun _ _ _ hl hst => hl.step hst) hu hs.locksOK)
      (hrun.2 pre _ post u v has hu hst) hst hread hskip

theorem callThrough_call (i n : Nat) (q : Request) (ch : Choice) :
    ∀ a ∈ callThrough i q n ch, ∃ b, a = .call i b := by
  intro a ha
  rcases List.mem_cons.1 ha with rfl | ha
  · exact ⟨_, rfl⟩
  · exact ⟨_, List.eq_of_mem_replicate ha⟩

/-- Call `i` alone, to its end. -/
theorem SequentialRun.callThrough {n : Nat} {q : Request} {ch : Choice}
    (hrest : ∀ j, (s.locals j).AtRest)
    (hrun : run (credentialStep cfg) s (callThrough i q n ch) = some t)
    (hend : (t.locals i).AtRest) :
    SequentialRun cfg s (Aeropass.callThrough i q n ch) t ∧ ∀ j, (t.locals j).AtRest := by
  obtain ⟨hseq, hother⟩ := SequentialRun.of_call (fun j _ => hrest j) (callThrough_call i n q ch)
    hrun
  refine ⟨hseq, fun j => ?_⟩
  by_cases hj : j = i
  · rw [hj]; exact hend
  · exact hother j hj

/-- A pass is issued and falls due, a sweep expires it, and its owner looks at it. -/
def sweptSample : List (Act CallAct EnvAct) :=
  sampleIssue 0 7 ++ [.env (.tick 31000000)] ++ callThrough 1 (.sweep 5) 2 ++
    callThrough 2 (.detail 7 1) 3

/-- The sample is a sequential run, and its sweep ends. -/
theorem sweptSample_sequential :
    ∃ t, SequentialRun sampleSettings sampleStart sweptSample t ∧ (t.locals 2).AtRest := by
  obtain ⟨u₁, h₁⟩ := Option.isSome_iff_exists.1 (by decide +kernel :
    (run (credentialStep sampleSettings) sampleStart (sampleIssue 0 7)).isSome = true)
  obtain ⟨q₁, hrest₁⟩ := SequentialRun.callThrough
    (show ∀ j, (sampleStart.locals j).AtRest from fun _ => trivial) h₁ (by cases h₁; trivial)
  obtain ⟨u₂, h₂⟩ : ∃ u, run (credentialStep sampleSettings) u₁ [.env (.tick 31000000)] = some u :=
    ⟨_, rfl⟩
  have q₂ : SequentialRun sampleSettings u₁ [.env (.tick 31000000)] u₂ :=
    .cons ((run_singleton _ _).symm.trans h₂)
      (fun i b heq => by cases heq) ⟨rfl, eachStep_nil u₂⟩
  have hrest₂ : ∀ j, (u₂.locals j).AtRest := by cases h₂; exact hrest₁
  obtain ⟨u₃, h₃⟩ := Option.isSome_iff_exists.1 (by cases h₁; cases h₂; decide +kernel :
    (run (credentialStep sampleSettings) u₂ (callThrough 1 (.sweep 5) 2)).isSome = true)
  obtain ⟨q₃, hrest₃⟩ := SequentialRun.callThrough hrest₂ h₃
    (by cases h₁; cases h₂; cases h₃; trivial)
  obtain ⟨t, h₄⟩ := Option.isSome_iff_exists.1 (by cases h₁; cases h₂; cases h₃; decide +kernel :
    (run (credentialStep sampleSettings) u₃ (callThrough 2 (.detail 7 1) 3)).isSome = true)
  obtain ⟨q₄, hrest₄⟩ := SequentialRun.callThrough hrest₃ h₄
    (by cases h₁; cases h₂; cases h₃; cases h₄; trivial)
  exact ⟨t, ((q₁.append q₂).append q₃).append q₄, hrest₄ 2⟩

/-- Without the sweep the owner sees the same. -/
theorem sweeps_invisible_sample :
    ∃ t t', SequentialRun sampleSettings sampleStart sweptSample t ∧
      SequentialRun sampleSettings sampleStart (sweptSample.filter (visible {1})) t' ∧
      (t.locals 2).SameAnswer (t'.locals 2) := by
  obtain ⟨t, hrun, hrest⟩ := sweptSample_sequential
  have honly : OnlySweeps {1} sweptSample := by
    intro k q hk hmem
    rw [Finset.mem_singleton] at hk
    subst hk
    simp only [sweptSample, sampleIssue, callThrough, List.mem_append, List.mem_cons,
      List.mem_replicate] at hmem
    simp_all
  obtain ⟨t', hrun', hsame⟩ := (sweeps_invisible sampleStart_initial hrun).1 {1} honly
  exact ⟨t, t', hrun, hrun', hsame 2 (by simp) hrest⟩

end Aeropass
