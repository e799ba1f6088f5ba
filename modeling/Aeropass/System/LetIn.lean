import Aeropass.System.Limited

/-!
# Each credential has its hit

A call asks the limiter before its transaction, which may commit much later, or never. What a call
knows of its hit (`Call.LetIn`) the steps of the others keep, so when it commits, its credential has
a hit of its own that was let through before the emission (`LimitedOK.letIn`, `own`).
-/

namespace Aeropass

open CredentialTables CredencialAcceso Runs Threads FakeRateLimiter

variable {cfg : BackendSettings} {s t : LimitedSystem} {t₀ : Instant} {hits : List Hit} {i j : Nat}

/-! ## What the calls know of their hits -/

/-- A hit of call `i` for a passenger was let through, not after an instant. -/
def LetIn (hits : List Hit) (i : Nat) (id : UUID) (now : Instant) : Prop :=
  ∃ h ∈ hits, h.call = i ∧ h.pasajeroId = id ∧ h.allowed = true ∧ h.instante ≤ now

/-- What an `issue` call knows of its hit: there is none before it asks, and one that was let
through while its transaction is under way. -/
def IssuePhase.LetIn (hits : List Hit) (i : Nat) (clock : Instant) : IssuePhase → Prop
  | .start | .validated _ | .found _ _ => ∀ h ∈ hits, h.call ≠ i
  | .admitted _ p | .locked _ p _ => Aeropass.LetIn hits i p.id clock
  | .dated tx | .renewing tx _ | .ready tx | .built tx _ _ | .added tx _ _
  | .registered tx _ _ | .unregistered tx _ => Aeropass.LetIn hits i tx.pasajeroId tx.now
  | .committed _ _ | .done _ => True

/-- What a call knows of its hit. -/
def Call.LetIn (hits : List Hit) (i : Nat) (clock : Instant) : Call → Prop
  | .idle => ∀ h ∈ hits, h.call ≠ i
  | .issue _ _ ph => ph.LetIn hits i clock
  | .consume .. | .revokeById .. | .detail .. | .sweep .. | .mayBeUsable .. => True

/-- An `issue` call that has not inserted its credential. -/
def Call.Inserts : Call → Prop
  | .idle => True
  | .issue _ _ (.committed _ _) | .issue _ _ (.done _) => False
  | .issue _ _ _ => True
  | .consume .. | .revokeById .. | .detail .. | .sweep .. | .mayBeUsable .. => False

/-- No credential has an id that was drawn by call `i`. -/
def NoneOf (i : Nat) (w : World) : Prop :=
  ∀ {id r}, w.tables.row? id = some r → w.issuer id ≠ some i

section
variable {pases : PassSettings} {w : World} {l : Call} {a : CallAct} {r : World × Call} {id : UUID}
  {row : CredencialAccesoRow}

theorem LetIn.mono {now now' : Instant} {more : List Hit} (hle : now ≤ now')
    (h : LetIn hits i id now) : LetIn (hits ++ more) i id now' := by
  obtain ⟨x, hx, hi, hp, hall, hx'⟩ := h
  exact ⟨x, List.mem_append_left more hx, hi, hp, hall, hx'.trans hle⟩

/-- The steps of the others keep what a call knows of its hit. -/
theorem Call.LetIn.stable {clock clock' : Instant} {more : List Hit} (hle : clock ≤ clock')
    (hmore : ∀ h ∈ more, h.call ≠ i) (h : l.LetIn hits i clock) :
    l.LetIn (hits ++ more) i clock' := by
  have hnone : (∀ x ∈ hits, x.call ≠ i) → ∀ x ∈ hits ++ more, x.call ≠ i := fun hn x hx =>
    (List.mem_append.1 hx).elim (hn x) (hmore x)
  cases l with
  | idle => exact hnone h
  | issue user codigo ph =>
    cases ph with
    | start | validated | found => exact hnone h
    | admitted | locked => exact Aeropass.LetIn.mono hle h
    | dated | renewing | ready | built | added | registered | unregistered =>
      exact Aeropass.LetIn.mono (Int.le_refl _) h
    | committed | done => trivial
  | consume | revokeById | detail | sweep | mayBeUsable => trivial

theorem Call.LetIn.later {clock clock' : Instant} (hle : clock ≤ clock')
    (h : l.LetIn hits i clock) : l.LetIn hits i clock' := by
  have hstable := h.stable hle (fun h (hmem : h ∈ []) => absurd hmem List.not_mem_nil)
  rwa [List.append_nil] at hstable

/-- A step of `issue` other than the hit keeps what the call knows of its hit. -/
theorem issueStep_letIn {user codigo : String} {ch : Choice} {ph : IssuePhase}
    {r : World × IssuePhase} (hl : ph.LetIn hits i w.clock) (hne : ∀ c p, ph ≠ .found c p)
    (h : issueStep pases i w user codigo ch ph = some r) : r.2.LetIn hits i w.clock := by
  cases ph with
  | start | validated | locked =>
    simp only [issueStep] at h
    split at h <;> cases h
    all_goals first
      | exact hl
      | trivial
  | found c p => exact absurd rfl (hne c p)
  | admitted c p =>
    simp only [issueStep] at h
    split at h
    · cases h; trivial
    next p' hfind =>
    split at h
    · cases h
    split at h <;> cases h
    · trivial
    · -- the row was read under the passenger's own id
      have hl : LetIn hits i p.id w.clock := hl
      rw [← show p'.id = p.id from Rows.find?_key hfind] at hl
      exact hl
  | added =>
    simp only [issueStep] at h
    split at h <;> cases h <;> exact hl
  | dated tx =>
    simp only [issueStep] at h
    split at h
    · cases h; exact hl
    split at h
    · cases h
    split at h <;> cases h <;> exact hl
  | renewing => cases h; exact hl
  | ready =>
    simp only [issueStep] at h
    split at h
    · cases h
    split at h <;> cases h
    · exact hl
    · trivial
  | built =>
    simp only [issueStep] at h
    split at h <;> cases h
    · trivial
    · exact hl
  | registered =>
    simp only [issueStep] at h
    repeat' split at h
    all_goals (cases h; trivial)
  | unregistered =>
    simp only [issueStep] at h
    split at h <;> cases h <;> trivial
  | committed => cases h; trivial
  | done => cases h

/-- So does every step of a call that asks nothing. -/
theorem callStep_letIn (hl : l.LetIn hits i w.clock)
    (hne : ∀ user codigo c p, l ≠ .issue user codigo (.found c p))
    (h : callStep pases i w l a = some r) : r.2.LetIn hits i r.1.clock := by
  rw [(callStep_reads h).2.2]
  unfold callStep at h
  split at h
  · cases h
    rename_i q
    cases q with
    | issue => exact hl
    | consume | revokeById | detail | sweep | mayBeUsable => trivial
  · obtain ⟨r', hr', rfl⟩ := Option.map_eq_some_iff.1 h
    exact issueStep_letIn hl (fun c p hph => hne _ _ c p (by rw [hph])) hr'
  iterate 4
    · obtain ⟨r', hr', rfl⟩ := Option.map_eq_some_iff.1 h
      trivial
  · cases h
    trivial
  · cases h

/-- What a transaction of `issue` inserts is one credential. -/
theorem IssuePhase.OK.add_unique {ph : IssuePhase} {tx tx' : IssueTx} {c d c' d' : CredencialAcceso}
    (h : ph.OK pases i w) (hph : (∃ token, ph = .registered tx c' token) ∨ ph = .unregistered tx c')
    (hph' : (∃ token, ph = .registered tx' d' token) ∨ ph = .unregistered tx' d')
    (hc : .add c ∈ tx.writes) (hd : .add d ∈ tx'.writes) : c = d := by
  rcases hph with ⟨token, rfl⟩ | rfl
  · obtain ⟨token', hph'⟩ | hph' := hph' <;> cases hph'
    obtain ⟨old, c₀, -, -, -, hw, -⟩ := h
    exact (eq_of_add_mem (hw ▸ hc)).trans (eq_of_add_mem (hw ▸ hd)).symm
  · obtain ⟨token', hph'⟩ | hph' := hph' <;> cases hph'
    obtain ⟨old, c₀, -, -, hw⟩ := h
    exact (eq_of_add_mem (hw ▸ hc)).trans (eq_of_add_mem (hw ▸ hd)).symm

/-- A call that has yet to insert after a step had before, and did not commit. -/
theorem callStep_yet (h : callStep pases i w l a = some r) (hins : r.2.Inserts) :
    l.Inserts ∧ ∀ user codigo ph, l = .issue user codigo ph →
      (∀ tx c token, ph ≠ .registered tx c token) ∧ ∀ tx c, ph ≠ .unregistered tx c := by
  unfold callStep at h
  split at h
  · exact ⟨trivial, fun _ _ _ hl => by cases hl⟩
  · obtain ⟨r', hr', rfl⟩ := Option.map_eq_some_iff.1 h
    rename_i user codigo ph ch
    cases ph with
    | registered =>
      simp only [issueStep] at hr'
      repeat' split at hr'
      all_goals (cases hr'; exact hins.elim)
    | unregistered =>
      simp only [issueStep] at hr'
      split at hr' <;> cases hr' <;> exact hins.elim
    | committed => cases hr'; exact hins.elim
    | done => cases hr'
    | start | validated | found | admitted | locked | dated | renewing | ready | built | added =>
      refine ⟨trivial, fun _ _ _ hl => ?_⟩
      cases hl
      exact ⟨fun _ _ _ hx => by (cases hx), fun _ _ hx => by (cases hx)⟩
  iterate 4
    · obtain ⟨r', hr', rfl⟩ := Option.map_eq_some_iff.1 h
      exact hins.elim
  · cases h
    exact hins.elim
  · cases h

/-- A step of a call leaves the calls of the ids that it finds in the table. -/
theorem callStep_issuer (hw : WorldOK w) (hok : l.OK pases i w)
    (h : callStep pases i w l a = some r) (hid : w.issuer id ≠ none) :
    r.1.issuer id = w.issuer id :=
  -- the guarantee to any other call
  ((callStep_ok hw hok h).2.2 (i + 1) (by omega)).issuer id hid

/-- A credential after a step is one of before, or the one that the transaction of the call
inserts. -/
theorem callStep_inserts (hw : WorldOK w) (hok : l.OK pases i w)
    (h : callStep pases i w l a = some r) (hrow : r.1.tables.row? id = some row) :
    (∃ r₀, w.tables.row? id = some r₀ ∧ SameIssue r₀ row ∧ r.1.issuer id = w.issuer id) ∨
      ∃ user codigo tx c c' ph, l = .issue user codigo ph ∧
        ((∃ token, ph = .registered tx c' token) ∨ ph = .unregistered tx c') ∧
        .add c ∈ tx.writes ∧ id = c.id ∧ row.pasajeroId = tx.pasajeroId ∧
        row.emitidaAt = tx.now ∧ r.1.issuer id = some i := by
  rcases callStep_rows hok h hrow with
    ⟨r₀, hr₀, hs⟩ | ⟨user, codigo, tx, c, c', ph, hl, hph, hadd, hs⟩
  · exact .inl ⟨r₀, hr₀, hs, callStep_issuer hw hok h (hw.issued hr₀)⟩
  · have hok' : ph.OK pases i w := by
      rw [hl] at hok
      exact hok
    obtain ⟨-, hb⟩ := hok'.built_of_add hph hadd
    obtain ⟨e1, e2, -⟩ := hs.eqs
    have e5 : row.emitidaAt = c.emitidaAt := congrArg (·.emitidaAt) hs.symm
    have hid : id = c.id := (row?_id hrow).symm.trans e1
    refine .inr ⟨user, codigo, tx, c, c', ph, hl, hph, hadd, hid, ?_, ?_, ?_⟩
    · rw [e2, hb.pasajero]
    · rw [e5, hb.emitida]
    · rw [callStep_issuer hw hok h] <;> rw [hid, hb.issuer]
      simp

end

/-! ## The invariant -/

/-- What holds of the shared state: the limiter is what its hits have made of it, a call makes one
hit at most, and each credential has one of its own, let through before its emission. -/
structure LimitedOK (t₀ : Instant) (limiter : FakeRateLimiter) (hits : List Hit) (w : World) : Prop
    extends HitsOK limiter hits where
  ordered : hits.Pairwise (·.instante ≤ ·.instante)
  since : ∀ h ∈ hits, t₀ ≤ h.instante ∧ h.instante ≤ w.clock
  start : t₀ ≤ w.clock
  once : hits.Pairwise (·.call ≠ ·.call)
  letIn : ∀ {id r}, w.tables.row? id = some r →
    ∃ i ∈ w.issuer id, LetIn hits i r.pasajeroId r.emitidaAt
  own : ∀ {id id' r r'}, w.tables.row? id = some r → w.tables.row? id' = some r' →
    w.issuer id = w.issuer id' → id = id'

/-- The invariant of the limited backend. -/
structure LimitedInv (t₀ : Instant) (s : LimitedSystem) : Prop where
  shared : LimitedOK t₀ s.shared.limiter s.shared.hits s.backend.credentials.shared
  letIn : ∀ i, ((s.locals i).call).LetIn s.shared.hits i s.shared.backend.out.clock
  none : ∀ i, ((s.locals i).call).Inserts → NoneOf i s.backend.credentials.shared

section
variable {pases : PassSettings} {w w' : World} {l : Call} {a : CallAct} {r : World × Call}
  {limiter : FakeRateLimiter}

/-- A hit of a call that had none keeps the shared invariant. -/
theorem LimitedOK.snoc (h : LimitedOK t₀ limiter hits w) (hfresh : ∀ x ∈ hits, x.call ≠ i)
    {id : UUID} {tripped : Bool} {r : RateLimitResult × FakeRateLimiter}
    (hr : r = FaultInjectingRateLimiter.hit limiter tripped id.str w.clock) :
    LimitedOK t₀ r.2 (hits ++ [⟨i, id, w.clock, tripped, r.1.allowed⟩]) w where
  toHitsOK := h.toHitsOK.snoc i id _ tripped hr
  ordered := by
    rw [List.pairwise_append]
    refine ⟨h.ordered, List.pairwise_singleton .., fun x hx y hy => ?_⟩
    cases List.mem_singleton.1 hy
    exact (h.since x hx).2
  since x hx := by
    rcases List.mem_append.1 hx with hx | hx
    · exact h.since x hx
    · cases List.mem_singleton.1 hx
      exact ⟨h.start, Int.le_refl _⟩
  start := h.start
  once := by
    rw [List.pairwise_append]
    refine ⟨h.once, List.pairwise_singleton .., fun x hx y hy => ?_⟩
    cases List.mem_singleton.1 hy
    exact hfresh x hx
  letIn hrow := by
    obtain ⟨j, hj, hin⟩ := h.letIn hrow
    exact ⟨j, hj, hin.mono (Int.le_refl _)⟩
  own := h.own

/-- So does the time that passes. -/
theorem LimitedOK.later (h : LimitedOK t₀ limiter hits w) (hclock : w.clock ≤ w'.clock)
    (ht : w'.tables = w.tables) (hi : w'.issuer = w.issuer) : LimitedOK t₀ limiter hits w' where
  toHitsOK := h.toHitsOK
  ordered := h.ordered
  since x hx := ⟨(h.since x hx).1, (h.since x hx).2.trans hclock⟩
  start := h.start.trans hclock
  once := h.once
  letIn := by rw [ht, hi]; exact h.letIn
  own := by rw [ht, hi]; exact h.own

/-- A step of a call of the credential services that asks nothing keeps the shared invariant. -/
theorem LimitedOK.call (h : LimitedOK t₀ limiter hits w) (hw : WorldOK w) (hok : l.OK pases i w)
    (hl : l.LetIn hits i w.clock) (hnone : l.Inserts → NoneOf i w)
    (hc : callStep pases i w l a = some r) : LimitedOK t₀ limiter hits r.1 where
  toHitsOK := h.toHitsOK
  ordered := h.ordered
  since := by rw [(callStep_reads hc).2.2]; exact h.since
  start := by rw [(callStep_reads hc).2.2]; exact h.start
  once := h.once
  letIn hrow := by
    rcases callStep_inserts hw hok hc hrow with
      ⟨r₀, hr₀, hs, hi⟩ | ⟨user, codigo, tx, c, c', ph, rfl, hph, -, -, hp, he, hi⟩
    · obtain ⟨j, hj, hin⟩ := h.letIn hr₀
      rw [hi, ← hs]
      exact ⟨j, hj, hin⟩
    · refine ⟨i, hi, ?_⟩
      rw [hp, he]
      rcases hph with ⟨token, rfl⟩ | rfl <;> exact hl
  own {id id' row row'} hrow hrow' hsame := by
    -- the call that commits had no credential yet
    have hfresh : ∀ {user codigo tx c' ph id r₀}, l = .issue user codigo ph →
        ((∃ token, ph = .registered tx c' token) ∨ ph = .unregistered tx c') →
        w.tables.row? id = some r₀ → w.issuer id ≠ some i := by
      rintro user codigo tx c' ph id r₀ rfl hph
      refine hnone ?_
      rcases hph with ⟨token, rfl⟩ | rfl <;> trivial
    rcases callStep_inserts hw hok hc hrow with
      ⟨r₀, hr₀, -, hi⟩ | ⟨user, codigo, tx, c, c', ph, hlc, hph, hadd, hid, -, -, hi⟩ <;>
    rcases callStep_inserts hw hok hc hrow' with
      ⟨r₁, hr₁, -, hi'⟩ | ⟨user', codigo', tx', d, d', ph', hld, hph', hadd', hid', -, -, hi'⟩
    · exact h.own hr₀ hr₁ (hi.symm.trans (hsame.trans hi'))
    · exact absurd (hi.symm.trans (hsame.trans hi')) (hfresh hld hph' hr₀)
    · exact absurd (hi'.symm.trans (hsame.symm.trans hi)) (hfresh hlc hph hr₁)
    · cases hlc
      cases hld
      rw [hid, hid', IssuePhase.OK.add_unique hok hph hph' hadd hadd']

/-- A step leaves a call that has yet to insert without credentials. -/
theorem NoneOf.call (hw : WorldOK w) (hok : l.OK pases i w) (hc : callStep pases i w l a = some r)
    (hins : r.2.Inserts) (hnone : l.Inserts → NoneOf i w) : NoneOf i r.1 := by
  intro id row hrow
  obtain ⟨hyet, hno⟩ := callStep_yet hc hins
  rcases callStep_inserts hw hok hc hrow with
    ⟨r₀, hr₀, -, hi⟩ | ⟨user, codigo, tx, c, c', ph, hl, hph, -⟩
  · rw [hi]
    exact hnone hyet hr₀
  · rcases hph with ⟨token, hph⟩ | hph
    · exact ((hno _ _ _ hl).1 _ _ _ hph).elim
    · exact ((hno _ _ _ hl).2 _ _ hph).elim

/-- What a call inserts is none of the others'. -/
theorem NoneOf.stable (hw : WorldOK w) (hok : l.OK pases i w)
    (hc : callStep pases i w l a = some r) (hij : j ≠ i) (hnone : NoneOf j w) : NoneOf j r.1 := by
  intro id row hrow
  rcases callStep_inserts hw hok hc hrow with
    ⟨r₀, hr₀, -, hi⟩ | ⟨user, codigo, tx, c, c', ph, -, -, -, -, -, -, hi⟩
  · rw [hi]
    exact hnone hr₀
  · rw [hi]
    exact fun h => hij (Option.some.inj h).symm

/-- The environment of the credential services writes neither their tables nor the ids. -/
theorem envStep_tables {e : EnvAct} (h : envStep w e = some w') :
    w'.tables = w.tables ∧ w'.issuer = w.issuer := by
  cases e <;> cases h <;> exact ⟨rfl, rfl⟩

end

/-- A hit. -/
theorem LimitedInv.hit (hs : LimitedInv t₀ s) {user codigo c : String} {p : Pasajero}
    {ph : IssuePhase} {tripped : Bool} {r : RateLimitResult × FakeRateLimiter}
    (hl : s.locals i = .credentials (.issue user codigo (.found c p)))
    (hr : r = FaultInjectingRateLimiter.hit s.shared.limiter tripped p.id.str
      s.shared.backend.out.clock)
    (hlim : t.shared.limiter = r.2)
    (hhits : t.shared.hits =
      s.shared.hits ++ [⟨i, p.id, s.shared.backend.out.clock, tripped, r.1.allowed⟩])
    (ht : t.locals i = .credentials (.issue user codigo ph))
    (hph : ph = .admitted c p ∧ r.1.allowed = true ∨ ∃ e, ph = .done (.error e))
    (hother : ∀ j, j ≠ i → t.locals j = s.locals j)
    (hback : t.shared.backend = s.shared.backend) : LimitedInv t₀ t := by
  have hcred : t.backend.credentials.shared = s.backend.credentials.shared := by
    simp only [BackendSystem.credentials, LimitedSystem.backend, hback]
  have hfresh : ∀ h ∈ s.shared.hits, h.call ≠ i := by
    have := hs.letIn i
    rw [hl] at this
    exact this
  refine ⟨?_, fun j => ?_, fun j => ?_⟩
  · rw [hlim, hhits, hcred]
    exact hs.shared.snoc hfresh hr
  · rw [hhits, hback]
    refine Sys.forall_locals (fun j l => (Service.call l).LetIn _ j _) ?_ hother (fun j hj => ?_) j
    · rw [ht]
      rcases hph with ⟨rfl, hall⟩ | ⟨e, rfl⟩
      · exact ⟨_, List.mem_append_right _ (List.mem_singleton.2 rfl), rfl, rfl, hall, Int.le_refl _⟩
      · trivial
    · refine (hs.letIn j).stable (Int.le_refl _) fun x hx => ?_
      cases List.mem_singleton.1 hx
      exact Ne.symm hj
  · rw [hcred]
    refine Sys.forall_locals (fun j l => (Service.call l).Inserts → NoneOf j _) (fun hins => ?_)
      hother (fun j _ => hs.none j) j
    refine hs.none i ?_
    rw [hl]
    trivial

/-- The step of a call that asks nothing. -/
theorem LimitedInv.call (hs : LimitedInv t₀ s) (hok : CredentialsOK cfg.pases s.backend.credentials)
    {a : CallAct} {r : World × Call}
    (hc : callStep cfg.pases i s.backend.credentials.shared (s.locals i).call a = some r)
    (hask : (s.locals i).asks? = .none) (hlim : t.shared.limiter = s.shared.limiter)
    (hhits : t.shared.hits = s.shared.hits) (hsh : t.backend.credentials.shared = r.1)
    (hi : (t.locals i).call = r.2)
    (hother : ∀ j, j ≠ i → (t.locals j).call = (s.locals j).call) : LimitedInv t₀ t := by
  have hclock : t.shared.backend.out.clock = r.1.clock := congrArg World.clock hsh
  have hsame : r.1.clock = s.shared.backend.out.clock := (callStep_reads hc).2.2
  refine ⟨?_, fun j => ?_, fun j => ?_⟩
  · rw [hlim, hhits, hsh]
    exact hs.shared.call hok.1 (hok.2 i) (hs.letIn i) (hs.none i) hc
  · rw [hhits, hclock]
    by_cases hj : j = i
    · rw [hj, hi]
      refine callStep_letIn (hs.letIn i) (fun user codigo c p hcall => ?_) hc
      unfold Service.call at hcall
      split at hcall
      · next l hl =>
        rw [hl, hcall] at hask
        cases hask
      · cases hcall
      · cases hcall
    · rw [hother j hj, hsame]
      exact hs.letIn j
  · rw [hsh]
    by_cases hj : j = i
    · rw [hj, hi]
      exact fun hins => NoneOf.call hok.1 (hok.2 i) hc hins (hs.none i)
    · rw [hother j hj]
      exact fun hins => NoneOf.stable hok.1 (hok.2 i) hc hj (hs.none j hins)

/-- A step of the backend that asks nothing keeps the invariant: seen by the credential services it
is one of their calls or of their environment. -/
theorem LimitedInv.quiet (hs : LimitedInv t₀ s)
    (hok : CredentialsOK cfg.pases s.backend.credentials) {a : Act ServiceAct Nat}
    (h : backendStep cfg s.backend a = some t.backend)
    (hlim : t.shared.limiter = s.shared.limiter) (hhits : t.shared.hits = s.shared.hits)
    (hask : ∀ i b, a = .call i b → (s.locals i).asks? = .none) : LimitedInv t₀ t := by
  obtain ⟨b, hb, hab⟩ := backendStep_credentials h
  have hlater := step_later hok hb
  rcases Program.step_cases hb with ⟨i, b', r, rfl, hc, hsh, hi, hother⟩ | ⟨e, rfl, he, hl⟩
  · refine hs.call hok hc ?_ hlim hhits hsh hi hother
    cases a with
    | env => cases hab
    | call j a =>
      cases a with
      | registration | verification => cases hab
      | credentials a => cases hab; exact hask _ _ rfl
  · obtain ⟨ht, hi⟩ := envStep_tables he
    have hl : ∀ j, (t.locals j).call = (s.locals j).call := fun j => congrFun hl j
    refine ⟨?_, fun j => ?_, fun j => ?_⟩
    · rw [hlim, hhits]
      exact hs.shared.later hlater.1 ht hi
    · rw [hl, hhits]
      exact (hs.letIn j).later hlater.1
    · rw [hl, NoneOf, ht, hi]
      exact hs.none j

/-- The invariant holds before any hit. -/
theorem LimitedSystem.Initial.inv (h : s.Initial t₀) : LimitedInv t₀ s := by
  obtain ⟨htables, -, -, -, hlocals⟩ := h.backend.credentials
  have hnone : ∀ {id r}, s.backend.credentials.shared.tables.row? id = some r → False := by
    intro id r hr
    rw [htables] at hr
    cases hr
  have hidle : ∀ i, (s.locals i).call = .idle := fun i => congrFun hlocals i
  refine ⟨?_, fun i => ?_, fun i _ _ _ hr => (hnone hr).elim⟩
  · rw [h.limiter, h.hits]
    exact
      { limiter := rfl, counted := fun _ => rfl, ordered := .nil, since := by simp
        start := Int.le_of_eq h.clock.symm, once := .nil
        letIn := fun hr => (hnone hr).elim, own := fun hr => (hnone hr).elim }
  · rw [hidle, h.hits]
    exact fun x hx => absurd hx List.not_mem_nil

theorem LimitedStep.inv (h : LimitedStep cfg s t)
    (hok : CredentialsOK cfg.pases s.backend.credentials) (hs : LimitedInv t₀ s) :
    LimitedInv t₀ t := by
  cases h with
  | hit hl hr hlim hhits ht hph hother _ hback =>
    exact hs.hit hl hr hlim hhits ht hph hother hback
  | quiet hb hlim hhits hask => exact hs.quiet hok hb hlim hhits hask

/-- Reachable states of the limited backend are reachable states of the backend. -/
theorem limited_backend (hs : Reachable (LimitedSystem.Initial t₀) (limitedStep cfg) s) :
    Reachable BackendSystem.Initial (backendStep cfg) s.backend := by
  refine hs.invariant (I := fun s => Reachable BackendSystem.Initial (backendStep cfg) s.backend)
    (fun _ h => .start h.backend) fun s _ t hs hst => ?_
  obtain ⟨a, ha⟩ := (limitedStep_cases hst).backendStep
  exact hs.next ha

theorem limited_inv (hs : Reachable (LimitedSystem.Initial t₀) (limitedStep cfg) s) :
    LimitedInv t₀ s :=
  hs.invariant_of (fun _ h => h.inv) fun _ _ _ hs hinv hst =>
    (limitedStep_cases hst).inv (backend_credentials (limited_backend hs)) hinv

end Aeropass
