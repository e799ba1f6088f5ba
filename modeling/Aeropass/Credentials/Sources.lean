import Aeropass.Credentials.Writes

/-!
# Where a credential comes from

What `issue` has read before it signs: the passenger with a document valid that day, and the ACTIVA
identity of that passenger. Both stay (`SourcesKept`), so whatever a unit of work inserts has them
(`Sourced`), and rows of one issue share them.
-/

namespace Aeropass

open CredentialTables CredencialAcceso

/-- The sources of a credential for the passenger and the identity, emitted at `now`. -/
structure Sourced (w : World) (pasajeroId identidadId : UUID) (now : Instant) : Prop where
  pasajero : ∃ p, w.pasajeros.find? pasajeroId = some p ∧ p.documento.vigenteEn now.date = true
  identidad : ∃ x ∈ w.identidades, x.id = identidadId ∧ x.pasajeroId = pasajeroId ∧
    x.createdAt ≤ now

/-- Passengers keep their document, and identities stay. -/
structure SourcesKept (w w' : World) : Prop where
  pasajeros : ∀ {id p}, w.pasajeros.find? id = some p →
    ∃ p', w'.pasajeros.find? id = some p' ∧ p'.documento = p.documento
  identidades : ∀ x ∈ w.identidades, x ∈ w'.identidades

/-- The sources of an open transaction and of what it inserts. -/
structure IssueTx.Sourced (w : World) (tx : IssueTx) : Prop where
  abierta : Aeropass.Sourced w tx.pasajeroId tx.identidadId tx.now
  adds : ∀ c, Write.add c ∈ tx.writes →
    Aeropass.Sourced w c.pasajeroId c.identidadId c.emitidaAt

/-- What an `issue` call knows of the sources. -/
def IssuePhase.Sourced (w : World) : IssuePhase → Prop
  | .locked _ p x => (∃ r, w.pasajeros.find? p.id = some r ∧ r.documento = p.documento) ∧
    x ∈ w.identidades ∧ x.pasajeroId = p.id
  | .dated tx | .renewing tx _ | .ready tx | .added tx _ _ | .registered tx _ _
  | .unregistered tx _ => tx.Sourced w
  | .built tx c _ => tx.Sourced w ∧ Aeropass.Sourced w c.pasajeroId c.identidadId c.emitidaAt
  | .start | .validated _ | .found .. | .admitted .. | .committed .. | .done _ => True

/-- What a call knows of the sources. -/
def Call.Sourced (w : World) : Call → Prop
  | .issue _ _ ph => ph.Sourced w
  | _ => True

variable {cfg : PassSettings} {i : Nat} {w w' : World} {ch : Choice} {tx : IssueTx}
  {pasajeroId identidadId : UUID} {now : Instant}

/-! ## Stability -/

theorem SourcesKept.of_eq (hp : w'.pasajeros = w.pasajeros) (hi : w'.identidades = w.identidades) :
    SourcesKept w w' where
  pasajeros h := ⟨_, hp ▸ h, rfl⟩
  identidades _ hx := hi ▸ hx

theorem Sourced.stable (hk : SourcesKept w w') (h : Sourced w pasajeroId identidadId now) :
    Sourced w' pasajeroId identidadId now := by
  obtain ⟨⟨p, hp, hv⟩, x, hx, hrest⟩ := h
  obtain ⟨p', hp', hd⟩ := hk.pasajeros hp
  exact ⟨⟨p', hp', hd ▸ hv⟩, x, hk.identidades x hx, hrest⟩

theorem IssueTx.Sourced.stable (hk : SourcesKept w w') (h : tx.Sourced w) : tx.Sourced w' :=
  ⟨h.abierta.stable hk, fun c hc => (h.adds c hc).stable hk⟩

/-- What a call knows of its sources survives the other calls. -/
theorem Call.Sourced.stable (hk : SourcesKept w w') {l : Call} (h : l.Sourced w) :
    l.Sourced w' := by
  cases l with
  | issue user codigoVuelo ph =>
    cases ph with
    | locked codigo p x =>
      obtain ⟨⟨r, hr, hd⟩, hx, hpas⟩ := h
      obtain ⟨r', hr', hd'⟩ := hk.pasajeros hr
      exact ⟨⟨r', hr', hd'.trans hd⟩, hk.identidades x hx, hpas⟩
    | dated | renewing | ready | added | registered | unregistered =>
      exact IssueTx.Sourced.stable hk h
    | built => exact ⟨h.1.stable hk, h.2.stable hk⟩
    | start | validated | found | admitted | committed | done => trivial
  | idle | consume | revokeById | detail | sweep | mayBeUsable => trivial

/-! ## What the calls only read -/

/-- A step that leaves what the credential services only read. -/
def World.Reads (w w' : World) : Prop :=
  w'.pasajeros = w.pasajeros ∧ w'.identidades = w.identidades ∧ w'.clock = w.clock

theorem World.Reads.refl (w : World) : w.Reads w := ⟨rfl, rfl, rfl⟩

/-- `issue` reads passengers and identities. -/
theorem issueStep_reads {user codigoVuelo : String}
    {ph : IssuePhase} {r : World × IssuePhase}
    (h : issueStep cfg i w user codigoVuelo ch ph = some r) : w.Reads r.1 := by
  cases ph with
  | start | validated | found | admitted | locked | renewing | ready | built | added | committed =>
    simp only [issueStep] at h
    repeat' split at h
    all_goals cases h <;> exact ⟨rfl, rfl, rfl⟩
  | dated tx =>
    simp only [issueStep] at h
    split at h
    · cases h; exact .refl w
    · split at h
      · cases h
      · split at h <;> cases h <;> exact ⟨rfl, rfl, rfl⟩
  | registered | unregistered =>
    simp only [issueStep] at h
    repeat' split at h
    all_goals (cases h; exact ⟨rfl, rfl, rfl⟩)
  | done => cases h

/-- The credential services read the passengers, the identities and the clock. -/
theorem callStep_reads {l : Call} {a : CallAct}
    {r : World × Call} (h : callStep cfg i w l a = some r) : w.Reads r.1 := by
  unfold callStep at h
  split at h
  · cases h; exact .refl w
  · obtain ⟨r', hr', rfl⟩ := Option.map_eq_some_iff.1 h
    exact issueStep_reads hr'
  · obtain ⟨r', hr', rfl⟩ := Option.map_eq_some_iff.1 h
    rename_i jti actor ph ch
    cases ph with
    | start | read | marking =>
      simp only [consumeStep] at hr'
      repeat' split at hr'
      all_goals cases hr' <;> exact ⟨rfl, rfl, rfl⟩
    | done => cases hr'
  · obtain ⟨r', hr', rfl⟩ := Option.map_eq_some_iff.1 h
    rename_i jti motivo ph ch
    cases ph with
    | start | locked | refreshed | revoked | forgetting =>
      simp only [revokeStep] at hr'
      repeat' split at hr'
      all_goals cases hr' <;> exact ⟨rfl, rfl, rfl⟩
    | done => cases hr'
  · obtain ⟨r', hr', rfl⟩ := Option.map_eq_some_iff.1 h
    rename_i jti pasajeroId ph ch
    cases ph with
    | start | locked | refreshed =>
      simp only [detailStep] at hr'
      repeat' split at hr'
      all_goals cases hr' <;> exact ⟨rfl, rfl, rfl⟩
    | done => cases hr'
  · obtain ⟨r', hr', rfl⟩ := Option.map_eq_some_iff.1 h
    rename_i limit ph ch
    cases ph with
    | start | read =>
      simp only [sweepStep] at hr'
      repeat' split at hr'
      all_goals (cases hr'; exact ⟨rfl, rfl, rfl⟩)
    | done => cases hr'
  · cases h; exact .refl w
  · cases h

/-! ## Steps of `issue` -/

/-- A credential has the passenger, the identity and the instant that its builder was given. -/
theorem CredencialAccesoBuilder.build_sources {b : CredencialAccesoBuilder} {jti : UUID}
    {c : CredencialAcceso} {token : String} (h : b.build jti = .ok (c, token)) :
    b.pasajeroId = some c.pasajeroId ∧ b.identidadId = some c.identidadId ∧
      b.emitidaAt = some c.emitidaAt := by
  unfold build at h
  split at h
  case h_2 => cases h
  next pasajeroId identidadId codigo ttl signer emitidaAt hp hi _ _ _ he =>
  simp only [bind, Except.bind, pure, Except.pure, throw, throwThe, MonadExceptOf.throw] at h
  split at h
  · cases h
  split at h
  · cases h
  split at h
  · cases h
  split at h
  case h_2 => cases h
  split at h
  · cases h
  cases h
  exact ⟨hp, hi, he⟩

/-- A transaction that saves more keeps its sources. -/
theorem IssueTx.Sourced.save (h : tx.Sourced w) (c : CredencialAcceso) (f : Option UUID) :
    IssueTx.Sourced w { tx with writes := tx.writes ++ [.save c], forget := f } := by
  refine ⟨h.abierta, fun d hd => h.adds d ?_⟩
  rcases List.mem_append.1 hd with hd | hd
  · exact hd
  · cases List.mem_singleton.1 hd

/-- One step of `issue` keeps what it knows of the sources. -/
theorem issueStep_sourced {user codigoVuelo : String} {ph : IssuePhase} {r : World × IssuePhase}
    (hx : ∀ x ∈ w.identidades, x.createdAt ≤ w.clock) (hl : ph.Sourced w)
    (h : issueStep cfg i w user codigoVuelo ch ph = some r) : r.2.Sourced w := by
  cases ph with
  | start =>
    simp only [issueStep] at h
    split at h <;> cases h <;> trivial
  | validated codigo =>
    simp only [issueStep] at h
    split at h <;> cases h <;> trivial
  | found codigo p =>
    simp only [issueStep] at h
    split at h <;> cases h <;> trivial
  | admitted codigo p =>
    simp only [issueStep] at h
    split at h
    · cases h; trivial
    next r₀ hfind =>
    split at h
    · cases h
    split at h
    · cases h; trivial
    next x hact =>
    cases h
    have hmem := List.mem_of_find?_eq_some hact
    have hpas := List.find?_some hact
    simp only [Bool.and_eq_true, decide_eq_true_eq] at hpas
    have hid : r₀.id = p.id := Rows.find?_key hfind
    exact ⟨⟨r₀, by rw [← hid] at hfind; exact hfind, rfl⟩, hmem, hpas.1.trans hid.symm⟩
  | locked codigo p x =>
    obtain ⟨⟨r₀, hfind, hd⟩, hmem, hpas⟩ := hl
    simp only [issueStep] at h
    split at h <;> cases h
    · next hv =>
      refine ⟨⟨⟨r₀, hfind, hd ▸ hv⟩, x, hmem, rfl, hpas, hx x hmem⟩, fun c hc => ?_⟩
      cases hc
    · trivial
  | dated tx =>
    simp only [issueStep] at h
    split at h
    · cases h; exact hl
    split at h
    · cases h
    split at h <;> cases h
    · exact IssueTx.Sourced.save hl _ tx.forget
    · exact hl
  | renewing tx anterior =>
    cases h
    exact IssueTx.Sourced.save hl _ _
  | ready tx =>
    simp only [issueStep] at h
    split at h
    · cases h
    split at h <;> cases h
    · next c token hb =>
      obtain ⟨hp, hi, hn⟩ := CredencialAccesoBuilder.build_sources hb
      refine ⟨hl, ?_⟩
      rw [← Option.some.inj hp, ← Option.some.inj hi, ← Option.some.inj hn]
      exact hl.abierta
    · trivial
  | built tx c token =>
    simp only [issueStep] at h
    split at h <;> cases h
    · trivial
    · refine ⟨hl.1.abierta, fun d hd => ?_⟩
      rcases List.mem_append.1 hd with hd | hd
      · exact hl.1.adds d hd
      · cases List.mem_singleton.1 hd
        exact hl.2
  | added tx c token =>
    simp only [issueStep] at h
    split at h <;> cases h
    · exact IssueTx.Sourced.save hl _ tx.forget
    · exact IssueTx.Sourced.save hl _ tx.forget
  | registered tx c token =>
    simp only [issueStep] at h
    repeat' split at h
    all_goals (cases h; trivial)
  | unregistered tx c =>
    simp only [issueStep] at h
    split at h <;> cases h <;> trivial
  | committed jti pass => cases h; trivial
  | done => cases h

/-- One step of a call keeps what it knows of the sources. -/
theorem callStep_sourced {l : Call} {a : CallAct} {r : World × Call}
    (hx : ∀ x ∈ w.identidades, x.createdAt ≤ w.clock) (hl : l.Sourced w)
    (h : callStep cfg i w l a = some r) : r.2.Sourced r.1 := by
  unfold callStep at h
  split at h
  · next q =>
    cases h
    cases q <;> trivial
  · obtain ⟨r', hr', rfl⟩ := Option.map_eq_some_iff.1 h
    obtain ⟨hp, hi, -⟩ := issueStep_reads hr'
    exact Call.Sourced.stable (l := .issue _ _ r'.2) (.of_eq hp hi) (issueStep_sourced hx hl hr')
  · obtain ⟨r', hr', rfl⟩ := Option.map_eq_some_iff.1 h
    trivial
  · obtain ⟨r', hr', rfl⟩ := Option.map_eq_some_iff.1 h
    trivial
  · obtain ⟨r', hr', rfl⟩ := Option.map_eq_some_iff.1 h
    trivial
  · obtain ⟨r', hr', rfl⟩ := Option.map_eq_some_iff.1 h
    trivial
  · cases h; trivial
  · cases h

/-! ## What a unit of work leaves -/

/-- A row after a unit of work is of the issue of a row of before, or of one it inserted. -/
theorem row?_applyAll_issue {t : CredentialTables} {ws : List Write} {id : UUID}
    {r : CredencialAccesoRow} (h : (t.applyAll ws).row? id = some r) :
    (∃ r₀, t.row? id = some r₀ ∧ SameIssue r₀ r) ∨
      ∃ c, .add c ∈ ws ∧ SameIssue c.toCredencialAccesoRow r := by
  induction ws generalizing t with
  | nil => exact .inl ⟨r, h, .refl r⟩
  | cons x ws ih =>
    rcases ih (t := t.write x) h with ⟨r₁, hr₁, hs⟩ | ⟨c, hc, hs⟩
    · cases x with
      | save c =>
        rw [row?_save] at hr₁
        split at hr₁
        · obtain ⟨r₀, hr₀, rfl⟩ := Option.map_eq_some_iff.1 hr₁
          have hsave : SameIssue r₀ (saveRow c r₀) := rfl
          exact .inl ⟨r₀, hr₀, hsave.trans hs⟩
        · exact .inl ⟨r₁, hr₁, hs⟩
      | add c =>
        cases hfree : t.row? c.id with
        | none =>
          rw [row?_add hfree] at hr₁
          split at hr₁
          · cases hr₁
            exact .inr ⟨c, List.mem_cons_self, hs⟩
          · exact .inl ⟨r₁, hr₁, hs⟩
        | some r₀ =>
          have hsame : (t.write (.add c)).row? id = t.row? id := by
            have hins : t.credenciales.insert? c.toCredencialAccesoRow = none := by
              rw [Option.eq_none_iff_forall_ne_some]
              intro t' ht'
              have hnone := (Rows.insert?_eq_some.1 ht').1
              rw [show t.credenciales.find? c.id = some r₀ from hfree] at hnone
              cases hnone
            simp only [row?, write, flushTransitions, hins, Option.getD_none]
          exact .inl ⟨r₁, hsame ▸ hr₁, hs⟩
    · exact .inr ⟨c, List.mem_cons_of_mem _ hc, hs⟩

/-- What a call commits it inserts from an open transaction of `issue`. -/
theorem mem_commits_add {l : Call} {c : CredencialAcceso} (hl : l.OK cfg i w)
    (h : .add c ∈ l.commits w ch) :
    ∃ user codigoVuelo tx c' ph, l = .issue user codigoVuelo ph ∧ .add c ∈ tx.writes ∧
      ((∃ token, ph = .registered tx c' token) ∨ ph = .unregistered tx c') := by
  unfold Call.commits at h
  split at h
  · next tx c' token =>
    split at h
    · exact ⟨_, _, tx, c', _, rfl, h, .inl ⟨token, rfl⟩⟩
    · cases h
  · next tx c' =>
    split at h
    · exact ⟨_, _, tx, c', _, rfl, h, .inr rfl⟩
    · cases h
  · split at h
    · split at h
      · cases List.mem_singleton.1 h
      · cases h
    · cases h
  · split at h
    · cases List.mem_singleton.1 h
    · cases h
  · split at h
    · obtain ⟨-, -, -, rfl | ⟨rfl, -⟩⟩ := hl
      · cases List.mem_singleton.1 h
      · cases h
    · cases h
  · split at h
    · obtain ⟨d, -, hd⟩ := List.mem_map.1 h
      cases hd
    · cases h
  · cases h

/-- A row after a step of the credential services is of the issue of a row of before, or of a
credential that an open transaction of `issue` inserts. -/
theorem callStep_rows {l : Call} {a : CallAct} {r : World × Call} (hok : l.OK cfg i w)
    (h : callStep cfg i w l a = some r) {id : UUID} {row : CredencialAccesoRow}
    (hrow : r.1.tables.row? id = some row) :
    (∃ r₀, w.tables.row? id = some r₀ ∧ SameIssue r₀ row) ∨
      ∃ user codigoVuelo tx c c' ph, l = .issue user codigoVuelo ph ∧
        ((∃ token, ph = .registered tx c' token) ∨ ph = .unregistered tx c') ∧
        .add c ∈ tx.writes ∧ SameIssue c.toCredencialAccesoRow row := by
  cases a with
  | invoke q =>
    refine .inl ⟨row, ?_, .refl row⟩
    cases l with
    | idle => cases h; exact hrow
    | issue | consume | revokeById | detail | sweep => cases h
    | mayBeUsable jti ans => cases ans <;> cases h
  | next ch =>
    rw [(callStep_wrote h).1] at hrow
    rcases row?_applyAll_issue hrow with hold | ⟨c, hmem, hs⟩
    · exact .inl hold
    · obtain ⟨user, codigo, tx, c', ph, rfl, hadd, hph⟩ := mem_commits_add hok hmem
      exact .inr ⟨user, codigo, tx, c, c', ph, rfl, hph, hadd, hs⟩

end Aeropass
