import Aeropass.Credentials.Inv

/-!
# The effects of single steps

A step of a call does one of few things to the shared state: it takes or frees row locks, draws an
id, runs a Redis command or commits a unit of work. One lemma per effect says that it keeps the
invariant (`WorldOK`) and what it guarantees to the other calls (`Guar`).
-/

namespace Aeropass

open CredentialTables CredencialAcceso

variable {cfg : PassSettings} {i j : Nat} {w w' : World} {c : CredencialAcceso} {id : UUID}

/-! ## Locks and ids -/

theorem Rely.refl (j : Nat) (w : World) : Rely j w w :=
  .of_tables (Int.le_refl _) rfl rfl (fun _ h => h) fun _ _ => rfl

theorem Guar.refl (i : Nat) (w : World) : Guar i w w := fun j _ => .refl j w

/-- Taking a free lock keeps the locks of every call. -/
theorem Rely.acquire {l : Lock} (hl : w.locks l = none) : Rely j w (w.acquire i l) := by
  refine .of_tables (Int.le_refl _) rfl rfl (fun l' h => ?_) fun _ _ => rfl
  have hne : l' ≠ l := by rintro rfl; rw [hl] at h; cases h
  simpa [World.acquire, Function.update_of_ne hne] using h

theorem acquire_self (w : World) (i : Nat) (l : Lock) : (w.acquire i l).locks l = some i :=
  Function.update_self ..

theorem Guar.acquire {l : Lock} (hl : w.locks l = none) : Guar i w (w.acquire i l) :=
  fun _ _ => .acquire hl

theorem WorldOK.acquire (hw : WorldOK w) (i : Nat) (l : Lock) : WorldOK (w.acquire i l) :=
  hw.of_tables rfl rfl fun _ _ => rfl

theorem release_locks {l : Lock} (hij : j ≠ i) (h : w.locks l = some j) :
    (w.release i).locks l = some j := by
  simp [World.release, h, hij]

/-- Freeing its locks, a call keeps those of the others. -/
theorem Guar.release (i : Nat) (w : World) : Guar i w (w.release i) := fun _ hij =>
  .of_tables (Int.le_refl _) rfl rfl (fun _ => release_locks hij) fun _ _ => rfl

theorem WorldOK.release (hw : WorldOK w) (i : Nat) : WorldOK (w.release i) :=
  hw.of_tables rfl rfl fun _ _ => rfl

/-- Drawing a new id keeps the ids drawn before. -/
theorem Rely.draw (h : w.issuer id = none) :
    Rely j w { w with issuer := Function.update w.issuer id (some i) } := by
  refine .of_tables (Int.le_refl _) rfl rfl (fun _ h => h) fun id' h' => ?_
  have hne : id' ≠ id := by rintro rfl; exact h' h
  exact Function.update_of_ne hne ..

theorem WorldOK.draw (hw : WorldOK w) (h : w.issuer id = none) :
    WorldOK { w with issuer := Function.update w.issuer id (some i) } :=
  hw.of_tables rfl rfl (Rely.draw (j := i) h).issuer

/-! ## Redis -/

/-- A Redis command keeps the invariant and what the other calls rely on, if it changes only the key
of a credential that is not ACTIVA, or not committed and drawn for its own call. -/
theorem redis_ok (hw : WorldOK w) {redis : Redis} {jti : UUID}
    (hother : ∀ id, id ≠ jti → redis id = w.redis id)
    (hkey : (∃ r, w.tables.row? jti = some r ∧ r.estado ≠ .activa) ∨
      w.tables.row? jti = none ∧ w.issuer jti = some i) :
    WorldOK { w with redis } ∧ Guar i w { w with redis } := by
  constructor
  · refine { hw with token := fun {id r} hr ha => ?_ }
    have hr : w.tables.row? id = some r := hr
    obtain ⟨e, he, hv⟩ := hw.token hr ha
    by_cases hid : id = jti
    · subst hid
      rcases hkey with ⟨r', hr', ha'⟩ | ⟨hn, -⟩
      · rw [hr, Option.some.injEq] at hr'
        exact absurd (hr' ▸ ha) ha'
      · rw [hn] at hr; cases hr
    · exact ⟨e, (hother id hid).trans he, hv⟩
  · intro j hij
    refine ⟨.of_tables (Int.le_refl _) rfl (fun _ h => h) fun _ _ => rfl, fun {id} hi hn => ?_⟩
    by_cases hid : id = jti
    · subst hid
      rcases hkey with ⟨r, hr, -⟩ | ⟨-, hi'⟩
      · rw [hn] at hr; cases hr
      · rw [hi, Option.some.injEq] at hi'
        exact absurd hi' hij
    · exact hother id hid

/-- A Redis step keeps what its own call knows of tables, locks and ids. -/
theorem Keeps.redis (j : Nat) (w : World) (redis : Redis) : Keeps j w { w with redis } :=
  .of_tables (Int.le_refl _) rfl (fun _ h => h) fun _ _ => rfl

/-- Deleting or consuming a key touches no other. -/
theorem redis_revoke_other {r : Redis} {fault : RedisFault} {jti : UUID} (h : id ≠ jti) :
    (r.revoke fault jti).2 id = r id := by
  unfold Redis.revoke
  cases fault <;> simp [Function.update_of_ne h]

theorem redis_consume_other {r : Redis} {now : Instant} {fault : RedisFault} {jti : UUID}
    (h : id ≠ jti) : (r.consume now fault jti).2 id = r id := by
  unfold Redis.consume
  dsimp only
  cases fault <;> dsimp only <;> split <;> simp [Function.update_of_ne h]

theorem redis_register_other {r : Redis} {now : Instant} {fault : RedisFault} {jti : UUID}
    {ttl : Int} (h : id ≠ jti) : (r.register now fault jti ttl).2 id = r id := by
  unfold Redis.register
  dsimp only
  cases fault <;> dsimp only <;> split <;> simp [Function.update_of_ne h]

/-- A registration that returns has stored ACTIVA until `ttl` seconds from now. -/
theorem redis_register_ok {r : Redis} {now : Instant} {fault : RedisFault} {jti : UUID} {ttl : Int}
    (h : (r.register now fault jti ttl).1 = true) :
    (r.register now fault jti ttl).2 jti = some ⟨.activa, now + seconds ttl⟩ := by
  unfold Redis.register at h ⊢
  dsimp only at h ⊢
  cases fault with
  | none =>
    dsimp only at h ⊢
    rw [if_pos h, Function.update_self]
  | lost | answerLost => cases h

/-! ## Commits -/

/-- A row that a unit of work of call `i` has inserted. -/
structure NewRow (i : Nat) (w : World) (t : CredentialTables) (id : UUID)
    (r : CredencialAccesoRow) : Prop where
  issuer : w.issuer id = some i
  row : w.tables.row? id = none
  estado : r.estado ≠ .emitida
  codigo : matchCodigoVuelo r.codigoVuelo.toList = true
  lock : w.locks (.pasajero r.pasajeroId) = some i
  alone : ∀ {id' r'}, t.row? id' = some r' → r.estado.live = true → r'.estado.live = true →
    r'.pasajeroId = r.pasajeroId → r'.codigoVuelo = r.codigoVuelo → id' = id
  token : r.estado = .activa → ∃ e, w.redis id = some e ∧ e.valor = .activa ∧ r.expiraAt ≤ e.expira

/-- A row of before, with live states only from live ones. -/
def AgedRow (w : World) (id : UUID) (r : CredencialAccesoRow) : Prop :=
  r.estado ≠ .emitida ∧ ∃ r₀, w.tables.row? id = some r₀ ∧ SameIssue r₀ r ∧
    (r.estado.live = true → r₀.estado.live = true)

/-- What the tables `t` that a unit of work of call `i` commits are to the state before. -/
structure Commits (i : Nat) (w : World) (t : CredentialTables) : Prop where
  ok : TablesOK t
  evolves : Evolves w.tables t
  held : ∀ {id r j}, j ≠ i → w.locks (.credencial id) = some j → w.tables.row? id = some r →
    t.row? id = some r ∧ t.history id = w.tables.history id
  row : ∀ {id r}, t.row? id = some r → AgedRow w id r ∨ NewRow i w t id r

/-- **Commits** keep the invariant and what the other calls rely on. -/
theorem commit_ok (hw : WorldOK w) {t : CredentialTables} (h : Commits i w t) :
    WorldOK { w.release i with tables := t } ∧ Guar i w { w.release i with tables := t } := by
  constructor
  · constructor
    · exact h.ok
    · intro id r hr
      rcases h.row hr with ha | hn
      · exact ha.1
      · exact hn.estado
    · intro id id' r r' hr hr' hl hl' hp hc
      rcases h.row hr with ⟨-, r₀, hr₀, hs, hl₀⟩ | hn
      · rcases h.row hr' with ⟨-, r₀', hr₀', hs', hl₀'⟩ | hn'
        · obtain ⟨-, e2, e3, -⟩ := hs.eqs
          obtain ⟨-, e2', e3', -⟩ := hs'.eqs
          exact hw.unaViva hr₀ hr₀' (hl₀ hl) (hl₀' hl') (by rw [← e2, ← e2', hp])
            (by rw [← e3, ← e3', hc])
        · exact hn'.alone hr hl' hl hp hc
      · exact (hn.alone hr' hl hl' hp.symm hc.symm).symm
    · intro id r hr
      rcases h.row hr with ⟨-, r₀, hr₀, hs, -⟩ | hn
      · rw [hs.eqs.2.2.1]
        exact hw.codigo hr₀
      · exact hn.codigo
    · intro id r hr
      rcases h.row hr with ⟨-, r₀, hr₀, -, -⟩ | hn
      · exact hw.issued hr₀
      · have := hn.issuer
        simp [World.release, this]
    · intro id r hr ha
      rcases h.row hr with ⟨-, r₀, hr₀, hs, hl⟩ | hn
      · have hact : r₀.estado = .activa := by
          have := hl (by rw [ha]; rfl)
          have hne := hw.noEmitida hr₀
          revert this hne
          cases r₀.estado <;> simp [EstadoCredencial.live]
        obtain ⟨e, he, hv, hx⟩ := hw.token hr₀ hact
        exact ⟨e, he, hv, by rw [hs.eqs.2.2.2]; exact hx⟩
      · exact hn.token ha
  · intro j hij
    refine ⟨⟨Int.le_refl _, h.evolves, fun l => release_locks hij, fun hl hr => h.held hij hl hr,
      fun {id r} hr hlive hlock => ?_, fun _ _ => rfl, fun {id} hi hn => ?_⟩, fun _ _ => rfl⟩
    · rcases h.row hr with ⟨-, r₀, hr₀, hs, hl⟩ | hn
      · exact ⟨r₀, hr₀, hl hlive, hs⟩
      · rw [hn.lock, Option.some.injEq] at hlock
        exact absurd hlock.symm hij
    · rw [Option.eq_none_iff_forall_ne_some]
      intro r hr
      rcases h.row hr with ⟨-, r₀, hr₀, -, -⟩ | hnew
      · rw [hn] at hr₀; cases hr₀
      · have := hnew.issuer
        rw [hi, Option.some.injEq] at this
        exact hij this

/-- Rows saved from aggregates that continue them are rows of before. -/
theorem agedRow_of_saved (hw : WorldOK w) {t : CredentialTables} {cs : List CredencialAcceso}
    (hs : Saved w.tables t cs) (hcs : ∀ c ∈ cs, Continues w.tables c)
    (hest : ∀ c ∈ cs, c.estado ≠ .emitida) {r : CredencialAccesoRow} (hr : t.row? id = some r) :
    AgedRow w id r := by
  by_cases hid : ∃ c ∈ cs, c.id = id
  · obtain ⟨c, hc, rfl⟩ := hid
    rw [hs.row c hc, Option.some.injEq] at hr
    subst hr
    obtain ⟨r₀, hr₀, hsame⟩ := (hcs c hc).row
    refine ⟨hest c hc, r₀, hr₀, hsame, fun hlive => ?_⟩
    by_contra hf
    rw [Bool.not_eq_true] at hf
    rw [(hcs c hc).final hw.tables hr₀ hf, hf] at hlive
    cases hlive
  · have := (hs.other id fun c hc he => hid ⟨c, hc, he⟩).1
    rw [this] at hr
    exact ⟨hw.noEmitida hr, r, hr, .refl _, fun h => h⟩

/-- A unit of work that saves aggregates of rows that no other call holds. -/
theorem commits_of_saved (hw : WorldOK w) {t : CredentialTables} {cs : List CredencialAcceso}
    (hs : Saved w.tables t cs) (hcs : ∀ c ∈ cs, Continues w.tables c)
    (hest : ∀ c ∈ cs, c.estado ≠ .emitida)
    (hlock : ∀ c ∈ cs, ∀ j, j ≠ i → w.locks (.credencial c.id) ≠ some j) : Commits i w t where
  ok := hs.ok
  evolves := hs.evolves
  held {id r j} hij hl hr := by
    have := hs.other id fun c hc he => hlock c hc j hij (by rw [he]; exact hl)
    exact ⟨this.1.trans hr, this.2⟩
  row hr := .inl (agedRow_of_saved hw hs hcs hest hr)

/-- The commit of one saved aggregate. -/
theorem commit_save_ok (hw : WorldOK w) (hc : Continues w.tables c) (hest : c.estado ≠ .emitida)
    (hlock : ∀ j, j ≠ i → w.locks (.credencial c.id) ≠ some j) :
    WorldOK (w.commit i [.save c]) ∧ Guar i w (w.commit i [.save c]) ∧
      (w.commit i [.save c]).tables.row? c.id = some c.toCredencialAccesoRow := by
  have hcs : ∀ d ∈ [c], Continues w.tables d := by simpa using hc
  have hs := saves_spec hw.tables (by simp) hcs
  obtain ⟨h1, h2⟩ := commit_ok hw (commits_of_saved hw hs hcs (by simpa using hest)
    (by simpa using hlock))
  exact ⟨h1, h2, hs.row c (by simp)⟩

/-- A call that holds the row may commit its aggregate. -/
theorem Held.commit_ok (hw : WorldOK w) (h : Held i w c) :
    WorldOK (w.commit i [.save c]) ∧ Guar i w (w.commit i [.save c]) ∧
      (w.commit i [.save c]).tables.row? c.id = some c.toCredencialAccesoRow :=
  commit_save_ok hw h.continues h.estado fun j hij hl => by
    rw [h.lock, Option.some.injEq] at hl
    exact hij hl.symm

end Aeropass
