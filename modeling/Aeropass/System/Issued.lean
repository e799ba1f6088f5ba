import Aeropass.System.LetIn

/-!
# The limiter bounds what is issued

Credentials of a passenger have hits of their own, so what the limiter lets through bounds what a
passenger is issued, however the calls interleave between their hit and their commit.
-/

namespace Aeropass

open CredentialTables CredencialAcceso Runs Threads FakeRateLimiter

variable {cfg : BackendSettings} {s : LimitedSystem} {t₀ : Instant}

/-! ## What a passenger is issued -/

theorem mem_passesOf {w : LimitedWorld} {id : UUID} {r : CredencialAccesoRow} :
    r ∈ w.passesOf id ↔ w.backend.tables.row? r.id = some r ∧ r.pasajeroId = id := by
  rw [LimitedWorld.passesOf, List.mem_filter, decide_eq_true_iff, mem_rows]

/-- The hit of a credential. -/
theorem LimitedInv.hitOf (hs : LimitedInv t₀ s) {id : UUID} {r : CredencialAccesoRow}
    (hr : r ∈ s.shared.passesOf id) : ∃ h, s.shared.hitOf r = some h ∧ h ∈ s.shared.hits ∧
      s.shared.backend.issuer r.id = some h.call ∧ h.pasajeroId = id ∧ h.allowed = true ∧
      h.instante ≤ r.emitidaAt := by
  obtain ⟨hrow, hid⟩ := mem_passesOf.1 hr
  obtain ⟨i, hi, h, hmem, hcall, hp, hall, hle⟩ := hs.shared.letIn hrow
  have hi : s.shared.backend.issuer r.id = some i := hi
  obtain ⟨h', hfind⟩ : ∃ h', s.shared.hits.find? (fun h => h.call = i) = some h' :=
    Option.isSome_iff_exists.1 (List.find?_isSome.2 ⟨h, hmem, decide_eq_true hcall⟩)
  have hcall' : h'.call = i := by simpa using List.find?_some hfind
  -- the call made one hit
  have heq : h' = h := List.inj_on_of_nodup_map (List.pairwise_map.2 hs.shared.once)
    (List.mem_of_find?_eq_some hfind) hmem (hcall'.trans hcall.symm)
  refine ⟨h, ?_, hmem, by rw [hi, hcall], hp.trans hid, hall, hle⟩
  rw [LimitedWorld.hitOf, hi, Option.bind_some, hfind, heq]

/-- No two credentials have one hit. -/
theorem LimitedInv.hitOf_inj (hs : LimitedInv t₀ s) {id : UUID} {r r' : CredencialAccesoRow}
    (hr : r ∈ s.shared.passesOf id) (hr' : r' ∈ s.shared.passesOf id)
    (hsame : s.shared.hitOf r = s.shared.hitOf r') : r = r' := by
  obtain ⟨h, hh, -, hi, -⟩ := hs.hitOf hr
  obtain ⟨h', hh', -, hi', -⟩ := hs.hitOf hr'
  rw [hh, hh'] at hsame
  cases hsame
  have hrow := (mem_passesOf.1 hr).1
  have hrow' := (mem_passesOf.1 hr').1
  have hid := hs.shared.own hrow hrow' (hi.trans hi'.symm)
  rw [hid, hrow'] at hrow
  exact (Option.some.inj hrow).symm

/-- The credentials of a passenger are no more than the hits for it. -/
theorem LimitedInv.length_passesOf (hs : LimitedInv t₀ s) (id : UUID) (P : Hit → Bool) :
    ((s.shared.passesOf id).filter fun r => (s.shared.hitOf r).any P).length ≤
      (s.shared.hits.filter fun h => h.pasajeroId = id ∧ h.allowed ∧ P h).length := by
  have hnodup : (((s.shared.passesOf id).filter fun r => (s.shared.hitOf r).any P).map
      s.shared.hitOf).Nodup := by
    refine List.Nodup.map_on (fun r hr r' hr' => hs.hitOf_inj (List.mem_filter.1 hr).1
      (List.mem_filter.1 hr').1) ?_
    exact ((s.shared.backend.tables.credenciales.nodup.of_map _).filter _).filter _
  have hsub : ((s.shared.passesOf id).filter fun r => (s.shared.hitOf r).any P).map
      s.shared.hitOf ⊆
        (s.shared.hits.filter fun h => h.pasajeroId = id ∧ h.allowed ∧ P h).map some := by
    intro x hx
    obtain ⟨r, hr, rfl⟩ := List.mem_map.1 hx
    obtain ⟨hr, hP⟩ := List.mem_filter.1 hr
    obtain ⟨h, hh, hmem, -, hp, hall, -⟩ := hs.hitOf hr
    rw [hh] at hP ⊢
    exact List.mem_map_of_mem (List.mem_filter.2 ⟨hmem, by simpa using ⟨hp, hall, hP⟩⟩)
  have hle := (List.subperm_of_subset hnodup hsub).length_le
  simpa using hle

/-- The credentials of a passenger whose hits the limiter let through are no more than what it let
through. -/
theorem LimitedInv.length_counted (hs : LimitedInv t₀ s) (id : UUID) (P : Instant → Bool) :
    ((s.shared.passesOf id).filter fun r =>
        (s.shared.hitOf r).any fun h => h.counted && P h.instante).length ≤
      ((countedOf id.str s.shared.hits).filter P).length := by
  refine (hs.length_passesOf id _).trans ?_
  rw [countedOf, List.filter_map, List.length_map, List.filter_filter]
  simp only [← List.countP_eq_length_filter]
  refine List.countP_mono_left fun h _ hh => ?_
  simp only [Function.comp_apply, Bool.and_eq_true, decide_eq_true_eq] at hh ⊢
  obtain ⟨rfl, -, hc, hP⟩ := hh
  exact ⟨hP, rfl, hc⟩

/-- The other credentials are no more than the hits that failed open. -/
theorem LimitedInv.length_tripped (hs : LimitedInv t₀ s) (id : UUID) :
    ((s.shared.passesOf id).filter fun r => !(s.shared.hitOf r).any Hit.counted).length ≤
      (s.shared.hits.filter fun h => h.pasajeroId = id ∧ h.tripped).length := by
  have hopen : ((s.shared.passesOf id).filter fun r => !(s.shared.hitOf r).any Hit.counted) =
      (s.shared.passesOf id).filter fun r => (s.shared.hitOf r).any (·.tripped) := by
    refine List.filter_congr fun r hr => ?_
    obtain ⟨h, hh, -, -, -, hall, -⟩ := hs.hitOf hr
    simp [hh, Hit.counted, hall]
  rw [hopen]
  refine (hs.length_passesOf id _).trans ?_
  simp only [← List.countP_eq_length_filter]
  refine List.countP_mono_left fun h _ hh => ?_
  simp only [decide_eq_true_eq] at hh ⊢
  exact ⟨hh.1, hh.2.2⟩

/-- **The limiter bounds what is issued.** In every reachable state each credential of a passenger
has a hit of its own, which was let through before its emission. In any half-open minute the limiter
let through the hits of at most 30 credentials of a passenger, and in `n` minutes from the start a
passenger was issued at most `30 * n` credentials and one for each hit that failed open. -/
theorem issued_limited (hs : Reachable (LimitedSystem.Initial t₀) (limitedStep cfg) s) (id : UUID) :
    (∀ r ∈ s.shared.passesOf id, ∃ h ∈ s.shared.hitOf r, h ∈ s.shared.hits ∧ h.pasajeroId = id ∧
      h.allowed = true ∧ t₀ ≤ h.instante ∧ h.instante ≤ r.emitidaAt) ∧
    (∀ r ∈ s.shared.passesOf id, ∀ r' ∈ s.shared.passesOf id,
      s.shared.hitOf r = s.shared.hitOf r' → r = r') ∧
    (∀ t, ((s.shared.passesOf id).filter fun r => (s.shared.hitOf r).any fun h =>
      h.counted && decide (t ≤ h.instante ∧ h.instante < t + seconds ventanaSegundos)).length ≤
        maxEmisiones) ∧
    ∀ n : Nat, s.shared.backend.out.clock < t₀ + n * seconds ventanaSegundos →
      (s.shared.passesOf id).length ≤ maxEmisiones * n +
        (s.shared.hits.filter fun h => h.pasajeroId = id ∧ h.tripped).length := by
  have hinv := limited_inv hs
  have hwindow := hinv.shared.toHitsOK.length_inWindow hinv.shared.ordered id.str
  refine ⟨fun r hr => ?_, fun r hr r' hr' hsame => hinv.hitOf_inj hr hr' hsame, fun t => ?_,
    fun n hn => ?_⟩
  · obtain ⟨h, hh, hmem, -, hp, hall, hle⟩ := hinv.hitOf hr
    exact ⟨h, hh, hmem, hp, hall, (hinv.shared.since h hmem).1, hle⟩
  · exact (hinv.length_counted id _).trans (hwindow t)
  · -- those that the limiter let through, and those of the hits that failed open
    have hsplit := List.length_eq_length_filter_add (l := s.shared.passesOf id)
      fun r => (s.shared.hitOf r).any Hit.counted
    have hcounted := hinv.length_counted id fun _ => true
    simp only [Bool.and_true, List.filter_true] at hcounted
    have hsince : ∀ x ∈ countedOf id.str s.shared.hits,
        t₀ ≤ x ∧ x < t₀ + n * seconds ventanaSegundos := by
      intro x hx
      obtain ⟨h, hh, rfl⟩ := List.mem_map.1 hx
      obtain ⟨hlo, hhi⟩ := hinv.shared.since h (List.mem_filter.1 hh).1
      exact ⟨hlo, hhi.trans_lt hn⟩
    have hfits := length_le_of_inWindow hwindow n (fun x hx => (hsince x hx).1)
      fun x hx => (hsince x hx).2
    have hopen := hinv.length_tripped id
    rw [hsplit]
    exact Nat.add_le_add (hcounted.trans hfits) hopen

/-- The journey, with a limiter. -/
def sampleLimited : LimitedSystem := ⟨⟨sampleBackend.shared, .empty, []⟩, sampleBackend.locals⟩

/-- After the journey one credential has been issued, for the one hit. -/
theorem issued_limited_journey :
    ∃ t, run (limitedStep sampleBackendSettings) sampleLimited sampleJourney = some t ∧
      (t.shared.passesOf 1).length = 1 ∧ t.shared.hits = [⟨3, 1, 16, false, true⟩] ∧
      (t.shared.passesOf 1).length ≤ maxEmisiones * 1 +
        (t.shared.hits.filter fun h => h.pasajeroId = 1 ∧ h.tripped).length := by
  have hrows : (run (limitedStep sampleBackendSettings) sampleLimited sampleJourney).map
      (fun t => decide ((t.shared.passesOf 1).length = 1 ∧
        t.shared.hits = [⟨3, 1, 16, false, true⟩] ∧ t.shared.backend.out.clock = 16)) =
        some true := by
    decide +kernel
  obtain ⟨t, ht, hr⟩ := Option.map_eq_some_iff.1 hrows
  obtain ⟨hone, hhits, hclock⟩ := of_decide_eq_true hr
  have hinit : sampleLimited.Initial 0 := ⟨sampleBackend_initial, rfl, rfl, rfl⟩
  refine ⟨t, ht, hone, hhits, (issued_limited (Reachable.run (.start hinit) ht) 1).2.2.2 1 ?_⟩
  rw [hclock]
  decide

end Aeropass
