import Aeropass.Credentials.Emission
import Aeropass.Credentials.System
import Aeropass.Domain.Signing

/-!
# Offline verification

A token that `build` made, verified with the public key of its signer. `exp` and `iat` are the
truncated instants of the credential and the clock is truncated too, so that the token is accepted
in whole seconds (`verify_issued`): never once the credential has expired, and up to the last whole
second before.
-/

namespace Aeropass

open CredencialAccesoBuilder CredentialVerifier

/-- The claims as PyJWT gives them back. -/
def Claims.fields (claims : Claims) : List (String × Json) :=
  [("jti", .str claims.jti), ("sub", .str claims.sub), ("flt", .str claims.flt),
    ("perms", .array (claims.perms.map .str)), ("iat", .int claims.iat), ("exp", .int claims.exp)]

/-- PyJWT reads the `kid` of the signer in the token, finds the signature valid under its public
key, and gives the signed claims. -/
structure ReadsBack {κ : Type*} (jwt : PyJwt κ) (signer : CredentialSigner) (publicKey : κ)
    (token : String) : Prop where
  kid : jwt.unverifiedKid token = .ok (some signer.kid)
  valid : jwt.validUnder publicKey token = true
  payload : ∀ claims, signer.sign claims = some token → jwt.payload token = .ok claims.fields

/-- What a token that `build` returned says. -/
theorem build_ok_claims {b : CredencialAccesoBuilder} {jti : UUID} {c : CredencialAcceso}
    {token : String} (h : b.build jti = .ok (c, token)) :
    ∃ signer ∈ b.signer, ∃ ttl ∈ b.ttl, ∃ claims, 30 ≤ ttl ∧ ttl ≤ 60 ∧
      c.expiraAt = c.emitidaAt + seconds ttl ∧ signer.sign claims = some token ∧
      claims.iat = c.emitidaAt.timestamp ∧ claims.exp = c.expiraAt.timestamp := by
  obtain ⟨signer, hsigner, hsigned⟩ := build_signed h
  obtain ⟨_, _, _, ttl, _, _, _, _, -, -, httl, -, hbound, -, -, rfl⟩ := build_ok h
  exact ⟨signer, hsigner, ttl, httl, _, hbound.1, hbound.2, rfl, hsigned.sign, rfl, rfl⟩

/-! ## Whole seconds -/

/-- Before a whole second is before its instant. -/
theorem lt_of_floor_lt {e t n : Int} (h : t / 1000000 < e / 1000000 + n) : t < e + seconds n := by
  rw [seconds]
  omega

/-- From a whole second on it is less than a second to its instant. -/
theorem sub_lt_of_floor_le {e t n : Int} (h : e / 1000000 + n ≤ t / 1000000) :
    e + seconds n - t < seconds 1 := by
  simp only [seconds]
  omega

theorem floor_add_seconds (e n : Int) : (e + seconds n) / 1000000 = e / 1000000 + n := by
  rw [seconds]
  omega

/-- The allowance for a clock that is behind. -/
theorem le_add_skew_iff (e t : Int) : e ≤ t + clockSkewSeconds ↔ e - 5 ≤ t := by
  rw [clockSkewSeconds]
  omega

section
variable {κ : Type*} {jwt : PyJwt κ} {publicKey : κ} {intStr : String → Option Int}
  {signer : CredentialSigner} {token : String} {claims : Claims} {now : Instant}

/-- `verify` compares whole seconds, and nothing verifies under an empty `kid`. -/
theorem verify_claims (hread : ReadsBack jwt signer publicKey token)
    (hsign : signer.sign claims = some token) :
    (((fromSigner signer publicKey).verify jwt intStr token now = .ok claims.fields ↔
      signer.kid ≠ "" ∧ claims.iat ≤ now.timestamp + clockSkewSeconds ∧
        now.timestamp < claims.exp) ∧
    ((fromSigner signer publicKey).verify jwt intStr token now = .ok claims.fields ∨
      ∃ message, (fromSigner signer publicKey).verify jwt intStr token now =
        .error (.invalidCredentialToken message))) := by
  by_cases hkid : signer.kid = ""
  · have hnot : ∀ fields, ¬ SignedBy (fromSigner signer publicKey) jwt token fields := by
      intro fields h
      obtain ⟨kid, key, hheader, hne, -⟩ := h.key
      rw [hread.kid] at hheader
      cases hheader
      exact hne hkid
    obtain ⟨message, hverify⟩ := @verify_of_not_signed _ _ _ intStr _ now hnot
    rw [hverify]
    exact ⟨by simp [hkid], .inr ⟨message, rfl⟩⟩
  · have hsigned : SignedBy (fromSigner signer publicKey) jwt token claims.fields :=
      ⟨⟨signer.kid, publicKey, hread.kid, hkid, if_pos rfl, hread.valid⟩,
        hread.payload claims hsign⟩
    have hexp : intClaim intStr claims.fields "exp" = .ok claims.exp := rfl
    have hiat : intClaim intStr claims.fields "iat" = .ok claims.iat := rfl
    rw [verify_of_signed hsigned, hexp, hiat]
    simp only
    by_cases hover : claims.exp ≤ now.timestamp
    · rw [if_pos hover]
      exact ⟨by simp [Int.not_lt.2 hover], .inr ⟨_, rfl⟩⟩
    · rw [if_neg hover]
      by_cases hfuture : now.timestamp + clockSkewSeconds < claims.iat
      · rw [if_pos hfuture]
        exact ⟨by simp [Int.not_le.2 hfuture], .inr ⟨_, rfl⟩⟩
      · rw [if_neg hfuture]
        exact ⟨by simp [hkid, Int.not_lt.1 hfuture, Int.not_le.1 hover], .inl rfl⟩

/-- **Offline verification.** A token that `build` made verifies exactly in the whole seconds from
5 s before its emission to `ttl` after it, if its signer has a `kid`; at every other instant it is
refused. So no instant is accepted at which the credential has expired, the ones that are refused
from its emission to its expiry are less than a second from its expiry, and it verifies when the app
is told to renew. -/
theorem verify_issued {b : CredencialAccesoBuilder} {jti : UUID} {c : CredencialAcceso}
    (hbuild : b.build jti = .ok (c, token)) (hsigner : b.signer = some signer)
    (hread : ReadsBack jwt signer publicKey token) (hem : 0 ≤ c.emitidaAt) :
    ∃ ttl claims, b.ttl = some ttl ∧ signer.sign claims = some token ∧
      (∀ now, 0 ≤ now →
        ((fromSigner signer publicKey).verify jwt intStr token now = .ok claims.fields ↔
          signer.kid ≠ "" ∧ c.emitidaAt / 1000000 - 5 ≤ now / 1000000 ∧
            now / 1000000 < c.emitidaAt / 1000000 + ttl) ∧
        ((fromSigner signer publicKey).verify jwt intStr token now = .ok claims.fields ∨
          ∃ message, (fromSigner signer publicKey).verify jwt intStr token now =
            .error (.invalidCredentialToken message)) ∧
        ((fromSigner signer publicKey).verify jwt intStr token now = .ok claims.fields →
          c.isExpired now = false) ∧
        (signer.kid ≠ "" → c.emitidaAt ≤ now → c.isExpired now = false →
          (fromSigner signer publicKey).verify jwt intStr token now ≠ .ok claims.fields →
            c.expiraAt - now < seconds 1)) ∧
      (signer.kid ≠ "" → (fromSigner signer publicKey).verify jwt intStr token
        (c.emitidaAt + seconds (ttl - renewalMarginSeconds)) = .ok claims.fields) := by
  obtain ⟨signer', hs, ttl, httl, claims, hmin, hmax, hexpira, hsign, hiat, hexp⟩ :=
    build_ok_claims hbuild
  rw [hsigner] at hs
  cases hs
  have hexp' : claims.exp = c.emitidaAt / 1000000 + ttl := by
    rw [hexp, hexpira, timestamp_add_seconds hem (by omega), timestamp_of_nonneg hem]
  have hiff : ∀ now : Instant, 0 ≤ now →
      ((fromSigner signer publicKey).verify jwt intStr token now = .ok claims.fields ↔
        signer.kid ≠ "" ∧ c.emitidaAt / 1000000 - 5 ≤ now / 1000000 ∧
          now / 1000000 < c.emitidaAt / 1000000 + ttl) := by
    intro now hnow
    rw [(verify_claims hread hsign).1, hexp', hiat, timestamp_of_nonneg hem,
      timestamp_of_nonneg hnow, le_add_skew_iff]
  refine ⟨ttl, claims, httl, hsign, fun now hnow => ⟨hiff now hnow, (verify_claims hread hsign).2,
    fun hok => ?_, fun hkid hle hlive hno => ?_⟩, fun hkid => ?_⟩
  · have hlt := lt_of_floor_lt ((hiff now hnow).1 hok).2.2
    rw [CredencialAcceso.isExpired, hexpira]
    exact decide_eq_false (Int.not_le.2 hlt)
  · -- it is not refused for being early
    have hearly : c.emitidaAt / 1000000 - 5 ≤ now / 1000000 :=
      Int.le_trans (Int.sub_le_self _ (by decide)) (Int.ediv_le_ediv (by decide) hle)
    have hlate : c.emitidaAt / 1000000 + ttl ≤ now / 1000000 :=
      Int.not_lt.1 fun hlt => hno ((hiff now hnow).2 ⟨hkid, hearly, hlt⟩)
    rw [hexpira]
    exact sub_lt_of_floor_le hlate
  · have hlater : 0 ≤ ttl - renewalMarginSeconds := by rw [renewalMarginSeconds]; omega
    have hfloor := floor_add_seconds c.emitidaAt (ttl - renewalMarginSeconds)
    refine (hiff _ (Int.add_nonneg hem (by rw [seconds]; omega))).2 ⟨hkid, ?_, ?_⟩
    · rw [hfloor]
      exact Int.le_trans (Int.sub_le_self _ (by decide)) (Int.le_add_of_nonneg_right hlater)
    · rw [hfloor]
      exact Int.add_lt_add_left (by rw [renewalMarginSeconds]; omega) _

end

/-! ## A key without an id -/

/-- What the sample credential signs. -/
def sampleClaims : Claims :=
  claimsOf 4 1 "AV9380" permisosPorDefecto 45 500000

/-- A signer that tells these claims from all others. -/
def sampleSigner (kid : String) : CredentialSigner :=
  ⟨kid, fun claims => some (if claims = sampleClaims then "h.p.s" else "h.q.s")⟩

/-- PyJWT on its token. -/
def sampleJwt (kid : String) : PyJwt Unit where
  unverifiedKid _ := .ok (some kid)
  validUnder _ _ := true
  payload _ := .ok sampleClaims.fields

theorem sampleJwt_readsBack (kid : String) :
    ReadsBack (sampleJwt kid) (sampleSigner kid) () "h.p.s" := by
  refine ⟨rfl, rfl, fun claims h => ?_⟩
  simp only [sampleSigner, Option.some.injEq] at h
  split at h
  · next hc => rw [hc]; rfl
  · exact absurd h (by decide)

/-- The builder of the sample credential. -/
def sampleBuilder (kid : String) : CredencialAccesoBuilder where
  pasajeroId := some 1
  identidadId := some 2
  codigoVuelo := some "AV9380"
  ttl := some 45
  signer := some (sampleSigner kid)
  emitidaAt := some 500000

/-- The sample builder builds, with its signer's token. -/
theorem sampleBuilder_build (kid : String) (hkid : kid ∈ ["", "k1"]) :
    ∃ c, (sampleBuilder kid).build 4 = .ok (c, "h.p.s") ∧ c.emitidaAt = 500000 := by
  have hfacts : ∀ kid ∈ ["", "k1"], ((sampleBuilder kid).build 4).toOption.map
      (fun r => (r.1.emitidaAt, r.2)) = some (500000, "h.p.s") := by
    decide +kernel
  have hfacts := hfacts kid hkid
  cases hbuild : (sampleBuilder kid).build 4 with
  | error e => rw [hbuild] at hfacts; cases hfacts
  | ok r =>
    rw [hbuild] at hfacts
    simp only [Except.toOption, Option.map_some, Option.some.injEq, Prod.mk.injEq] at hfacts
    exact ⟨r.1, by rw [← hfacts.2], hfacts.1⟩

/-- The sample credential is accepted in its 44th second and refused in its 45th, half a second
before its expiry. -/
theorem verify_issued_sample : ∃ (c : CredencialAcceso) (claims : Claims),
    (sampleBuilder "k1").build 4 = .ok (c, "h.p.s") ∧
    (fromSigner (sampleSigner "k1") ()).verify (sampleJwt "k1") (fun _ => none) "h.p.s"
      (seconds 44) = .ok claims.fields ∧
    (fromSigner (sampleSigner "k1") ()).verify (sampleJwt "k1") (fun _ => none) "h.p.s"
      (seconds 45) ≠ .ok claims.fields := by
  obtain ⟨c, hbuild, hem⟩ := sampleBuilder_build "k1" (by decide)
  obtain ⟨ttl, claims, httl, -, hwindow, -⟩ := @verify_issued _ (sampleJwt "k1") () (fun _ => none)
    _ _ _ _ _ hbuild rfl (sampleJwt_readsBack "k1") (by rw [hem]; decide)
  cases httl
  rw [hem] at hwindow
  refine ⟨c, claims, hbuild, (hwindow (seconds 44) (by decide)).1.2 (by decide), fun hok => ?_⟩
  exact absurd ((hwindow (seconds 45) (by decide)).1.1 hok) (by decide)

/-- A token whose `kid` is empty is refused at its emission. -/
theorem verify_issued_empty_kid : ¬ ∀ (jwt : PyJwt Unit) (signer : CredentialSigner)
    (b : CredencialAccesoBuilder) (jti : UUID) (c : CredencialAcceso) (token : String),
    b.build jti = .ok (c, token) → b.signer = some signer → ReadsBack jwt signer () token →
      0 ≤ c.emitidaAt → ∃ ttl claims, b.ttl = some ttl ∧ signer.sign claims = some token ∧
        ∀ now, 0 ≤ now → ((fromSigner signer ()).verify jwt (fun _ => none) token now =
          .ok claims.fields ↔ c.emitidaAt / 1000000 - 5 ≤ now / 1000000 ∧
            now / 1000000 < c.emitidaAt / 1000000 + ttl) := by
  intro h
  obtain ⟨c, hbuild, hem⟩ := sampleBuilder_build "" (by decide)
  obtain ⟨ttl, claims, httl, -, hiff⟩ := h (sampleJwt "") (sampleSigner "") _ 4 c "h.p.s" hbuild
    rfl (sampleJwt_readsBack "") (by rw [hem]; decide)
  cases httl
  have hok := (hiff 500000 (by decide)).2 (by rw [hem]; decide)
  have hrefused : (fromSigner (sampleSigner "") ()).verify (sampleJwt "") (fun _ => none) "h.p.s"
      500000 = .error (.invalidCredentialToken "unknown key id") := by rfl
  rw [hrefused] at hok
  cases hok

end Aeropass
