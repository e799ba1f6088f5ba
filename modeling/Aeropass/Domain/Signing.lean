import Aeropass.Domain.Builder
import Aeropass.Lib.PyJson

/-!
# Verifying a token

`CredentialVerifier.verify` (`domain/credential/signing.py`). PyJWT is a parameter: it reads the
header, says under which keys a signature is valid, and gives the payload of such a token. What it
raises is a `PyJWTError`, which `verify` turns into its own exception; `exp` and `iat` are read
after that, outside the `try`.
-/

namespace Aeropass

/-- `CLOCK_SKEW_SECONDS`. -/
def clockSkewSeconds : Int := 5

/-- PyJWT over keys of a type, each failure with the text of its `PyJWTError`: the `kid` of the
header, a string where there is one; whether the signature is valid under a key; and the payload of
such a token, where that is a JSON object. -/
structure PyJwt (κ : Type*) where
  unverifiedKid : String → Except String (Option String)
  validUnder : κ → String → Bool
  payload : String → Except String (List (String × Json))

variable {κ : Type*}

/-- `jwt.decode`, with the checks of the time claims switched off. -/
def PyJwt.decode (jwt : PyJwt κ) (token : String) (key : κ) :
    Except String (List (String × Json)) :=
  if jwt.validUnder key token then jwt.payload token
  else .error "Signature verification failed"

/-- `CredentialVerifier`: the published keys under their ids. -/
structure CredentialVerifier (κ : Type*) where
  keys : String → Option κ

/-- What `verify` raises. -/
inductive VerifyError where
  | invalidCredentialToken (message : String)
  | python (e : PyError)
  deriving DecidableEq, Repr

namespace CredentialVerifier

/-- `from_signer`. -/
def fromSigner (signer : CredentialSigner) (publicKey : κ) : CredentialVerifier κ :=
  ⟨fun kid => if kid = signer.kid then some publicKey else none⟩

/-- The `try` block of `verify`. -/
def signedClaims (verifier : CredentialVerifier κ) (jwt : PyJwt κ) (token : String) :
    Except VerifyError (List (String × Json)) :=
  match jwt.unverifiedKid token with
  | .error message => .error (.invalidCredentialToken message)
  | .ok kid =>
    let key := kid.bind fun kid => if kid = "" then none else verifier.keys kid
    match key with
    | none => .error (.invalidCredentialToken "unknown key id")
    | some key => (jwt.decode token key).mapError .invalidCredentialToken

/-- `int(claims[key])`. -/
def intClaim (intStr : String → Option Int) (claims : List (String × Json)) (key : String) :
    Except PyError Int := do
  (← (Json.object claims).subscript key).toInt intStr

/-- `verify`. -/
def verify (verifier : CredentialVerifier κ) (jwt : PyJwt κ) (intStr : String → Option Int)
    (token : String) (now : Instant) : Except VerifyError (List (String × Json)) := do
  let claims ← verifier.signedClaims jwt token
  let instante := now.timestamp
  if (← (intClaim intStr claims "exp").mapError .python) ≤ instante then
    throw (.invalidCredentialToken "expired")
  if instante + clockSkewSeconds < (← (intClaim intStr claims "iat").mapError .python) then
    throw (.invalidCredentialToken "issued in the future")
  return claims

variable {verifier : CredentialVerifier κ} {jwt : PyJwt κ} {intStr : String → Option Int}
  {token : String} {now : Instant} {claims : List (String × Json)}

/-- The token is signed by a published key that its header names. -/
structure SignedBy (verifier : CredentialVerifier κ) (jwt : PyJwt κ) (token : String)
    (claims : List (String × Json)) : Prop where
  key : ∃ kid key, jwt.unverifiedKid token = .ok (some kid) ∧ kid ≠ "" ∧
    verifier.keys kid = some key ∧ jwt.validUnder key token = true
  payload : jwt.payload token = .ok claims

/-- The `try` block gives the claims of signed tokens, and raises `InvalidCredentialToken` on the
others. -/
theorem signedClaims_cases (verifier : CredentialVerifier κ) (jwt : PyJwt κ) (token : String) :
    (∃ claims, SignedBy verifier jwt token claims ∧
      verifier.signedClaims jwt token = .ok claims) ∨
    ((∀ claims, ¬ SignedBy verifier jwt token claims) ∧
      ∃ message, verifier.signedClaims jwt token = .error (.invalidCredentialToken message)) := by
  cases hheader : jwt.unverifiedKid token with
  | error message =>
    refine .inr ⟨fun claims h => ?_, message, by simp only [signedClaims, hheader]⟩
    obtain ⟨kid, key, hkid, -⟩ := h.key
    rw [hheader] at hkid
    cases hkid
  | ok header =>
    cases hkey : header.bind fun kid => if kid = "" then none else verifier.keys kid with
    | none =>
      refine .inr ⟨fun claims h => ?_, "unknown key id", by simp only [signedClaims, hheader, hkey]⟩
      obtain ⟨kid, key, hkid, hne, hpub, -⟩ := h.key
      rw [hheader] at hkid
      cases hkid
      simp [hne, hpub] at hkey
    | some key =>
      obtain ⟨kid, rfl, hpub⟩ := Option.bind_eq_some_iff.1 hkey
      have hne : kid ≠ "" := by
        rintro rfl
        simp at hpub
      rw [if_neg hne] at hpub
      have hclaims : verifier.signedClaims jwt token =
          (jwt.decode token key).mapError .invalidCredentialToken := by
        simp only [signedClaims, hheader, hkey]
      -- only the key that the header names is tried
      have honly : ∀ claims, SignedBy verifier jwt token claims →
          jwt.decode token key = .ok claims := by
        intro claims h
        obtain ⟨kid', key', hkid, -, hpub', hvalid⟩ := h.key
        rw [hheader] at hkid
        cases hkid
        rw [hpub] at hpub'
        cases hpub'
        rw [PyJwt.decode, hvalid, if_pos rfl, h.payload]
      cases hdecode : jwt.decode token key with
      | error message =>
        refine .inr ⟨fun claims h => ?_, message, by rw [hclaims, hdecode]; rfl⟩
        rw [honly claims h] at hdecode
        cases hdecode
      | ok claims =>
        refine .inl ⟨claims, ?_, by rw [hclaims, hdecode]; rfl⟩
        rw [PyJwt.decode] at hdecode
        split at hdecode
        · next hvalid => exact ⟨⟨kid, key, hheader, hne, hpub, hvalid⟩, hdecode⟩
        · cases hdecode

theorem SignedBy.unique {claims' : List (String × Json)} (h : SignedBy verifier jwt token claims)
    (h' : SignedBy verifier jwt token claims') : claims = claims' :=
  Except.ok.inj (h.payload.symm.trans h'.payload)

/-- What `verify` does with a signed token. -/
theorem verify_of_signed (h : SignedBy verifier jwt token claims) :
    verifier.verify jwt intStr token now =
      match intClaim intStr claims "exp" with
      | .error e => .error (.python e)
      | .ok exp =>
        if exp ≤ now.timestamp then .error (.invalidCredentialToken "expired")
        else match intClaim intStr claims "iat" with
          | .error e => .error (.python e)
          | .ok iat =>
            if now.timestamp + clockSkewSeconds < iat then
              .error (.invalidCredentialToken "issued in the future")
            else .ok claims := by
  rcases signedClaims_cases verifier jwt token with ⟨claims', h', hok⟩ | ⟨hnot, -⟩
  · obtain rfl := h.unique h'
    simp only [verify, hok, bind, Except.bind, pure, Except.pure, throw, throwThe,
      MonadExceptOf.throw]
    cases intClaim intStr claims "exp" with
    | error e => rfl
    | ok exp =>
      simp only [Except.mapError]
      split
      · rfl
      · cases intClaim intStr claims "iat" with
        | error e => rfl
        | ok iat => rfl
  · exact absurd h (hnot claims)

/-- A token that is not signed is refused. -/
theorem verify_of_not_signed (h : ∀ claims, ¬ SignedBy verifier jwt token claims) :
    ∃ message, verifier.verify jwt intStr token now = .error (.invalidCredentialToken message) := by
  rcases signedClaims_cases verifier jwt token with ⟨claims, h', -⟩ | ⟨-, message, herr⟩
  · exact absurd h' (h claims)
  · exact ⟨message, by simp only [verify, herr, bind, Except.bind]⟩

/-! ## Failing closed -/

/-- `verify` returns the claims of a token that a published key signed, or raises
`InvalidCredentialToken`. -/
def FailsClosed (verifier : CredentialVerifier κ) (jwt : PyJwt κ) (intStr : String → Option Int)
    (token : String) (now : Instant) : Prop :=
  (∀ claims, verifier.verify jwt intStr token now = .ok claims →
    jwt.payload token = .ok claims ∧ ∃ kid key, jwt.unverifiedKid token = .ok (some kid) ∧
      verifier.keys kid = some key ∧ jwt.validUnder key token = true) ∧
  ∀ e, verifier.verify jwt intStr token now = .error e →
    ∃ message, e = .invalidCredentialToken message

/-- Where a published key signed the token, its `exp` is a number to `int()`, and so is its `iat`
unless `exp` is over. -/
def TimesReadable (verifier : CredentialVerifier κ) (jwt : PyJwt κ) (intStr : String → Option Int)
    (token : String) (now : Instant) : Prop :=
  ∀ kid key claims, jwt.unverifiedKid token = .ok (some kid) → kid ≠ "" →
    verifier.keys kid = some key → jwt.validUnder key token = true →
    jwt.payload token = .ok claims →
    ∃ exp, intClaim intStr claims "exp" = .ok exp ∧
      (now.timestamp < exp → ∃ iat, intClaim intStr claims "iat" = .ok iat)

/-- A library for which every token is signed by the one key, with an empty payload. -/
def emptyPayloads : PyJwt Unit where
  unverifiedKid _ := .ok (some "k1")
  validUnder _ _ := true
  payload _ := .ok []

end CredentialVerifier

end Aeropass
