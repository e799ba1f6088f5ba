import Aeropass.Credentials.Store
import Aeropass.Lib.IsoFormat
import Mathlib.Data.List.Induction

/-!
# Building a credential

The steps of `CredencialAccesoBuilder`, called in any order and any number of times, and what
`build` makes of them. Only the last value of each step counts (`afterSteps_eq`). `build` refuses
the builders that are `Invalid` before it reaches the signer, and of the others it makes a new
credential and a token that say the same (`Issued`).
-/

namespace Aeropass

open PyStr

/-- A call of one of the steps. -/
inductive BuilderStep where
  | paraPasajero (id : UUID)
  | conIdentidad (id : UUID)
  | paraVuelo (codigo : String)
  | conPermisos (permisos : List String)
  | conTtl (ttl : Int)
  | firmadoCon (signer : CredentialSigner)
  | emitidoEn (instante : Instant)

namespace CredencialAccesoBuilder

/-- The builder after a step. -/
def step (b : CredencialAccesoBuilder) : BuilderStep → CredencialAccesoBuilder
  | .paraPasajero id => b.paraPasajero id
  | .conIdentidad id => b.conIdentidad id
  | .paraVuelo codigo => b.paraVuelo codigo
  | .conPermisos permisos => b.conPermisos permisos
  | .conTtl ttl => b.conTtl ttl
  | .firmadoCon signer => b.firmadoCon signer
  | .emitidoEn instante => b.emitidoEn instante

/-- A new builder after steps. -/
def afterSteps (steps : List BuilderStep) : CredencialAccesoBuilder := steps.foldl step {}

end CredencialAccesoBuilder

namespace BuilderStep

def pasajeroId? : BuilderStep → Option UUID
  | .paraPasajero id => some id
  | _ => none

def identidadId? : BuilderStep → Option UUID
  | .conIdentidad id => some id
  | _ => none

def codigoVuelo? : BuilderStep → Option String
  | .paraVuelo codigo => some codigo
  | _ => none

def permisos? : BuilderStep → Option (List String)
  | .conPermisos permisos => some permisos
  | _ => none

def ttl? : BuilderStep → Option Int
  | .conTtl ttl => some ttl
  | _ => none

def signer? : BuilderStep → Option CredentialSigner
  | .firmadoCon signer => some signer
  | _ => none

def emitidaAt? : BuilderStep → Option Instant
  | .emitidoEn instante => some instante
  | _ => none

/-- The last value that the steps set for a field. -/
def last {α : Type} (field? : BuilderStep → Option α) (steps : List BuilderStep) : Option α :=
  (steps.filterMap field?).getLast?

theorem last_snoc {α : Type} (field? : BuilderStep → Option α) (steps : List BuilderStep)
    (s : BuilderStep) : last field? (steps ++ [s]) = (field? s).or (last field? steps) := by
  rw [last, List.filterMap_append, List.getLast?_append]
  cases h : field? s with
  | none => simp [h, last]
  | some a => simp [h]

end BuilderStep

namespace CredencialAccesoBuilder

open BuilderStep

/-- Only the last value of each field counts. -/
theorem afterSteps_eq (steps : List BuilderStep) : afterSteps steps =
    { pasajeroId := last pasajeroId? steps
      identidadId := last identidadId? steps
      codigoVuelo := last codigoVuelo? steps
      permisos := (last permisos? steps).getD permisosPorDefecto
      ttl := last ttl? steps
      signer := last signer? steps
      emitidaAt := last emitidaAt? steps } := by
  induction steps using List.reverseRecOn with
  | nil => rfl
  | append_singleton steps s ih =>
    have hstep : afterSteps (steps ++ [s]) = step (afterSteps steps) s := by
      simp [afterSteps]
    rw [hstep, ih]
    simp only [last_snoc]
    cases s <;> rfl

/-- A value is missing. -/
def Incomplete (b : CredencialAccesoBuilder) : Prop :=
  b.pasajeroId = none ∨ b.identidadId = none ∨ b.codigoVuelo = none ∨ b.ttl = none ∨
    b.signer = none ∨ b.emitidaAt = none

/-- A builder that must not give a credential: a value is missing, the validity is out of range,
the permissions are empty or contain a blank one, or the flight code does not normalise to the
pattern. -/
def Invalid (b : CredencialAccesoBuilder) : Prop :=
  b.Incomplete ∨ (∃ ttl ∈ b.ttl, ttl < 30 ∨ 60 < ttl) ∨
    b.permisos = [] ∨ (∃ p ∈ b.permisos, strip p.toList = []) ∨
    ∃ codigo ∈ b.codigoVuelo, matchCodigoVuelo (upper (strip codigo.toList)) = false

instance (b : CredencialAccesoBuilder) : Decidable b.Incomplete :=
  inferInstanceAs (Decidable (_ ∨ _ ∨ _ ∨ _ ∨ _ ∨ _))

instance (b : CredencialAccesoBuilder) : Decidable b.Invalid :=
  inferInstanceAs (Decidable (_ ∨ _ ∨ _ ∨ _ ∨ _))

/-- The same builder with another key in its signer. -/
def signingWith (b : CredencialAccesoBuilder) (sign : Claims → Option String) :
    CredencialAccesoBuilder :=
  { b with signer := b.signer.map fun signer => { signer with sign } }

variable {b : CredencialAccesoBuilder} {jti : UUID}

/-- The condition that `build` checks on the permissions. -/
theorem permisos_blank_iff {permisos : List String} :
    (permisos.isEmpty || !permisos.all fun p => !(strip p.toList).isEmpty) = true ↔
      permisos = [] ∨ ∃ p ∈ permisos, strip p.toList = [] := by
  simp

/-- What `normalizar_codigo_vuelo` does with a code. -/
theorem normalizarCodigoVuelo_eq (codigo : String) :
    (matchCodigoVuelo (upper (strip codigo.toList)) = true ∧ normalizarCodigoVuelo (some codigo) =
      .ok (String.ofList (upper (strip codigo.toList)))) ∨
    (matchCodigoVuelo (upper (strip codigo.toList)) = false ∧ ∃ e : DomainError,
      e.clase = .datosInvalidos ∧ normalizarCodigoVuelo (some codigo) = .error e) := by
  cases hm : matchCodigoVuelo (upper (strip codigo.toList)) with
  | true =>
    refine .inl ⟨rfl, ?_⟩
    simp [normalizarCodigoVuelo, matchEnd, hm]
  | false =>
    refine .inr ⟨rfl, ?_⟩
    cases hn : normalizarCodigoVuelo (some codigo) with
    | ok s =>
      obtain ⟨hs, hmatch⟩ := normalizarCodigoVuelo_ok hn
      rw [hs, Option.getD_some, hm] at hmatch
      cases hmatch
    | error e =>
      refine ⟨e, ?_, rfl⟩
      simp only [normalizarCodigoVuelo] at hn
      split at hn <;> cases hn
      rfl

/-- A builder with all values is complete. -/
theorem complete_cases (b : CredencialAccesoBuilder) : b.Incomplete ∨
    ∃ pasajeroId identidadId codigo ttl signer emitidaAt, b = ⟨some pasajeroId, some identidadId,
      some codigo, b.permisos, some ttl, some signer, some emitidaAt⟩ := by
  obtain ⟨pasajeroId, identidadId, codigo, permisos, ttl, signer, emitidaAt⟩ := b
  cases pasajeroId with
  | none => exact .inl (.inl rfl)
  | some pasajeroId =>
  cases identidadId with
  | none => exact .inl (.inr (.inl rfl))
  | some identidadId =>
  cases codigo with
  | none => exact .inl (.inr (.inr (.inl rfl)))
  | some codigo =>
  cases ttl with
  | none => exact .inl (.inr (.inr (.inr (.inl rfl))))
  | some ttl =>
  cases signer with
  | none => exact .inl (.inr (.inr (.inr (.inr (.inl rfl)))))
  | some signer =>
  cases emitidaAt with
  | none => exact .inl (.inr (.inr (.inr (.inr (.inr rfl)))))
  | some emitidaAt => exact .inr ⟨pasajeroId, identidadId, codigo, ttl, signer, emitidaAt, rfl⟩

/-- An incomplete builder is refused with the names of what is missing. -/
theorem build_incomplete (h : b.Incomplete) : b.build jti =
    .error (.domain { clase := .datosInvalidos, mensaje := "Credencial incompleta"
                      campos := some b.faltantes }) := by
  unfold build
  split
  · next hp hi hc ht hs he =>
    simp only [Incomplete, hp, hi, hc, ht, hs, he, reduceCtorEq, or_self] at h
  · rfl

section
variable {pasajeroId identidadId : UUID} {codigo : String} {permisos : List String} {ttl : Int}
  {signer : CredentialSigner} {emitidaAt : Instant}

/-- The claims that a complete builder signs. -/
def claimsOf (jti pasajeroId : UUID) (codigo : String) (permisos : List String) (ttl : Int)
    (emitidaAt : Instant) : Claims where
  jti := jti.str
  sub := pasajeroId.str
  flt := String.ofList (upper (strip codigo.toList))
  perms := permisos
  iat := emitidaAt.timestamp
  exp := Instant.timestamp (emitidaAt + seconds ttl)

/-- A complete builder with a bad value is refused before it signs. -/
theorem build_invalid (h : (⟨some pasajeroId, some identidadId, some codigo, permisos, some ttl,
      some signer, some emitidaAt⟩ : CredencialAccesoBuilder).Invalid) (jti : UUID) :
    ∃ e : DomainError, e.clase = .datosInvalidos ∧ ∀ sign,
      (⟨some pasajeroId, some identidadId, some codigo, permisos, some ttl,
        some { signer with sign }, some emitidaAt⟩ : CredencialAccesoBuilder).build jti =
          .error (.domain e) := by
  simp only [build, bind, Except.bind, pure, Except.pure, throw, throwThe, MonadExceptOf.throw]
  by_cases httl : ttlMinSeconds ≤ ttl ∧ ttl ≤ ttlMaxSeconds
  · by_cases hperm : (permisos.isEmpty || !permisos.all fun p => !(strip p.toList).isEmpty) = true
    · simp only [httl, hperm, and_self, not_true_eq_false, if_false, if_true]
      exact ⟨_, rfl, fun _ => rfl⟩
    · rcases normalizarCodigoVuelo_eq codigo with ⟨hm, -⟩ | ⟨-, e, he, hn⟩
      · -- then no value is bad
        simp only [Invalid, Incomplete, Option.mem_some_iff, exists_eq_left', hm, reduceCtorEq,
          or_self, or_false, false_or] at h
        rw [permisos_blank_iff] at hperm
        rcases h with hbad | hbad
        · exact absurd httl (by simp only [ttlMinSeconds, ttlMaxSeconds]; omega)
        · exact absurd hbad hperm
      · simp only [httl, hperm, hn, and_self, not_true_eq_false, if_false]
        exact ⟨e, he, fun _ => rfl⟩
  · simp only [httl, not_false_eq_true, if_true]
    exact ⟨_, rfl, fun _ => rfl⟩

/-- A complete builder with good values signs its claims. -/
theorem build_valid (h : ¬ (⟨some pasajeroId, some identidadId, some codigo, permisos, some ttl,
      some signer, some emitidaAt⟩ : CredencialAccesoBuilder).Invalid) (jti : UUID) :
    (⟨some pasajeroId, some identidadId, some codigo, permisos, some ttl, some signer,
      some emitidaAt⟩ : CredencialAccesoBuilder).build jti =
    match signer.sign (claimsOf jti pasajeroId codigo permisos ttl emitidaAt) with
    | none => .error .signing
    | some token =>
      (CredentialSigner.signatureOf token).map fun firma =>
        (.emitir jti pasajeroId identidadId (String.ofList (upper (strip codigo.toList))) permisos
          firma signer.kid emitidaAt (emitidaAt + seconds ttl), token) := by
  simp only [Invalid, Incomplete, Option.mem_some_iff, exists_eq_left', reduceCtorEq, or_self,
    false_or, not_or] at h
  obtain ⟨httl, hne, hblank, hcode⟩ := h
  have httl : ttlMinSeconds ≤ ttl ∧ ttl ≤ ttlMaxSeconds := by
    simp only [ttlMinSeconds, ttlMaxSeconds]
    omega
  have hperm : (permisos.isEmpty || !permisos.all fun p => !(strip p.toList).isEmpty) = false := by
    rw [← Bool.not_eq_true, permisos_blank_iff]
    exact not_or.2 ⟨hne, hblank⟩
  rcases normalizarCodigoVuelo_eq codigo with ⟨-, hn⟩ | ⟨hm, -⟩
  · simp only [build, bind, Except.bind, pure, Except.pure, throw, throwThe, MonadExceptOf.throw,
      httl, hperm, hn, and_self, not_true_eq_false, if_false, Bool.false_eq_true, Except.mapError]
    rw [claimsOf]
    split
    · next token hs =>
      simp only [hs]
      cases CredentialSigner.signatureOf token <;> rfl
    · next hs =>
      cases hsign : signer.sign _ with
      | none => rfl
      | some token => exact absurd hsign (hs token)
  · exact absurd hm hcode

end

/-- The signer gives tokens of three segments. -/
def Compact (signer : CredentialSigner) : Prop :=
  ∀ claims, ∃ header payload signature, '.' ∉ signature.toList ∧
    signer.sign claims = some (header ++ "." ++ payload ++ "." ++ signature)

/-- The signature of such a token is its last segment. -/
theorem signatureOf_segments {header payload signature : String} (h : '.' ∉ signature.toList) :
    CredentialSigner.signatureOf (header ++ "." ++ payload ++ "." ++ signature) =
      .ok signature := by
  have hlast : afterLastDot ((header ++ "." ++ payload).toList ++ '.' :: signature.toList) =
      some signature.toList := afterLastDot_append h
  have hlist : (header ++ "." ++ payload ++ "." ++ signature).toList =
      (header ++ "." ++ payload).toList ++ '.' :: signature.toList := by
    simp
  rw [CredentialSigner.signatureOf, hlist, hlast]
  simp

/-- What `build` gives: a new credential of the values of the builder, which every check of its
table accepts, and the token of claims that say the same. -/
structure Issued (b : CredencialAccesoBuilder) (jti : UUID) (signer : CredentialSigner)
    (c : CredencialAcceso) (token : String) (claims : Claims) : Prop where
  id : c.id = jti
  pasajeroId : b.pasajeroId = some c.pasajeroId
  identidadId : b.identidadId = some c.identidadId
  codigoVuelo : ∃ codigo ∈ b.codigoVuelo, normalizarCodigoVuelo (some codigo) = .ok c.codigoVuelo
  permisos : c.permisos = b.permisos
  emitidaAt : b.emitidaAt = some c.emitidaAt
  expiraAt : ∃ ttl ∈ b.ttl, c.expiraAt = c.emitidaAt + seconds ttl
  kid : c.kid = signer.kid
  estado : c.estado = .emitida
  historial : c.pendingTransitions =
    [⟨none, .emitida, true, motivoEmision, sistema, c.emitidaAt⟩]
  checks : ∀ (t : CredentialTables) (k : String), t.insertError c = some k →
    k = "credenciales_acceso_pkey" ∨ k = "uq_credenciales_acceso_una_viva"
  signed : signer.sign claims = some token
  jti : claims.jti = c.id.str
  sub : claims.sub = c.pasajeroId.str
  flt : claims.flt = c.codigoVuelo
  perms : claims.perms = c.permisos
  firma : ∃ header payload, token = header ++ "." ++ payload ++ "." ++ c.firma ∧
    '.' ∉ c.firma.toList

/-- Only the uniqueness constraints of its table can refuse a new credential with a validity
between the bounds, permissions and a flight code of the pattern. -/
theorem insertError_emitir {t : CredentialTables} {jti pasajeroId identidadId : UUID}
    {codigo firma kid k : String} {permisos : List String} {emitidaAt : Instant} {ttl : Int}
    (httl : 30 ≤ ttl ∧ ttl ≤ 60) (hperm : permisos ≠ [])
    (hcode : matchCodigoVuelo codigo.toList = true)
    (h : t.insertError (.emitir jti pasajeroId identidadId codigo permisos firma kid emitidaAt
      (emitidaAt + seconds ttl)) = some k) :
    k = "credenciales_acceso_pkey" ∨ k = "uq_credenciales_acceso_una_viva" := by
  have hvig : seconds 30 ≤ emitidaAt + seconds ttl - emitidaAt ∧
      emitidaAt + seconds ttl - emitidaAt ≤ seconds 60 := by
    have hsub : emitidaAt + seconds ttl - emitidaAt = seconds ttl := by
      rw [Int.add_comm, Int.add_sub_cancel]
    rw [hsub]
    exact ⟨Int.mul_le_mul_of_nonneg_right httl.1 (by decide),
      Int.mul_le_mul_of_nonneg_right httl.2 (by decide)⟩
  simp only [CredentialTables.insertError, CredencialAcceso.emitir, hvig, hcode,
    List.isEmpty_eq_false_iff.2 hperm, and_self, not_true_eq_false, if_false, Bool.not_true,
    Bool.false_eq_true] at h
  split at h
  · cases h
    exact .inl rfl
  · exact .inr (Option.some.inj (Option.ite_none_right_eq_some.1 h).2).symm

/-- From the epoch on the truncated timestamp is the floor. -/
theorem timestamp_of_nonneg {t : Instant} (h : 0 ≤ t) : t.timestamp = t / 1000000 :=
  Int.tdiv_eq_ediv_of_nonneg h

/-- A whole number of seconds later the timestamp is larger by that. -/
theorem timestamp_add_seconds {t : Instant} {n : Int} (ht : 0 ≤ t) (hn : 0 ≤ n) :
    Instant.timestamp (t + seconds n) = t.timestamp + n := by
  have hsum : 0 ≤ t + seconds n := Int.add_nonneg ht (by rw [seconds]; omega)
  rw [timestamp_of_nonneg hsum, timestamp_of_nonneg ht, seconds,
    Int.add_mul_ediv_right _ _ (by decide)]

/-- An invalid builder is refused whatever its signer would do. -/
theorem build_of_invalid (h : b.Invalid) (jti : UUID) : ∃ e : DomainError,
    e.clase = .datosInvalidos ∧ b.build jti = .error (.domain e) ∧
      ∀ sign, (b.signingWith sign).build jti = .error (.domain e) := by
  rcases b.complete_cases with hinc | ⟨pasajeroId, identidadId, codigo, ttl, signer, emitidaAt, hb⟩
  · refine ⟨_, rfl, build_incomplete hinc, fun sign => ?_⟩
    have hinc' : (b.signingWith sign).Incomplete := by simpa [Incomplete, signingWith] using hinc
    have hnames : (b.signingWith sign).faltantes = b.faltantes := by
      simp [faltantes, signingWith]
    rw [build_incomplete hinc', hnames]
  · rw [hb] at h ⊢
    obtain ⟨e, he, hbuild⟩ := build_invalid h jti
    exact ⟨e, he, hbuild signer.sign, hbuild⟩

/-- The others get past the checks. -/
theorem build_of_not_invalid (h : ¬ b.Invalid) {e : DomainError}
    (hbuild : b.build jti = .error (.domain e)) : False := by
  rcases b.complete_cases with hinc | ⟨pasajeroId, identidadId, codigo, ttl, signer, emitidaAt, hb⟩
  · exact h (.inl hinc)
  · rw [hb] at h hbuild
    rw [build_valid h] at hbuild
    split at hbuild
    · cases hbuild
    · next token _ =>
      unfold CredentialSigner.signatureOf at hbuild
      split at hbuild <;> cases hbuild

/-- Of a valid builder with a signer of compact tokens `build` makes a credential and its token. -/
theorem build_issues (h : ¬ b.Invalid) {signer : CredentialSigner} (hs : signer ∈ b.signer)
    (hsign : Compact signer) (jti : UUID) : ∃ c token claims, b.build jti = .ok (c, token) ∧
      Issued b jti signer c token claims ∧ claims.iat = c.emitidaAt.timestamp ∧
      claims.exp = c.expiraAt.timestamp := by
  rcases b.complete_cases with hinc | ⟨pasajeroId, identidadId, codigo, ttl, signer', emitidaAt, hb⟩
  · exact absurd (.inl hinc) h
  rw [hb] at h hs ⊢
  cases hs
  have hbuild := build_valid h jti
  obtain ⟨header, payload, firma, hdot, htoken⟩ :=
    hsign (claimsOf jti pasajeroId codigo b.permisos ttl emitidaAt)
  rw [htoken] at hbuild
  simp only [signatureOf_segments hdot, Except.map] at hbuild
  simp only [Invalid, Option.mem_some_iff, exists_eq_left', not_or] at h
  obtain ⟨-, httl, hne, -, hcode⟩ := h
  have hcode := Bool.eq_true_of_not_eq_false hcode
  have hlist : (String.ofList (upper (strip codigo.toList))).toList =
      upper (strip codigo.toList) := String.toList_ofList
  refine ⟨_, _, claimsOf jti pasajeroId codigo b.permisos ttl emitidaAt, hbuild, ?_, rfl, rfl⟩
  exact
    { id := rfl
      pasajeroId := rfl
      identidadId := rfl
      codigoVuelo := ⟨codigo, rfl, (normalizarCodigoVuelo_eq codigo).elim (·.2)
        fun hbad => absurd (hcode.symm.trans hbad.1) (by simp)⟩
      permisos := rfl
      emitidaAt := rfl
      expiraAt := ⟨ttl, rfl, rfl⟩
      kid := rfl
      estado := rfl
      historial := rfl
      checks := fun t k hk => insertError_emitir (by omega) hne (by rw [hlist]; exact hcode) hk
      signed := htoken
      jti := rfl
      sub := rfl
      flt := rfl
      perms := rfl
      firma := ⟨header, payload, rfl, hdot⟩ }

/-- A signer of compact tokens that tell whether `iat` is the epoch. -/
def epochSigner : CredentialSigner :=
  ⟨"k1", fun claims => some ("h" ++ "." ++ (if claims.iat = 0 then "0" else "1") ++ "." ++ "s")⟩

theorem epochSigner_compact : Compact epochSigner := fun claims =>
  ⟨"h", if claims.iat = 0 then "0" else "1", "s", by decide, rfl⟩

/-- All steps, for an emission half a second before the epoch. -/
def earlySteps : List BuilderStep :=
  [.paraPasajero 1, .conIdentidad 2, .paraVuelo "AV9380", .conTtl 30, .firmadoCon epochSigner,
    .emitidoEn (-500000)]

/-- All steps, some of them twice, for an emission half a second after the epoch. -/
def sampleSteps : List BuilderStep :=
  .conTtl 90 :: .emitidoEn 500000 :: .paraVuelo "no" :: earlySteps.dropLast ++ [.conTtl 45]

end CredencialAccesoBuilder

end Aeropass
