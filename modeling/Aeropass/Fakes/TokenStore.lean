import Aeropass.Credentials.Store
import Aeropass.Lib.IsoFormat

/-!
# The in-memory token store

`adapters/fakes/token_store.py` beside `adapters/redis/token_store.py`, call by call and without
outages. Both keep for each `jti` a value and the instant it expires at (`TokenStep`), so whatever
follows for the single use of a token from the answers follows for both (`TokenSteps.singleUse`).
They differ on registrations whose expiry is not positive, which Redis refuses, or not an instant of
a `datetime`, which the in-memory store cannot compute.
-/

namespace Aeropass

/-- A call of a token store. -/
inductive TokenOp where
  | register (jti : UUID) (ttl : Int)
  | revoke (jti : UUID)
  | consume (jti : UUID)
  | isActive (jti : UUID)
  deriving DecidableEq, Repr

/-- The life that a registration asks for. -/
def TokenOp.ttl? : TokenOp → Option Int
  | .register _ ttl => some ttl
  | _ => none

/-- How it ends: it returns nothing, it returns a truth value, or it raises
`TokenStoreUnavailable` or `OverflowError`. -/
inductive TokenResult where
  | done
  | answer (b : Bool)
  | unavailable
  | overflow
  deriving DecidableEq, Repr

/-! ## The stores -/

/-- An entry of `_values`: the value, its expiry and the `ttl` it was registered with. -/
structure FakeTokenEntry where
  valor : TokenState
  expires : Instant
  ttl : Int
  deriving DecidableEq, Repr

/-- `_values`. -/
abbrev FakeTokenStore := UUID → Option FakeTokenEntry

namespace FakeTokenStore

/-- `_live`. -/
def live (self : FakeTokenStore) (now : Instant) (jti : UUID) : Option TokenState :=
  match self jti with
  | none => none
  | some entry => if entry.expires ≤ now then none else some entry.valor

/-- `register`; `now + timedelta` overflows outside the years 1 to 9999. -/
def register (self : FakeTokenStore) (now : Instant) (jti : UUID) (ttl : Int) :
    TokenResult × FakeTokenStore :=
  if self.live now jti ≠ none then (.unavailable, self)
  else if ¬ IsoFormat.InRange (now + seconds ttl) then (.overflow, self)
  else (.done, Function.update self jti (some ⟨.activa, now + seconds ttl, ttl⟩))

/-- `revoke`. -/
def revoke (self : FakeTokenStore) (jti : UUID) : TokenResult × FakeTokenStore :=
  (.done, Function.update self jti none)

/-- `consume`. -/
def consume (self : FakeTokenStore) (now : Instant) (jti : UUID) : TokenResult × FakeTokenStore :=
  if self.live now jti ≠ some .activa then (.answer false, self)
  else (.answer true,
    Function.update self jti ((self jti).map fun entry => { entry with valor := .consumida }))

/-- `is_active`. -/
def isActive (self : FakeTokenStore) (now : Instant) (jti : UUID) : TokenResult :=
  .answer (self.live now jti = some .activa)

/-- A call at the clock's instant. -/
def call (self : FakeTokenStore) (now : Instant) : TokenOp → TokenResult × FakeTokenStore
  | .register jti ttl => self.register now jti ttl
  | .revoke jti => self.revoke jti
  | .consume jti => self.consume now jti
  | .isActive jti => (self.isActive now jti, self)

/-- The entries without the `ttl` they were registered with. -/
def entries (self : FakeTokenStore) : Redis := fun jti =>
  (self jti).map fun entry => ⟨entry.valor, entry.expires⟩

end FakeTokenStore

namespace UpstashTokenStore

/-- `register`: `SET key ACTIVA NX EX ttl`. An expiry that is not positive, or in milliseconds no
64-bit integer, is an error of Redis, and nothing is set. -/
def register (r : Redis) (now : Instant) (jti : UUID) (ttl : Int) : TokenResult × Redis :=
  if ttl ≤ 0 ∨ 2 ^ 63 ≤ now / 1000 + ttl * 1000 then (.unavailable, r)
  else
    let (ok, r') := r.register now .none jti ttl
    (if ok then .done else .unavailable, r')

/-- `revoke`: `DEL`. -/
def revoke (r : Redis) (jti : UUID) : TokenResult × Redis := (.done, (r.revoke .none jti).2)

/-- `consume`: the script. -/
def consume (r : Redis) (now : Instant) (jti : UUID) : TokenResult × Redis :=
  let (result, r') := r.consume now .none jti
  (match result with
    | some b => .answer b
    | none => .unavailable, r')

/-- `is_active`: `GET`. -/
def isActive (r : Redis) (now : Instant) (jti : UUID) : TokenResult :=
  match r.mayBeUsable now .none jti with
  | some b => .answer b
  | none => .unavailable

/-- A call that reaches Redis at an instant. -/
def call (r : Redis) (now : Instant) : TokenOp → TokenResult × Redis
  | .register jti ttl => register r now jti ttl
  | .revoke jti => revoke r jti
  | .consume jti => consume r now jti
  | .isActive jti => (isActive r now jti, r)

end UpstashTokenStore

/-- A call with its instant and its result. -/
structure TokenRecord where
  now : Instant
  op : TokenOp
  result : TokenResult
  deriving DecidableEq, Repr

/-- The records of calls in sequence. -/
def tokenLog {σ : Type*} (call : σ → Instant → TokenOp → TokenResult × σ) (s : σ) :
    List (Instant × TokenOp) → List TokenRecord
  | [] => []
  | (now, op) :: calls => ⟨now, op, (call s now op).1⟩ :: tokenLog call (call s now op).2 calls

/-! ## One call of either -/

/-- What a call does to the entries. -/
inductive TokenStep (r : Redis) : TokenRecord → Redis → Prop
  | register {now jti ttl} : r.get now jti = none →
    TokenStep r ⟨now, .register jti ttl, .done⟩
      (Function.update r jti (some ⟨.activa, now + seconds ttl⟩))
  | refused {now jti ttl result} : result ≠ .done → TokenStep r ⟨now, .register jti ttl, result⟩ r
  | revoke {now jti} : TokenStep r ⟨now, .revoke jti, .done⟩ (Function.update r jti none)
  | consume {now jti e} : r jti = some e → e.valor = .activa → now < e.expira →
    TokenStep r ⟨now, .consume jti, .answer true⟩
      (Function.update r jti (some { e with valor := .consumida }))
  | failed {now jti} : TokenStep r ⟨now, .consume jti, .answer false⟩ r
  | isActive {now jti b} : TokenStep r ⟨now, .isActive jti, .answer b⟩ r

/-- What calls in sequence do. -/
inductive TokenSteps : Redis → List TokenRecord → Redis → Prop
  | nil {r} : TokenSteps r [] r
  | cons {r r' r'' rec log} : TokenStep r rec r' → TokenSteps r' log r'' →
    TokenSteps r (rec :: log) r''

/-- A token is active until it expires. -/
theorem Redis.get_eq_activa {r : Redis} {now : Instant} {jti : UUID} :
    r.get now jti = some .activa ↔
      ∃ e, r jti = some e ∧ e.valor = .activa ∧ now < e.expira := by
  unfold Redis.get
  cases h : r jti with
  | none => simp
  | some e =>
    by_cases hlt : now < e.expira
    · simp [hlt]
    · simp [hlt]

/-- A call of the Redis store. -/
theorem UpstashTokenStore.call_step (r : Redis) (now : Instant) (op : TokenOp) :
    TokenStep r ⟨now, op, (call r now op).1⟩ (call r now op).2 := by
  cases op with
  | register jti ttl =>
    simp only [call, register, Redis.register]
    by_cases httl : ttl ≤ 0 ∨ 2 ^ 63 ≤ now / 1000 + ttl * 1000
    · rw [if_pos httl]
      exact .refused (by simp)
    · rw [if_neg httl]
      rcases Option.eq_none_or_eq_some (r.get now jti) with hfree | ⟨v, hfree⟩
      · simp only [hfree, Option.isNone_none, if_true]
        exact .register hfree
      · simp only [hfree, Option.isNone_some, Bool.false_eq_true, if_false]
        exact .refused (by simp)
  | revoke jti => exact .revoke
  | consume jti =>
    simp only [call, consume, Redis.consume]
    by_cases hactive : r.get now jti = some .activa
    · obtain ⟨e, he, hv, hlt⟩ := Redis.get_eq_activa.1 hactive
      rw [hactive, he]
      exact .consume he hv hlt
    · simp only [hactive, decide_false]
      exact .failed
  | isActive jti => exact .isActive

/-- The fake looks at its entries as Redis does. -/
theorem FakeTokenStore.live_eq (self : FakeTokenStore) (now : Instant) (jti : UUID) :
    self.live now jti = self.entries.get now jti := by
  unfold live Redis.get entries
  cases self jti with
  | none => rfl
  | some entry =>
    simp only [Option.map_some]
    by_cases h : entry.expires ≤ now
    · rw [if_pos h, if_neg (Int.not_lt.2 h)]
    · rw [if_neg h, if_pos (Int.not_le.1 h)]

/-- The entries after one is replaced. -/
theorem FakeTokenStore.entries_update (self : FakeTokenStore) (jti : UUID)
    (entry : Option FakeTokenEntry) : entries (Function.update self jti entry) =
      Function.update self.entries jti (entry.map fun entry => ⟨entry.valor, entry.expires⟩) := by
  funext k
  unfold entries
  by_cases hk : k = jti
  · subst hk
    simp
  · simp [hk]

/-- A life that both stores take: positive, until an instant of a `datetime`. -/
def LifeOK (now : Instant) (ttl : Int) : Prop := 0 < ttl ∧ IsoFormat.InRange (now + seconds ttl)

instance (now : Instant) (ttl : Int) : Decidable (LifeOK now ttl) :=
  inferInstanceAs (Decidable (_ ∧ _))

/-- Redis takes it. -/
theorem LifeOK.setEx {now ttl : Int} (h : LifeOK now ttl) :
    ¬ (ttl ≤ 0 ∨ 2 ^ 63 ≤ now / 1000 + ttl * 1000) := by
  obtain ⟨hpos, -, hmax⟩ := h
  have hmax : (now + ttl * 1000000) / 86400000000 + 719163 ≤ 3652059 := hmax
  rintro (hle | hlarge)
  · omega
  · omega

/-- The same call on the fake and on Redis holding its entries. -/
theorem FakeTokenStore.call_entries (self : FakeTokenStore) (now : Instant) {op : TokenOp}
    (h : ∀ ttl ∈ op.ttl?, LifeOK now ttl) :
    UpstashTokenStore.call self.entries now op =
      ((self.call now op).1, (self.call now op).2.entries) := by
  cases op with
  | register jti ttl =>
    simp only [UpstashTokenStore.call, UpstashTokenStore.register, Redis.register, call, register,
      if_neg (h ttl rfl).setEx, (h ttl rfl).2, live_eq]
    rcases Option.eq_none_or_eq_some (self.entries.get now jti) with hfree | ⟨v, hfree⟩
    · simp [hfree, entries_update]
    · simp [hfree]
  | revoke jti =>
    simp [UpstashTokenStore.call, UpstashTokenStore.revoke, Redis.revoke, call, revoke,
      entries_update]
  | consume jti =>
    simp only [UpstashTokenStore.call, UpstashTokenStore.consume, Redis.consume, call, consume,
      live_eq]
    by_cases hactive : self.entries.get now jti = some .activa
    · simp only [hactive, decide_true, if_true, ne_eq, not_true_eq_false, if_false, entries_update]
      refine Prod.ext rfl (congrArg (Function.update self.entries jti) ?_)
      unfold entries
      cases self jti <;> rfl
    · simp [hactive]
  | isActive jti =>
    simp [UpstashTokenStore.call, UpstashTokenStore.isActive, Redis.mayBeUsable, call, isActive,
      live_eq]

/-- A call of the fake. -/
theorem FakeTokenStore.call_step (self : FakeTokenStore) (now : Instant) (op : TokenOp) :
    TokenStep self.entries ⟨now, op, (self.call now op).1⟩ (self.call now op).2.entries := by
  by_cases hpos : ∀ ttl ∈ op.ttl?, LifeOK now ttl
  · have hstep := UpstashTokenStore.call_step self.entries now op
    rw [self.call_entries now hpos] at hstep
    exact hstep
  · -- a registration that Redis may refuse, or the fake
    cases op with
    | revoke | consume | isActive => exact absurd (by simp [TokenOp.ttl?]) hpos
    | register jti ttl =>
    simp only [call, register, live_eq]
    rcases Option.eq_none_or_eq_some (self.entries.get now jti) with hfree | ⟨v, hfree⟩
    · simp only [hfree, ne_eq, not_true_eq_false, if_false]
      split
      · exact .refused (by simp)
      · rw [entries_update]
        exact .register hfree
    · simp only [hfree, ne_eq, reduceCtorEq, not_false_eq_true, if_true]
      exact .refused (by simp)

/-! ## Single use -/

/-- The record of a registration of the token that went through. -/
def TokenRecord.registers (jti : UUID) (rec : TokenRecord) : Bool :=
  rec.result = .done && match rec.op with
    | .register j _ => j = jti
    | _ => false

/-- The record of a consumption of the token that returned `True`. -/
def TokenRecord.consumes (jti : UUID) (rec : TokenRecord) : Bool :=
  rec.op = .consume jti && rec.result = .answer true

/-- The token is not there, or consumed. -/
def Spent (jti : UUID) (r : Redis) : Prop := ∀ e ∈ r jti, e.valor = .consumida

/-- The token is not there, or expires by `d`. -/
def DueBy (jti : UUID) (d : Instant) (r : Redis) : Prop := ∀ e ∈ r jti, e.expira ≤ d

variable {r r' : Redis} {jti : UUID} {d : Instant} {rec : TokenRecord} {log : List TokenRecord}

/-- What holds of every entry of the token still does after an update that keeps it. -/
theorem forall_update {P : TokenEntry → Prop} {j : UUID} {x : Option TokenEntry}
    (h : ∀ e ∈ r jti, P e) (hx : j = jti → ∀ e ∈ x, P e) :
    ∀ e ∈ Function.update r j x jti, P e := by
  by_cases hj : j = jti
  · subst hj
    rw [Function.update_self]
    exact hx rfl
  · rw [Function.update_of_ne (Ne.symm hj)]
    exact h

/-- Only a registration makes a spent token usable. -/
theorem TokenStep.spent (h : TokenStep r rec r') (hno : rec.registers jti = false)
    (hs : Spent jti r) : Spent jti r' ∧ rec.consumes jti = false := by
  cases h with
  | @register now j ttl _ =>
    refine ⟨forall_update hs fun hj => ?_, by simp [TokenRecord.consumes]⟩
    simp [TokenRecord.registers, hj] at hno
  | refused | failed | isActive => exact ⟨hs, by simp [TokenRecord.consumes]⟩
  | revoke => exact ⟨forall_update hs fun _ => by simp, by simp [TokenRecord.consumes]⟩
  | @consume now j e he hv _ =>
    have hj : j ≠ jti := by
      rintro rfl
      rw [hs e he] at hv
      cases hv
    exact ⟨forall_update hs fun heq => absurd heq hj, by simp [TokenRecord.consumes, hj]⟩

/-- A consumption spends the token. -/
theorem TokenStep.spent_of_consumes (h : TokenStep r rec r') (hc : rec.consumes jti = true) :
    Spent jti r' := by
  cases h with
  | @consume now j e _ _ _ =>
    simp only [TokenRecord.consumes, Bool.and_eq_true, decide_eq_true_eq, TokenOp.consume.injEq]
      at hc
    obtain ⟨rfl, -⟩ := hc
    intro e' he'
    rw [Function.update_self] at he'
    cases he'
    rfl
  | register | refused | revoke | failed | isActive => simp [TokenRecord.consumes] at hc

/-- Only a registration moves the expiry, and from it on nothing is consumed. -/
theorem TokenStep.dueBy (h : TokenStep r rec r') (hno : rec.registers jti = false)
    (hd : DueBy jti d r) : DueBy jti d r' ∧ (d ≤ rec.now → rec.consumes jti = false) := by
  cases h with
  | @register now j ttl _ =>
    refine ⟨forall_update hd fun hj => ?_, fun _ => by simp [TokenRecord.consumes]⟩
    simp [TokenRecord.registers, hj] at hno
  | refused | failed | isActive => exact ⟨hd, fun _ => by simp [TokenRecord.consumes]⟩
  | revoke => exact ⟨forall_update hd fun _ => by simp, fun _ => by simp [TokenRecord.consumes]⟩
  | @consume now j e he _ hlt =>
    refine ⟨forall_update hd fun hj e' he' => ?_, fun hle => ?_⟩
    · cases he'
      exact hd e (hj ▸ he)
    · -- the entry of the token is over by now
      have hj : j ≠ jti := by
        rintro rfl
        exact absurd hlt (Int.not_lt.2 (Int.le_trans (hd e he) hle))
      simp [TokenRecord.consumes, hj]

/-- A consumption leaves every expiry. -/
theorem TokenStep.expira_of_consume {now : Instant} {j : UUID} {result : TokenResult}
    (h : TokenStep r ⟨now, .consume j, result⟩ r') (k : UUID) :
    (r' k).map (·.expira) = (r k).map (·.expira) := by
  cases h with
  | failed => rfl
  | @consume _ _ e he _ _ =>
    by_cases hk : k = j
    · subst hk
      rw [Function.update_self, he]
      rfl
    · rw [Function.update_of_ne hk]

/-- A spent token is not consumed until it is registered again. -/
theorem TokenSteps.not_consumes_of_spent (h : TokenSteps r log r') (hs : Spent jti r)
    (hno : ∀ rec ∈ log, rec.registers jti = false) : ∀ rec ∈ log, rec.consumes jti = false := by
  induction h with
  | nil => simp
  | cons hstep _ ih =>
    obtain ⟨hs', hc⟩ := hstep.spent (hno _ (by simp)) hs
    intro rec hrec
    rcases List.mem_cons.1 hrec with rfl | hrec
    · exact hc
    · exact ih hs' (fun rec hrec => hno rec (List.mem_cons_of_mem _ hrec)) rec hrec

/-- Between two registrations a token is consumed at most once. -/
theorem TokenSteps.consumes_once (h : TokenSteps r log r')
    (hno : ∀ rec ∈ log, rec.registers jti = false) :
    (log.filter (·.consumes jti)).length ≤ 1 := by
  induction h with
  | nil => simp
  | @cons _ _ _ rec log hstep hsteps ih =>
    have hno' : ∀ rec ∈ log, rec.registers jti = false := fun rec hrec =>
      hno rec (List.mem_cons_of_mem _ hrec)
    cases hc : rec.consumes jti with
    | false =>
      rw [List.filter_cons_of_neg (by simp [hc])]
      exact ih hno'
    | true =>
      have hrest := hsteps.not_consumes_of_spent (hstep.spent_of_consumes hc) hno'
      have hnil : log.filter (·.consumes jti) = [] := by
        rw [List.filter_eq_nil_iff]
        intro rec hrec
        simp [hrest rec hrec]
      rw [List.filter_cons_of_pos hc, hnil]
      simp

/-- A token is not consumed from its expiry on until it is registered again. -/
theorem TokenSteps.not_consumes_of_due (h : TokenSteps r log r') (hd : DueBy jti d r)
    (hno : ∀ rec ∈ log, rec.registers jti = false) :
    ∀ rec ∈ log, d ≤ rec.now → rec.consumes jti = false := by
  induction h with
  | nil => simp
  | cons hstep _ ih =>
    obtain ⟨hd', hc⟩ := hstep.dueBy (hno _ (by simp)) hd
    intro rec hrec
    rcases List.mem_cons.1 hrec with rfl | hrec
    · exact hc
    · exact ih hd' (fun rec hrec => hno rec (List.mem_cons_of_mem _ hrec)) rec hrec

/-- Calls in sequence split at any of their records. -/
theorem TokenSteps.append {log' : List TokenRecord} (h : TokenSteps r (log ++ log') r') :
    ∃ r₁, TokenSteps r log r₁ ∧ TokenSteps r₁ log' r' := by
  induction log generalizing r with
  | nil => exact ⟨r, .nil, h⟩
  | cons rec log ih =>
    cases h with
    | cons hstep hrest =>
      obtain ⟨r₁, h1, h2⟩ := ih hrest
      exact ⟨r₁, .cons hstep h1, h2⟩

/-- Tokens are used once: between two registrations of a token that went through at most one
consumption returns `True`, none does after a revocation, and none from the expiry of the
registration on. -/
structure SingleUse (log : List TokenRecord) : Prop where
  once : ∀ jti pre mid post, log = pre ++ (mid ++ post) →
    (∀ rec ∈ mid, rec.registers jti = false) → (mid.filter (·.consumes jti)).length ≤ 1
  revoked : ∀ jti now pre mid post, log = pre ++ ⟨now, .revoke jti, .done⟩ :: (mid ++ post) →
    (∀ rec ∈ mid, rec.registers jti = false) → ∀ rec ∈ mid, rec.consumes jti = false
  expired : ∀ jti ttl now pre mid post,
    log = pre ++ ⟨now, .register jti ttl, .done⟩ :: (mid ++ post) →
    (∀ rec ∈ mid, rec.registers jti = false) →
    ∀ rec ∈ mid, now + seconds ttl ≤ rec.now → rec.consumes jti = false

/-- Over a sequence of operations no token is consumed twice. -/
theorem TokenSteps.singleUse (h : TokenSteps r log r') : SingleUse log where
  once jti pre mid post hlog hno := by
    subst hlog
    obtain ⟨_, -, h⟩ := h.append
    obtain ⟨_, h, -⟩ := h.append
    exact h.consumes_once hno
  revoked jti now pre mid post hlog hno := by
    subst hlog
    obtain ⟨r₁, -, h⟩ := h.append
    cases h with
    | cons hstep h =>
      obtain ⟨_, h, -⟩ := h.append
      cases hstep with
      | revoke =>
        refine h.not_consumes_of_spent ?_ hno
        intro e he
        rw [Function.update_self] at he
        cases he
  expired jti ttl now pre mid post hlog hno := by
    subst hlog
    obtain ⟨r₁, -, h⟩ := h.append
    cases h with
    | cons hstep h =>
      obtain ⟨_, h, -⟩ := h.append
      cases hstep with
      | refused hne => exact absurd rfl hne
      | register =>
        refine h.not_consumes_of_due ?_ hno
        intro e he
        rw [Function.update_self] at he
        cases he
        exact Int.le_refl _

/-! ## The two stores -/

theorem UpstashTokenStore.log_steps (r : Redis) (calls : List (Instant × TokenOp)) :
    ∃ r', TokenSteps r (tokenLog UpstashTokenStore.call r calls) r' := by
  induction calls generalizing r with
  | nil => exact ⟨r, .nil⟩
  | cons c calls ih =>
    obtain ⟨r', h⟩ := ih (call r c.1 c.2).2
    exact ⟨r', .cons (call_step r c.1 c.2) h⟩

theorem FakeTokenStore.log_steps (self : FakeTokenStore) (calls : List (Instant × TokenOp)) :
    ∃ r', TokenSteps self.entries (tokenLog FakeTokenStore.call self calls) r' := by
  induction calls generalizing self with
  | nil => exact ⟨self.entries, .nil⟩
  | cons c calls ih =>
    obtain ⟨r', h⟩ := ih (self.call c.1 c.2).2
    exact ⟨r', .cons (self.call_step c.1 c.2) h⟩

/-- Where both stores take every life the fake answers as Redis holding its entries. -/
theorem FakeTokenStore.log_eq (self : FakeTokenStore) {calls : List (Instant × TokenOp)}
    (hpos : ∀ c ∈ calls, ∀ ttl ∈ c.2.ttl?, LifeOK c.1 ttl) :
    tokenLog FakeTokenStore.call self calls =
      tokenLog UpstashTokenStore.call self.entries calls := by
  induction calls generalizing self with
  | nil => rfl
  | cons c calls ih =>
    have hcall := self.call_entries c.1 (hpos c (by simp))
    rw [tokenLog, tokenLog, hcall, ih _ fun c hc => hpos c (List.mem_cons_of_mem _ hc)]

/-- **The two token stores.** On every sequence of calls whose registrations have a positive life
that ends in the years of a `datetime` the in-memory store returns and raises what the Redis one
does; and on every sequence both let a token be used once, and a consumption leaves the expiries as
they were. -/
theorem tokenStores_agree :
    (∀ calls : List (Instant × TokenOp),
      (∀ c ∈ calls, ∀ ttl ∈ c.2.ttl?, 0 < ttl ∧ IsoFormat.InRange (c.1 + seconds ttl)) →
      tokenLog FakeTokenStore.call (fun _ => none) calls =
        tokenLog UpstashTokenStore.call (fun _ => none) calls) ∧
    (∀ calls : List (Instant × TokenOp),
      SingleUse (tokenLog FakeTokenStore.call (fun _ => none) calls) ∧
      SingleUse (tokenLog UpstashTokenStore.call (fun _ => none) calls)) ∧
    ∀ (now : Instant) (jti k : UUID),
      (∀ self : FakeTokenStore, (((self.call now (.consume jti)).2.entries k).map (·.expira)) =
        (self.entries k).map (·.expira)) ∧
      ∀ r : Redis, ((UpstashTokenStore.call r now (.consume jti)).2 k).map (·.expira) =
        (r k).map (·.expira) := by
  refine ⟨fun calls hpos => FakeTokenStore.log_eq _ hpos, fun calls => ⟨?_, ?_⟩,
    fun now jti k => ⟨fun self => ?_, fun r => ?_⟩⟩
  · obtain ⟨r', h⟩ := FakeTokenStore.log_steps (fun _ => none) calls
    exact h.singleUse
  · obtain ⟨r', h⟩ := UpstashTokenStore.log_steps (fun _ => none) calls
    exact h.singleUse
  · exact (self.call_step now (.consume jti)).expira_of_consume k
  · exact (UpstashTokenStore.call_step r now (.consume jti)).expira_of_consume k

/-- A registration without life goes through on the fake and is an error of Redis, and one for 9500
years goes through on Redis and overflows on the fake. -/
theorem tokenStores_differ :
    tokenLog FakeTokenStore.call (fun _ => none) [(0, .register 1 0)] =
      [⟨0, .register 1 0, .done⟩] ∧
    tokenLog UpstashTokenStore.call (fun _ => none) [(0, .register 1 0)] =
      [⟨0, .register 1 0, .unavailable⟩] ∧
    tokenLog FakeTokenStore.call (fun _ => none) [(0, .register 1 300000000000)] =
      [⟨0, .register 1 300000000000, .overflow⟩] ∧
    tokenLog UpstashTokenStore.call (fun _ => none) [(0, .register 1 300000000000)] =
      [⟨0, .register 1 300000000000, .done⟩] ∧
    ¬ ∀ calls : List (Instant × TokenOp), (calls.map (·.1)).Pairwise (· ≤ ·) →
      tokenLog FakeTokenStore.call (fun _ => none) calls =
        tokenLog UpstashTokenStore.call (fun _ => none) calls := by
  refine ⟨by decide, by decide, by decide, by decide, fun h => ?_⟩
  exact absurd (h [(0, .register 1 0)] (by simp)) (by decide)

/-- A token is registered twice, used up to its expiry, and registered again then. -/
def tokenCalls : List (Instant × TokenOp) :=
  [(0, .register 1 45), (0, .register 1 45), (5, .consume 1), (6, .consume 1),
    (seconds 45, .register 1 45), (seconds 45, .consume 1), (seconds 46, .revoke 1)]

/-- Both stores answer alike. -/
theorem tokenStores_agree_sample :
    (tokenLog UpstashTokenStore.call (fun _ => none) tokenCalls).map (·.result) =
      [.done, .unavailable, .answer true, .answer false, .done, .answer true, .done] := by
  rw [← tokenStores_agree.1 tokenCalls (by decide)]
  decide

end Aeropass
