import Aeropass.Biometrics.Adapters

/-!
# Misbehaving biometric providers

Which answers of a provider end as a result with scores between 0 and 1 or as `ProviderUnavailable`
(`Tame`): all but three kinds (`Digestible`). A body that nests too deep raises `RecursionError` in
`json`, an integer too large for a double `OverflowError` in `float`, and a verify payload of MxFace
that is no object `AttributeError` in `.get`, if it is read at all. None is among the exceptions
that the adapters and the wrapper catch.
-/

namespace Aeropass

variable {floatStr : String → Option Binary64} {payload : Json} {q : ℚ} {e : PyError}

/-- A score between 0 and 1. -/
def InUnit (q : ℚ) : Prop := 0 ≤ q ∧ q ≤ 1

/-- What an adapter is allowed to do: return scores between 0 and 1, or raise
`ProviderUnavailable`. -/
def Answers : Except BiometricError BiometricResult → Prop
  | .ok r => InUnit r.scoreLiveness ∧ InUnit r.scoreComparacion
  | .error (.providerUnavailable _) => True
  | .error _ => False

/-- The adapter answers, and the wrapper returns what it returns or `None` and does not raise. -/
structure Tame (floatStr : String → Option Binary64) (provider : Provider) : Prop where
  adapter : Answers (provider.evaluate floatStr)
  wrapper : ∀ verdict, resilientEvaluate (provider.evaluate floatStr) verdict = .ok none ∨
    ∃ r, provider.evaluate floatStr = .ok r ∧
      resilientEvaluate (provider.evaluate floatStr) verdict = .ok (some r)

/-- The liveness score that MxFace reads as a number from 0 to 100. -/
def LivenessReads (floatStr : String → Option Binary64) (payload : Json) : Prop :=
  ∃ v score, payload.field? "livenessScore" = some v ∧ v.toFloat floatStr = .ok (.fin score) ∧
    0 ≤ score ∧ score ≤ 100

/-- A score of the vision provider. -/
def scoreField? (payload : Json) (key : String) : Option Json :=
  (payload.field? key).bind (Json.field? "score")

/-- The call of MxFace that answers `other` fails, and its group leaves out this one. -/
def Cancelled (other : HttpAnswer) (otherAlone : Bool) : Prop :=
  other.payload? = none ∧ otherAlone = true

/-- What the provider answers nests nowhere too deep where it is decoded in time to count, has no
score too large for a double where one is read, nor, for MxFace, a verify payload other than an
object next to a liveness score that is read. -/
def Digestible (floatStr : String → Option Binary64) : Provider → Prop
  | .mxFace verify liveness order =>
    (verify.tooDeep → Cancelled liveness (order = .livenessFirst false)) ∧
    (liveness.tooDeep → Cancelled verify (order = .verifyFirst false)) ∧
    ∀ v l, verify.payload? = some v → liveness.payload? = some l →
      (∀ score, l.field? "livenessScore" = some score → ¬ score.TooLarge) ∧
      (LivenessReads floatStr l → v.isObject = true)
  | .vision answer =>
    answer.tooDeep = false ∧ ∀ b, answer.payload? = some b →
      (∀ score, scoreField? b "liveness" = some score → ¬ score.TooLarge) ∧
      ∀ score x, scoreField? b "liveness" = some score → score.toFloat floatStr = .ok x →
        ∀ score', scoreField? b "match" = some score' → ¬ score'.TooLarge

/-! ## What is caught -/

/-- The exceptions that the adapters turn into `ProviderUnavailable`. -/
def Caught (e : PyError) : Prop := e = .valueError ∨ e = .keyError ∨ e = .typeError

/-- A translation is allowed exactly when it returns scores between 0 and 1 or what it raises is
caught. -/
theorem answers_exceptMalformed {x : Except PyError BiometricResult} :
    Answers (exceptMalformed x) ↔ (∀ r, x = .ok r → InUnit r.scoreLiveness ∧
      InUnit r.scoreComparacion) ∧ ∀ e, x = .error e → Caught e := by
  cases x with
  | ok r => simp [exceptMalformed, Answers]
  | error e => cases e <;> simp [exceptMalformed, Answers, malformed, Caught]

/-- Of what a score raises only the overflow is not caught. -/
theorem caught_iff_ne_overflow (h : e = .overflowError ∨ Caught e) :
    Caught e ↔ e ≠ .overflowError := by
  constructor
  · rintro hc rfl
    simp [Caught] at hc
  · exact h.resolve_left

/-- What a post does with an answer: it returns what is read, raises `ProviderUnavailable`, or the
body nests too deep. -/
inductive PostResult (answer : HttpAnswer) : Except BiometricError Json → Prop
  | reads {v} : answer.payload? = some v → answer.tooDeep = false → PostResult answer (.ok v)
  | unavailable {message} : answer.payload? = none → answer.tooDeep = false →
    PostResult answer (.error (.providerUnavailable message))
  | tooDeep : answer.payload? = none → answer.tooDeep = true →
    PostResult answer (.error (.python .recursionError))

/-- The cases of `_post`. -/
theorem post_result (path : String) (answer : HttpAnswer) :
    PostResult answer (post path answer) := by
  cases answer with
  | httpError name => exact .unavailable rfl rfl
  | response status body =>
    by_cases hs : 400 ≤ status
    · simp only [post, if_pos hs]
      exact .unavailable (by cases body <;> simp [HttpAnswer.payload?, hs])
        (by cases body <;> simp [HttpAnswer.tooDeep, hs])
    · simp only [post, if_neg hs]
      cases body with
      | json v => exact .reads (if_neg hs) rfl
      | notJson => exact .unavailable rfl rfl
      | tooDeep => exact .tooDeep rfl (by simp [HttpAnswer.tooDeep, hs])

/-- A post that returns has read its payload. -/
theorem PostResult.read {answer : HttpAnswer} {v : Json} (h : PostResult answer (.ok v)) :
    answer.payload? = some v ∧ answer.tooDeep = false := by
  cases h with
  | reads hread hdeep => exact ⟨hread, hdeep⟩

/-- One that raises has none. -/
theorem PostResult.failed {answer : HttpAnswer} {e : BiometricError}
    (h : PostResult answer (.error e)) : answer.payload? = none := by
  cases h with
  | unavailable hnone | tooDeep hnone => exact hnone

/-- A group that holds only `ProviderUnavailable` raises the first of them. -/
theorem exceptGroup_answers {e : BiometricError} {es : List BiometricError} :
    Answers (.error (exceptGroup (e :: es))) ↔ ∀ f ∈ e :: es, ∃ m, f = .providerUnavailable m := by
  rw [exceptGroup]
  split
  · next h =>
    have hall : ∀ f ∈ e :: es, ∃ m, f = .providerUnavailable m := by
      intro f hf
      have h := List.all_eq_true.1 h f hf
      cases f with
      | providerUnavailable m => exact ⟨m, rfl⟩
      | _ => cases h
    obtain ⟨m, rfl⟩ := hall e List.mem_cons_self
    exact iff_of_true trivial hall
  · next h =>
    refine iff_of_false id fun hall => h (List.all_eq_true.2 fun f hf => ?_)
    obtain ⟨m, rfl⟩ := hall f hf
    rfl

/-! ## MxFace -/

/-- `_liveness_score` overflows on an integer that is too large. -/
theorem livenessScore_overflow : livenessScore floatStr payload = .error .overflowError ↔
    ∃ v, payload.field? "livenessScore" = some v ∧ v.TooLarge := by
  simp only [livenessScore, bind, Except.bind, ← Json.subscript_ok]
  cases hsub : payload.subscript "livenessScore" with
  | error e => rcases Json.subscript_error hsub with rfl | rfl <;> simp
  | ok v =>
    simp only [Except.ok.injEq, exists_eq_left', ← @Json.toFloat_overflow v floatStr]
    cases v.toFloat floatStr with
    | error e => simp
    | ok x =>
      cases x with
      | nan | inf => simp [throw, throwThe, MonadExceptOf.throw]
      | fin score =>
        simp only [pure, Except.pure, throw, throwThe, MonadExceptOf.throw]
        split <;> simp

/-- What else it raises is caught. -/
theorem livenessScore_error (h : livenessScore floatStr payload = .error e) :
    e = .overflowError ∨ Caught e := by
  simp only [livenessScore, bind, Except.bind] at h
  cases hsub : payload.subscript "livenessScore" with
  | error e' =>
    simp only [hsub] at h
    cases h
    exact .inr (.inr (Json.subscript_error hsub))
  | ok v =>
    simp only [hsub] at h
    cases hfloat : v.toFloat floatStr with
    | error e' =>
      simp only [hfloat] at h
      cases h
      rcases Json.toFloat_error hfloat with hov | hval | htype
      · exact .inl hov
      · exact .inr (.inl hval)
      · exact .inr (.inr (.inr htype))
    | ok x =>
      simp only [hfloat] at h
      cases x with
      | nan | inf => cases h; exact .inr (.inl rfl)
      | fin score =>
        dsimp only at h
        split at h <;> cases h
        exact .inr (.inl rfl)

/-- What it raises is caught unless it overflows. -/
theorem caught_iff_of_livenessScore (h : livenessScore floatStr payload = .error e) :
    Caught e ↔ ∀ score, payload.field? "livenessScore" = some score → ¬ score.TooLarge := by
  have hlarge : e = .overflowError ↔
      ∃ score, payload.field? "livenessScore" = some score ∧ score.TooLarge := by
    rw [← @livenessScore_overflow floatStr, h, Except.error.injEq]
  rw [caught_iff_ne_overflow (livenessScore_error h), ne_eq, hlarge]
  push Not
  rfl

/-- A score that was read was not too large. -/
theorem small_of_livenessScore (h : livenessScore floatStr payload = .ok q) :
    ∀ score, payload.field? "livenessScore" = some score → ¬ score.TooLarge := by
  intro score hfield hlarge
  have hover := (@livenessScore_overflow floatStr payload).2 ⟨score, hfield, hlarge⟩
  rw [h] at hover
  cases hover

/-- It returns a score between 0 and 1 when it reads a number from 0 to 100. -/
theorem livenessScore_ok : (∃ q, livenessScore floatStr payload = .ok q) ↔
    LivenessReads floatStr payload := by
  simp only [livenessScore, bind, Except.bind, LivenessReads, ← Json.subscript_ok]
  cases payload.subscript "livenessScore" with
  | error e => simp
  | ok v =>
    simp only [Except.ok.injEq, exists_and_left, exists_eq_left']
    cases v.toFloat floatStr with
    | error e => simp
    | ok x =>
      cases x with
      | nan | inf => simp [throw, throwThe, MonadExceptOf.throw]
      | fin score =>
        simp only [pure, Except.pure, throw, throwThe, MonadExceptOf.throw]
        split <;> simp_all

/-- What `_liveness_score` returns is between 0 and 1. -/
theorem livenessScore_inUnit (h : livenessScore floatStr payload = .ok q) : InUnit q := by
  simp only [livenessScore, bind, Except.bind] at h
  split at h
  · cases h
  split at h
  · cases h
  split at h
  · split at h
    · next hrange =>
      cases h
      exact Binary64.nearest_mem_unit (by linarith [hrange.1]) (by linarith [hrange.2])
    · cases h
  · cases h

/-- `_match_score` of a payload that is no object. -/
theorem matchScore_not_object (h : payload.isObject = false) :
    matchScore payload = .error .attributeError := by
  cases payload with
  | object => cases h
  | _ => rfl

/-- Of an object it is 0 or 1, or what it raises is caught. -/
theorem matchScore_object (h : payload.isObject = true) :
    (∃ q, matchScore payload = .ok q ∧ InUnit q) ∨
      ∃ e, matchScore payload = .error e ∧ Caught e := by
  have hzero : InUnit 0 := ⟨le_rfl, zero_le_one⟩
  have hone : InUnit 1 := ⟨zero_le_one, le_rfl⟩
  obtain ⟨faces, hfaces⟩ : ∃ faces, payload.get "matchedFaces" = .ok faces := by
    cases payload with
    | object fields => exact ⟨_, rfl⟩
    | _ => cases h
  simp only [matchScore, bind, Except.bind, hfaces]
  cases ht : faces.truthy with
  | false => exact .inl ⟨0, rfl, hzero⟩
  | true =>
    simp only [if_true, ht, Bool.not_true, Bool.false_eq_true, if_false]
    cases hfirst : faces.first with
    | error e => exact .inr ⟨e, rfl, .inr (Json.first_error ht hfirst)⟩
    | ok face =>
      dsimp only
      cases hsub : face.subscript "matchResult" with
      | error e => exact .inr ⟨e, rfl, .inr (Json.subscript_error hsub)⟩
      | ok result =>
        refine .inl ⟨_, rfl, ?_⟩
        split
        · exact hone
        · exact hzero

/-- Where both posts fail the adapter answers if no body that counts nests too deep. -/
theorem mxFace_answers_failed {verify liveness : HttpAnswer} {order : GroupOrder}
    {e e' : BiometricError} (hv : PostResult verify (.error e))
    (hl : PostResult liveness (.error e')) :
    Answers (.error (exceptGroup (order.collect e e'))) ↔
      (verify.tooDeep → Cancelled liveness (order = .livenessFirst false)) ∧
      (liveness.tooDeep → Cancelled verify (order = .verifyFirst false)) := by
  cases hv with
  | unavailable hv hv' =>
    cases hl with
    | unavailable hl hl' => cases order with
      | verifyFirst both | livenessFirst both =>
        cases both <;> simp [GroupOrder.collect, exceptGroup_answers, hv', hl']
    | tooDeep hl hl' => cases order with
      | verifyFirst both | livenessFirst both =>
        cases both <;> simp [GroupOrder.collect, exceptGroup_answers, Cancelled, hv, hv', hl']
  | tooDeep hv hv' =>
    cases hl with
    | unavailable hl hl' | tooDeep hl hl' => cases order with
      | verifyFirst both | livenessFirst both =>
        cases both <;> simp [GroupOrder.collect, exceptGroup_answers, Cancelled, hl, hv', hl']

/-- Where one post fails and the other one reads a payload the body that fails must not nest too
deep. -/
theorem mxFace_answers_one {answer other : HttpAnswer} {alone : Bool} {e : BiometricError}
    {payload : Json} (h : PostResult answer (.error e)) (ho : PostResult other (.ok payload)) :
    Answers (.error (exceptGroup [e])) ↔ (answer.tooDeep → Cancelled other alone) := by
  cases ho with
  | reads ho =>
    cases h with
    | unavailable h h' => simp [exceptGroup_answers, h']
    | tooDeep h h' => simp [exceptGroup_answers, Cancelled, h', ho]

/-- Where both posts read a payload the adapter answers unless a score overflows or a verify payload
that is no object is read. -/
theorem mxFace_answers_read {v l : Json} :
    Answers (exceptMalformed do
      let scoreLiveness ← livenessScore floatStr l
      let scoreComparacion ← matchScore v
      return ⟨scoreLiveness, scoreComparacion, "mxface"⟩) ↔
      (∀ score, l.field? "livenessScore" = some score → ¬ score.TooLarge) ∧
        (LivenessReads floatStr l → v.isObject = true) := by
  rw [answers_exceptMalformed]
  dsimp only [bind, Except.bind]
  cases hscore : livenessScore floatStr l with
  | error e =>
    -- nothing of the verify payload is read
    have hreads : ¬ LivenessReads floatStr l := by
      rw [← livenessScore_ok, hscore]
      simp
    simp only [reduceCtorEq, false_imp_iff, implies_true, true_and, Except.error.injEq,
      forall_eq', caught_iff_of_livenessScore hscore, hreads, and_true]
  | ok q =>
    have hq := livenessScore_inUnit hscore
    have hreads : LivenessReads floatStr l := livenessScore_ok.1 ⟨q, hscore⟩
    have hsmall := small_of_livenessScore hscore
    cases hobj : v.isObject with
    | false =>
      simp [matchScore_not_object hobj, Caught, hreads]
    | true =>
      rcases matchScore_object hobj with ⟨q', hmatch, hq'⟩ | ⟨e, hmatch, hcaught⟩
      · simpa [hmatch, pure, Except.pure, hq, hq'] using hsmall
      · simpa [hmatch, hcaught] using hsmall

/-- **MxFace.** The adapter answers exactly what is digestible. -/
theorem mxFace_answers_iff {verify liveness : HttpAnswer} {order : GroupOrder} :
    Answers (mxFaceEvaluate floatStr verify liveness order) ↔
      Digestible floatStr (.mxFace verify liveness order) := by
  have hverify := post_result "/face/verify" verify
  have hliveness := post_result "/face/Liveness" liveness
  unfold mxFaceEvaluate
  generalize post "/face/verify" verify = rv at hverify
  generalize post "/face/Liveness" liveness = rl at hliveness
  cases rv with
  | error e =>
    simp only [Digestible, hverify.failed, reduceCtorEq, false_imp_iff, implies_true, and_true]
    cases rl with
    | error e' => exact mxFace_answers_failed hverify hliveness
    | ok l =>
      simp only [hliveness.read.2, Bool.false_eq_true, false_imp_iff, and_true]
      exact mxFace_answers_one hverify hliveness
  | ok v =>
    obtain ⟨hread, hdeep⟩ := hverify.read
    cases rl with
    | error e =>
      simp only [Digestible, hliveness.failed, hdeep, reduceCtorEq, Bool.false_eq_true,
        false_imp_iff, implies_true, and_true, true_and]
      exact mxFace_answers_one hliveness hverify
    | ok l =>
      obtain ⟨hread', hdeep'⟩ := hliveness.read
      have hdig : Digestible floatStr (.mxFace verify liveness order) ↔
          (∀ score, l.field? "livenessScore" = some score → ¬ score.TooLarge) ∧
            (LivenessReads floatStr l → v.isObject = true) := by
        simp [Digestible, hread, hread', hdeep, hdeep']
      rw [hdig]
      exact mxFace_answers_read

/-! ## The vision provider -/

/-- A score overflows on an integer that is too large. -/
theorem visionScore_overflow {key : String} :
    visionScore floatStr payload key = .error .overflowError ↔
      ∃ v, scoreField? payload key = some v ∧ v.TooLarge := by
  simp only [visionScore, bind, Except.bind, scoreField?, Option.bind_eq_some_iff,
    ← Json.subscript_ok]
  cases hsub : payload.subscript key with
  | error e => rcases Json.subscript_error hsub with rfl | rfl <;> simp
  | ok w =>
    simp only [Except.ok.injEq, exists_eq_left']
    cases hsub' : w.subscript "score" with
    | error e => rcases Json.subscript_error hsub' with rfl | rfl <;> simp
    | ok v => simp [Json.toFloat_overflow]

/-- What else it raises is caught. -/
theorem visionScore_error {key : String} (h : visionScore floatStr payload key = .error e) :
    e = .overflowError ∨ Caught e := by
  simp only [visionScore, bind, Except.bind] at h
  cases hsub : payload.subscript key with
  | error e' =>
    simp only [hsub] at h
    cases h
    exact .inr (.inr (Json.subscript_error hsub))
  | ok w =>
    simp only [hsub] at h
    cases hsub' : w.subscript "score" with
    | error e' =>
      simp only [hsub'] at h
      cases h
      exact .inr (.inr (Json.subscript_error hsub'))
    | ok v =>
      simp only [hsub'] at h
      rcases Json.toFloat_error h with hov | hval | htype
      · exact .inl hov
      · exact .inr (.inl hval)
      · exact .inr (.inr (.inr htype))

/-- It returns what `float` makes of the field. -/
theorem visionScore_ok {key : String} {x : Binary64} :
    visionScore floatStr payload key = .ok x ↔
      ∃ v, scoreField? payload key = some v ∧ v.toFloat floatStr = .ok x := by
  simp only [visionScore, bind, Except.bind, scoreField?, Option.bind_eq_some_iff,
    ← Json.subscript_ok]
  cases payload.subscript key with
  | error e => simp
  | ok w =>
    simp only [Except.ok.injEq, exists_eq_left']
    cases w.subscript "score" <;> simp

/-- Two scores that were read are returned if they are between 0 and 1. -/
theorem translate_of_scores {x y : Binary64} (hx : visionScore floatStr payload "liveness" = .ok x)
    (hy : visionScore floatStr payload "match" = .ok y) :
    (∃ r, translate floatStr payload = .ok r ∧ InUnit r.scoreLiveness ∧
      InUnit r.scoreComparacion) ∨ translate floatStr payload = .error .valueError := by
  simp only [translate, bind, Except.bind, hx, hy]
  split
  · split
    · next hrange => exact .inl ⟨_, rfl, hrange.1, hrange.2⟩
    · exact .inr rfl
  · exact .inr rfl

/-- What a score raises is caught unless it overflows. -/
theorem caught_iff_of_visionScore {key : String}
    (h : visionScore floatStr payload key = .error e) :
    Caught e ↔ ∀ score, scoreField? payload key = some score → ¬ score.TooLarge := by
  have hlarge : e = .overflowError ↔
      ∃ score, scoreField? payload key = some score ∧ score.TooLarge := by
    rw [← @visionScore_overflow floatStr, h, Except.error.injEq]
  rw [caught_iff_ne_overflow (visionScore_error h), ne_eq, hlarge]
  push Not
  rfl

/-- A score that was read was not too large. -/
theorem small_of_visionScore {key : String} {x : Binary64}
    (h : visionScore floatStr payload key = .ok x) :
    ∀ score, scoreField? payload key = some score → ¬ score.TooLarge := by
  intro score hfield hlarge
  have hover := (@visionScore_overflow floatStr payload key).2 ⟨score, hfield, hlarge⟩
  rw [h] at hover
  cases hover

/-- The translation of a payload, by what reading its two scores does. -/
theorem translate_answers_iff : Answers (exceptMalformed (translate floatStr payload)) ↔
    (∀ score, scoreField? payload "liveness" = some score → ¬ score.TooLarge) ∧
      ∀ score x, scoreField? payload "liveness" = some score → score.toFloat floatStr = .ok x →
        ∀ score', scoreField? payload "match" = some score' → ¬ score'.TooLarge := by
  have hread : (∀ score x, scoreField? payload "liveness" = some score →
      score.toFloat floatStr = .ok x →
        ∀ score', scoreField? payload "match" = some score' → ¬ score'.TooLarge) ↔
      ((∃ x, visionScore floatStr payload "liveness" = .ok x) →
        ∀ score', scoreField? payload "match" = some score' → ¬ score'.TooLarge) := by
    simp only [visionScore_ok]
    constructor
    · rintro h ⟨x, score, hfield, hfloat⟩
      exact h score x hfield hfloat
    · intro h score x hfield hfloat
      exact h ⟨x, score, hfield, hfloat⟩
  rw [hread, answers_exceptMalformed]
  cases hx : visionScore floatStr payload "liveness" with
  | error e =>
    have htranslate : translate floatStr payload = .error e := by
      simp only [translate, bind, Except.bind, hx]
    simp [htranslate, caught_iff_of_visionScore hx]
  | ok x =>
    have hsmall := small_of_visionScore hx
    cases hy : visionScore floatStr payload "match" with
    | error e =>
      have htranslate : translate floatStr payload = .error e := by
        simp only [translate, bind, Except.bind, hx, hy]
      simp only [htranslate, reduceCtorEq, false_imp_iff, implies_true, true_and,
        Except.error.injEq, forall_eq', caught_iff_of_visionScore hy]
      exact ⟨fun h => ⟨hsmall, fun _ => h⟩, fun h => h.2 ⟨x, rfl⟩⟩
    | ok y =>
      have hsmall' := small_of_visionScore hy
      refine iff_of_true ?_ ⟨hsmall, fun _ => hsmall'⟩
      rcases translate_of_scores hx hy with ⟨r, hr, hunit⟩ | hr
      · simpa [hr] using hunit
      · simp [hr, Caught]

/-- **The vision provider.** The adapter answers exactly what is digestible. -/
theorem vision_answers_iff {answer : HttpAnswer} :
    Answers (visionEvaluate floatStr answer) ↔ Digestible floatStr (.vision answer) := by
  cases answer with
  | httpError name => exact iff_of_true trivial ⟨rfl, nofun⟩
  | response status body =>
    simp only [visionEvaluate, Digestible]
    by_cases hs : 400 ≤ status
    · refine iff_of_true ?_ ⟨?_, ?_⟩
      · split <;> trivial
      · cases body <;> simp [HttpAnswer.tooDeep, hs]
      · cases body <;> simp [HttpAnswer.payload?, hs]
    · rw [if_neg (by omega), if_neg hs]
      cases body with
      | json payload =>
        simp only [HttpAnswer.tooDeep, HttpAnswer.payload?, if_neg hs, Option.some.injEq,
          forall_eq', true_and]
        exact translate_answers_iff
      | notJson => exact iff_of_true trivial ⟨rfl, nofun⟩
      | tooDeep => exact iff_of_false id (by simp [HttpAnswer.tooDeep, hs])

/-! ## Both adapters and the wrapper -/

/-- The wrapper never raises around an adapter that answers. -/
theorem tame_iff_answers {provider : Provider} :
    Tame floatStr provider ↔ Answers (provider.evaluate floatStr) := by
  refine ⟨Tame.adapter, fun h => ⟨h, fun verdict => ?_⟩⟩
  generalize provider.evaluate floatStr = inner at h
  cases verdict with
  | rejects | timesOut => exact .inl rfl
  | awaits =>
    match inner, h with
    | .ok r, _ => exact .inr ⟨r, rfl, rfl⟩
    | .error (.providerUnavailable _), _ => exact .inl rfl

/-- A translation that returns has raised nothing that is caught. -/
theorem exceptMalformed_ok {α : Type} {x : Except PyError α} {a : α}
    (h : exceptMalformed x = .ok a) : x = .ok a := by
  cases x with
  | ok b => exact congrArg Except.ok (Except.ok.inj h)
  | error e => cases e <;> cases h

/-- What `_match_score` returns is 0 or 1. -/
theorem matchScore_inUnit (h : matchScore payload = .ok q) : InUnit q := by
  cases hobj : payload.isObject with
  | false => rw [matchScore_not_object hobj] at h; cases h
  | true =>
    rcases matchScore_object hobj with ⟨q', hq, hunit⟩ | ⟨e, he, -⟩
    · rw [hq] at h
      cases h
      exact hunit
    · rw [he] at h
      cases h

/-- What `_translate` returns was checked. -/
theorem translate_inUnit {r : BiometricResult} (h : translate floatStr payload = .ok r) :
    InUnit r.scoreLiveness ∧ InUnit r.scoreComparacion := by
  simp only [translate, bind, Except.bind] at h
  split at h
  · cases h
  split at h
  · cases h
  split at h
  · split at h <;> cases h
    next hrange => exact hrange
  · cases h

/-- Whatever the provider answers, the scores that its adapter returns are between 0 and 1. -/
theorem Provider.evaluate_inUnit {provider : Provider} {r : BiometricResult}
    (h : provider.evaluate floatStr = .ok r) :
    InUnit r.scoreLiveness ∧ InUnit r.scoreComparacion := by
  cases provider with
  | mxFace verify liveness order =>
    simp only [evaluate, mxFaceEvaluate] at h
    split at h
    · cases h
    · cases h
    · cases h
    have h := exceptMalformed_ok h
    simp only [bind, Except.bind] at h
    split at h
    · cases h
    next hliveness =>
    split at h
    · cases h
    next hmatch =>
    cases h
    exact ⟨livenessScore_inUnit hliveness, matchScore_inUnit hmatch⟩
  | vision answer =>
    cases answer with
    | httpError => cases h
    | response status body =>
      simp only [evaluate, visionEvaluate] at h
      split at h
      · cases h
      split at h
      · cases h
      have h := exceptMalformed_ok h
      cases body with
      | json payload => exact translate_inUnit h
      | notJson | tooDeep => cases h

/-- The scores of the mock are between 0 and 1. -/
theorem mockScores_inUnit (marker : String) :
    InUnit (mockScores marker).1 ∧ InUnit (mockScores marker).2 := by
  unfold mockScores
  split <;> exact ⟨Binary64.nearest_mem_unit (by norm_num) (by norm_num),
    Binary64.nearest_mem_unit (by norm_num) (by norm_num)⟩

/-- So it is with every adapter of the factory. -/
theorem BiometricResult.OfAdapter.inUnit {r : BiometricResult} (h : r.OfAdapter) :
    InUnit r.scoreLiveness ∧ InUnit r.scoreComparacion := by
  cases h with
  | http h => exact Provider.evaluate_inUnit h
  | mock h =>
    unfold mockEvaluate at h
    split at h
    · cases h
    dsimp only at h
    split at h <;> cases h
    exact mockScores_inUnit _

/-- **When a misbehaving provider is inconclusive.** The adapter returns scores between 0 and 1 or
raises `ProviderUnavailable`, and the wrapper returns what it returns or `None`, exactly when what
the provider answers is digestible. -/
theorem provider_inconclusive_iff (floatStr : String → Option Binary64) (provider : Provider) :
    Tame floatStr provider ↔ Digestible floatStr provider := by
  rw [tame_iff_answers]
  cases provider with
  | mxFace verify liveness order => exact mxFace_answers_iff
  | vision answer => exact vision_answers_iff

/-- A verify payload that is a list, next to a liveness score that is fine. -/
def listPayload : Provider :=
  .mxFace (.response 200 (.json (.array []))) (.response 200 (.json (.object
    [("livenessScore", .float (.fin 90))]))) (.verifyFirst false)

/-- `MxFaceAdapter` raises an `AttributeError` there. -/
theorem provider_not_inconclusive :
    ¬ ∀ (floatStr : String → Option Binary64) (provider : Provider), Tame floatStr provider := by
  intro h
  have hdig : Digestible (fun _ => none) listPayload :=
    mxFace_answers_iff.1 (h (fun _ => none) listPayload).adapter
  have hobj := (hdig.2.2 _ _ rfl rfl).2 ⟨.float (.fin 90), 90, rfl, rfl, by norm_num, by norm_num⟩
  cases hobj

end Aeropass
