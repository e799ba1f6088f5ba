import Aeropass.Domain.Verification
import Aeropass.Lib.PyJson

/-!
# The biometric adapters

`MxFaceAdapter` and `VisionProviderAdapter` on what their HTTP calls answer, `MockBiometricAdapter`,
and `ResilientBiometricProvider` around them. The first two turn three exceptions of their
translation into `ProviderUnavailable`; the wrapper turns that, an open circuit and a timeout into
no verdict. A body that nests too deep for `json` is not among them: decoding it raises
`RecursionError`.
-/

namespace Aeropass

/-- What an adapter may raise: an exception of its operations on the payload, a group that holds
one, or those that the wrapper knows. -/
inductive BiometricError where
  | python (e : PyError)
  | exceptionGroup
  | providerUnavailable (message : String)
  | circuitOpen
  | timeout
  deriving DecidableEq, Repr

/-- What `response.json()` does with a body: it returns a value, raises a `ValueError` because the
body is not JSON, or raises `RecursionError` because it nests too deep. -/
inductive HttpBody where
  | json (payload : Json)
  | notJson
  | tooDeep

/-- What an HTTP call answers: an `httpx.HTTPError`, or a response with its status and its body. -/
inductive HttpAnswer where
  | httpError (name : String)
  | response (status : Nat) (body : HttpBody)

/-- The value that an adapter reads: JSON under a status that is no error. -/
def HttpAnswer.payload? : HttpAnswer → Option Json
  | .response status (.json payload) => if 400 ≤ status then none else some payload
  | _ => none

/-- Under such a status the body nests too deep. -/
def HttpAnswer.tooDeep : HttpAnswer → Bool
  | .response status .tooDeep => !(400 ≤ status : Bool)
  | _ => false

def malformed : BiometricError := .providerUnavailable "malformed provider response"

/-- `except (ValueError, KeyError, TypeError) as exc: raise ProviderUnavailable(…) from exc`. -/
def exceptMalformed {α : Type} (x : Except PyError α) : Except BiometricError α :=
  match x with
  | .ok a => .ok a
  | .error .valueError | .error .keyError | .error .typeError => .error malformed
  | .error e => .error (.python e)

section
variable (floatStr : String → Option Binary64)

/-! ## MxFace -/

/-- `_post`. -/
def post (path : String) : HttpAnswer → Except BiometricError Json
  | .httpError name => .error (.providerUnavailable name)
  | .response status body =>
    if 400 ≤ status then
      .error (.providerUnavailable ("provider status " ++ toString status ++ " on " ++ path))
    else match body with
      | .json payload => .ok payload
      | .notJson => .error malformed
      | .tooDeep => .error (.python .recursionError)

/-- `_match_score`. -/
def matchScore (payload : Json) : Except PyError ℚ := do
  let faces ← payload.get "matchedFaces"
  let matched := if faces.truthy then faces else .array []
  if !matched.truthy then return 0
  let face ← matched.first
  let result ← face.subscript "matchResult"
  return if result.eqOne then 1 else 0

/-- `_liveness_score`; `nan` and the infinities fail the comparison. -/
def livenessScore (payload : Json) : Except PyError ℚ := do
  match ← (← payload.subscript "livenessScore").toFloat floatStr with
  | .fin score =>
    if 0 ≤ score ∧ score ≤ 100 then return Binary64.nearest (score / 100)
    else throw .valueError
  | _ => throw .valueError

/-- Which of two failing calls the task group collects: the first one to fail, which cancels the
other, or both, if the other one fails before the cancellation. -/
inductive GroupOrder where
  | verifyFirst (both : Bool)
  | livenessFirst (both : Bool)
  deriving DecidableEq, Repr

/-- The exceptions that the group collects, in order. -/
def GroupOrder.collect (e e' : BiometricError) : GroupOrder → List BiometricError
  | .verifyFirst both => if both then [e, e'] else [e]
  | .livenessFirst both => if both then [e', e] else [e']

/-- `except* ProviderUnavailable as group: raise group.exceptions[0]`; a group that holds another
exception is raised. -/
def exceptGroup (es : List BiometricError) : BiometricError :=
  if es.all fun
    | .providerUnavailable _ => true
    | _ => false
  then es.headD .exceptionGroup else .exceptionGroup

/-- `MxFaceAdapter.evaluate`. -/
def mxFaceEvaluate (verify liveness : HttpAnswer) (order : GroupOrder) :
    Except BiometricError BiometricResult :=
  match post "/face/verify" verify, post "/face/Liveness" liveness with
  | .error e, .error e' => .error (exceptGroup (order.collect e e'))
  | .error e, .ok _ => .error (exceptGroup [e])
  | .ok _, .error e => .error (exceptGroup [e])
  | .ok verify, .ok liveness =>
    exceptMalformed do
      let scoreLiveness ← livenessScore floatStr liveness
      let scoreComparacion ← matchScore verify
      return ⟨scoreLiveness, scoreComparacion, "mxface"⟩

/-! ## The vision provider -/

/-- A score of the payload. -/
def visionScore (payload : Json) (key : String) : Except PyError Binary64 := do
  (← (← payload.subscript key).subscript "score").toFloat floatStr

/-- `_translate`. -/
def translate (payload : Json) : Except PyError BiometricResult := do
  let liveness ← visionScore floatStr payload "liveness"
  let matched ← visionScore floatStr payload "match"
  match liveness, matched with
  | .fin liveness, .fin matched =>
    if (0 ≤ liveness ∧ liveness ≤ 1) ∧ 0 ≤ matched ∧ matched ≤ 1 then
      return ⟨liveness, matched, "vision"⟩
    else throw .valueError
  | _, _ => throw .valueError

/-- `VisionProviderAdapter.evaluate`. -/
def visionEvaluate : HttpAnswer → Except BiometricError BiometricResult
  | .httpError name => .error (.providerUnavailable name)
  | .response status body =>
    if 500 ≤ status ∨ status = 429 then
      .error (.providerUnavailable ("provider status " ++ toString status))
    else if 400 ≤ status then
      .error (.providerUnavailable ("provider rejected request (" ++ toString status ++ ")"))
    else exceptMalformed <|
      match body with
      | .json payload => translate floatStr payload
      | .notJson => throw .valueError
      | .tooDeep => throw .recursionError

/-! ## The mock -/

/-- `MARKER_PREFIX`, the bytes of `MOCK:`. -/
def markerPrefix : List UInt8 := [0x4d, 0x4f, 0x43, 0x4b, 0x3a]

/-- `bytes.isalnum` of one byte. -/
def isAlnum (b : UInt8) : Bool :=
  (0x30 ≤ b && b ≤ 0x39) || (0x41 ≤ b && b ≤ 0x5a) || (0x61 ≤ b && b ≤ 0x7a)

/-- `read_marker`: the letters and digits behind the first prefix, if there are any. -/
def readMarker : List UInt8 → Option String
  | [] => none
  | b :: bs =>
    if markerPrefix.isPrefixOf (b :: bs) then
      let marker := ((b :: bs).drop markerPrefix.length).takeWhile isAlnum
      if marker.isEmpty then none
      else some (String.ofList (marker.map fun b => Char.ofNat b.toNat))
    else readMarker bs

/-- `_SCORES`, with those of `ok` for every other marker. -/
def mockScores : String → ℚ × ℚ
  | "spoof" => (Binary64.nearest (20 / 100), Binary64.nearest (90 / 100))
  | "other" => (Binary64.nearest (95 / 100), Binary64.nearest (30 / 100))
  | _ => (Binary64.nearest (95 / 100), Binary64.nearest (93 / 100))

/-- `MockBiometricAdapter.evaluate`. -/
def mockEvaluate (selfie referencia : ImageInput) : Except BiometricError BiometricResult :=
  if referencia.data.isEmpty then .error (.providerUnavailable "empty reference image")
  else
    let marker := (readMarker selfie.data).getD "ok"
    if marker = "timeout" then .error (.providerUnavailable "mock timeout")
    else .ok ⟨(mockScores marker).1, (mockScores marker).2, "mock"⟩

/-! ## The wrapper -/

/-- The adapters with what their calls answer. -/
inductive Provider where
  | mxFace (verify liveness : HttpAnswer) (order : GroupOrder)
  | vision (answer : HttpAnswer)

/-- `inner.evaluate`. -/
def Provider.evaluate : Provider → Except BiometricError BiometricResult
  | .mxFace verify liveness order => mxFaceEvaluate floatStr verify liveness order
  | .vision answer => visionEvaluate floatStr answer

end

/-- A result of one of the adapters that `BiometricProviderFactory` creates. -/
inductive BiometricResult.OfAdapter (r : BiometricResult) : Prop
  | http {floatStr provider} : Provider.evaluate floatStr provider = .ok r → OfAdapter r
  | mock {selfie referencia} : mockEvaluate selfie referencia = .ok r → OfAdapter r

/-- What the breaker does with a call: reject it, give up on it, or answer what it does. -/
inductive BreakerVerdict where
  | rejects | timesOut | awaits
  deriving DecidableEq, Repr

/-- `CircuitBreaker.call`. -/
def BreakerVerdict.call {α : Type} (fn : Except BiometricError α) :
    BreakerVerdict → Except BiometricError α
  | .rejects => .error .circuitOpen
  | .timesOut => .error .timeout
  | .awaits => fn

/-- `ResilientBiometricProvider.evaluate`. -/
def resilientEvaluate (inner : Except BiometricError BiometricResult) (verdict : BreakerVerdict) :
    Except BiometricError (Option BiometricResult) :=
  match verdict.call inner with
  | .ok result => .ok (some result)
  | .error (.providerUnavailable _) | .error .circuitOpen | .error .timeout => .ok none
  | .error e => .error e

end Aeropass
