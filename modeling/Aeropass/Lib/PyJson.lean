import Aeropass.Lib.Binary64

/-!
# Decoded JSON in Python

The values that `json.loads` yields and the partial operations on them, each with the exception that
it raises on a value of another shape. What `float()` and `int()` read in a string is a parameter:
`none` where they raise `ValueError`.
-/

/-- The exceptions of decoding JSON and of operations on what it yields. -/
inductive PyError where
  | valueError | keyError | indexError | typeError | attributeError | overflowError
  | recursionError
  deriving DecidableEq, Repr

/-- `None`, a `bool`, an `int`, a `float`, a `str`, a `list` or a `dict`. -/
inductive Json where
  | null
  | bool (b : Bool)
  | int (n : Int)
  | float (x : Binary64)
  | str (s : String)
  | array (items : List Json)
  | object (fields : List (String × Json))

namespace Json

mutual

/-- Equality of values is decided along their structure. -/
def decEq : (v w : Json) → Decidable (v = w)
  | .null, .null => isTrue rfl
  | .bool b, .bool c => decidable_of_iff (b = c) ⟨congrArg _, Json.bool.inj⟩
  | .int n, .int m => decidable_of_iff (n = m) ⟨congrArg _, Json.int.inj⟩
  | .float x, .float y => decidable_of_iff (x = y) ⟨congrArg _, Json.float.inj⟩
  | .str s, .str t => decidable_of_iff (s = t) ⟨congrArg _, Json.str.inj⟩
  | .array xs, .array ys =>
    have := decEqItems xs ys
    decidable_of_iff (xs = ys) ⟨congrArg _, Json.array.inj⟩
  | .object d, .object e =>
    have := decEqFields d e
    decidable_of_iff (d = e) ⟨congrArg _, Json.object.inj⟩
  | .null, .bool _ | .null, .int _ | .null, .float _ | .null, .str _ | .null, .array _
  | .null, .object _ | .bool _, .null | .bool _, .int _ | .bool _, .float _ | .bool _, .str _
  | .bool _, .array _ | .bool _, .object _ | .int _, .null | .int _, .bool _ | .int _, .float _
  | .int _, .str _ | .int _, .array _ | .int _, .object _ | .float _, .null | .float _, .bool _
  | .float _, .int _ | .float _, .str _ | .float _, .array _ | .float _, .object _ | .str _, .null
  | .str _, .bool _ | .str _, .int _ | .str _, .float _ | .str _, .array _ | .str _, .object _
  | .array _, .null | .array _, .bool _ | .array _, .int _ | .array _, .float _ | .array _, .str _
  | .array _, .object _ | .object _, .null | .object _, .bool _ | .object _, .int _
  | .object _, .float _ | .object _, .str _ | .object _, .array _ => isFalse (by intro h; cases h)

def decEqItems : (xs ys : List Json) → Decidable (xs = ys)
  | [], [] => isTrue rfl
  | [], _ :: _ | _ :: _, [] => isFalse (by intro h; cases h)
  | x :: xs, y :: ys =>
    have := decEq x y
    have := decEqItems xs ys
    decidable_of_iff (x = y ∧ xs = ys) List.cons_eq_cons.symm

def decEqFields : (d e : List (String × Json)) → Decidable (d = e)
  | [], [] => isTrue rfl
  | [], _ :: _ | _ :: _, [] => isFalse (by intro h; cases h)
  | (k, v) :: d, (l, w) :: e =>
    have := decEq v w
    have := decEqFields d e
    decidable_of_iff ((k = l ∧ v = w) ∧ d = e) (by rw [List.cons_eq_cons, Prod.mk.injEq])

end

instance : DecidableEq Json := decEq

/-- `bool(v)`. -/
def truthy : Json → Bool
  | .null => false
  | .bool b => b
  | .int n => n ≠ 0
  | .float x => x ≠ .fin 0
  | .str s => s ≠ ""
  | .array items => !items.isEmpty
  | .object fields => !fields.isEmpty

/-- The value of a key of a `dict`. -/
def field? (key : String) : Json → Option Json
  | .object fields => fields.lookup key
  | _ => none

/-- `v is None`. -/
def isNull : Json → Bool
  | .null => true
  | _ => false

/-- `v == s` for a string. -/
def eqStr (s : String) : Json → Bool
  | .str t => t = s
  | _ => false

/-- `isinstance(v, str)`. -/
def isStr : Json → Bool
  | .str _ => true
  | _ => false

/-- `isinstance(v, dict)`. -/
def isObject : Json → Bool
  | .object _ => true
  | _ => false

/-- `v[key]`. -/
def subscript (key : String) : Json → Except PyError Json
  | .object fields =>
    match fields.lookup key with
    | some v => .ok v
    | none => .error .keyError
  | _ => .error .typeError

/-- `v[0]`; the keys of a `dict` are strings. -/
def first : Json → Except PyError Json
  | .array (item :: _) => .ok item
  | .array [] => .error .indexError
  | .str s =>
    match s.toList with
    | c :: _ => .ok (.str (String.singleton c))
    | [] => .error .indexError
  | .object _ => .error .keyError
  | _ => .error .typeError

/-- `v.get(key)`. -/
def get (key : String) : Json → Except PyError Json
  | .object fields => .ok ((fields.lookup key).getD .null)
  | _ => .error .attributeError

/-- `v == 1`. -/
def eqOne : Json → Bool
  | .bool b => b
  | .int n => n = 1
  | .float x => x = .fin 1
  | _ => false

/-- `float(v)`. -/
def toFloat (floatStr : String → Option Binary64) : Json → Except PyError Binary64
  | .bool b => .ok (.fin (if b then 1 else 0))
  | .int n =>
    match Binary64.ofInt n with
    | some x => .ok x
    | none => .error .overflowError
  | .float x => .ok x
  | .str s =>
    match floatStr s with
    | some x => .ok x
    | none => .error .valueError
  | _ => .error .typeError

/-- `int(v)`: a finite double is truncated. -/
def toInt (intStr : String → Option Int) : Json → Except PyError Int
  | .bool b => .ok (if b then 1 else 0)
  | .int n => .ok n
  | .float (.fin x) => .ok (Binary64.truncate x)
  | .float .nan => .error .valueError
  | .float (.inf _) => .error .overflowError
  | .str s =>
    match intStr s with
    | some n => .ok n
    | none => .error .valueError
  | _ => .error .typeError

/-- An integer that is too large for a double. -/
def TooLarge : Json → Prop
  | .int n => Binary64.overflowAt ≤ |n|
  | _ => False

variable {v w : Json} {key : String} {floatStr : String → Option Binary64} {e : PyError}

theorem exists_of_isStr (h : v.isStr = true) : ∃ s, v = .str s := by
  cases v with
  | str s => exact ⟨s, rfl⟩
  | _ => cases h

theorem exists_of_isObject (h : v.isObject = true) : ∃ fields, v = .object fields := by
  cases v with
  | object fields => exact ⟨fields, rfl⟩
  | _ => cases h

/-- A subscript is the value of the key of a `dict`. -/
theorem subscript_ok : v.subscript key = .ok w ↔ v.field? key = some w := by
  cases v with
  | object fields =>
    simp only [subscript, field?]
    cases fields.lookup key <;> simp
  | _ => simp [subscript, field?]

/-- What it raises otherwise. -/
theorem subscript_error (h : v.subscript key = .error e) : e = .keyError ∨ e = .typeError := by
  unfold subscript at h
  split at h
  · split at h <;> cases h
    exact .inl rfl
  · cases h
    exact .inr rfl

/-- `float` overflows on integers that are too large. -/
theorem toFloat_overflow : v.toFloat floatStr = .error .overflowError ↔ v.TooLarge := by
  cases v with
  | int n =>
    simp only [toFloat, TooLarge, Binary64.ofInt]
    split <;> simp_all
  | str s =>
    simp only [toFloat, TooLarge, iff_false]
    cases floatStr s <;> simp
  | _ => simp [toFloat, TooLarge]

/-- What else it raises. -/
theorem toFloat_error (h : v.toFloat floatStr = .error e) :
    e = .overflowError ∨ e = .valueError ∨ e = .typeError := by
  unfold toFloat at h
  split at h
  · cases h
  · split at h <;> cases h
    exact .inl rfl
  · cases h
  · split at h <;> cases h
    exact .inr (.inl rfl)
  · cases h
    exact .inr (.inr rfl)

/-- A value with a truth value has a first element, or is none that has one. -/
theorem first_error (ht : v.truthy = true) (h : v.first = .error e) :
    e = .keyError ∨ e = .typeError := by
  unfold first at h
  split at h
  · cases h
  · cases ht
  · next s =>
    split at h
    · cases h
    · next hs =>
      rw [String.toList_eq_nil_iff.1 hs] at ht
      cases ht
  · cases h
    exact .inl rfl
  · cases h
    exact .inr rfl

end Json
