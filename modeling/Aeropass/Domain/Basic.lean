import Aeropass.Lib.Binary64
import Mathlib.Tactic.Common

/-!
# Identifiers, instants, enumerations and errors

The vocabulary of the domain modules: UUIDs as their 128 bits, timezone-aware UTC instants as
microseconds since the epoch (the resolution of `datetime`), the enumerations of `domain/enums.py`
and the exceptions of `domain/errors.py` with the data the services put into them.
-/

namespace Aeropass

/-- `uuid.UUID`. -/
abbrev UUID := BitVec 128

/-- A hexadecimal digit. -/
def hexDigit (n : Nat) : Char := if n < 10 then Char.ofNat (48 + n) else Char.ofNat (87 + n)

/-- `str(uuid)`: 32 hexadecimal digits in groups of 8, 4, 4, 4 and 12. -/
def UUID.str (u : UUID) : String :=
  let digit (i : Nat) : Char := hexDigit (u.toNat >>> (4 * (31 - i)) % 16)
  String.ofList <| (List.range 32).flatMap fun i =>
    if i = 8 ∨ i = 12 ∨ i = 16 ∨ i = 20 then ['-', digit i] else [digit i]

theorem hexDigit_inj : ∀ m < 16, ∀ n < 16, hexDigit m = hexDigit n → m = n := by decide

theorem hexDigit_ne_hyphen : ∀ n < 16, hexDigit n ≠ '-' := by decide

/-- Without the hyphens a UUID is its 32 digits. -/
theorem UUID.filter_str (u : UUID) : u.str.toList.filter (· ≠ '-') =
    (List.range 32).map fun i => hexDigit (u.toNat >>> (4 * (31 - i)) % 16) := by
  simp only [UUID.str, String.toList_ofList, List.filter_flatMap]
  rw [List.map_eq_flatMap]
  congr 1
  funext i
  have h := hexDigit_ne_hyphen (u.toNat >>> (4 * (31 - i)) % 16) (Nat.mod_lt _ (by omega))
  split <;> simp [h]

/-- `str` distinguishes UUIDs: bit `j` is in digit `31 - j / 4`. -/
theorem UUID.str_inj {u v : UUID} (h : u.str = v.str) : u = v := by
  have hd := congrArg (fun s : String => s.toList.filter (· ≠ '-')) h
  simp only [UUID.filter_str, List.map_inj_left, List.mem_range] at hd
  apply BitVec.eq_of_getLsbD_eq
  intro j hj
  have hdigit := hexDigit_inj _ (Nat.mod_lt _ (by omega)) _ (Nat.mod_lt _ (by omega))
    (hd (31 - j / 4) (by omega))
  have hbit := congrArg (fun n => n.testBit (j % 4)) hdigit
  have hj' : 4 * (31 - (31 - j / 4)) + j % 4 = j := by omega
  have hlt : j % 4 < 4 := by omega
  simp only [show (16 : Nat) = 2 ^ 4 from rfl, Nat.testBit_mod_two_pow, Nat.testBit_shiftRight,
    hj', hlt] at hbit
  simpa [BitVec.getLsbD] using hbit

/-- A UTC `datetime`, in microseconds since the epoch. -/
abbrev Instant := Int

/-- A `date`, in days since the epoch. -/
abbrev Date := Int

/-- `timedelta(seconds=n)`. -/
def seconds (n : Int) : Int := n * 1000000

/-- `datetime.date()`. -/
def Instant.date (t : Instant) : Date := t / seconds 86400

/-- `datetime.timestamp()`: the seconds since the epoch, as the nearest double. -/
def Instant.epochSeconds (t : Instant) : ℚ := Binary64.nearest (t / 1000000)

/-- `int(datetime.timestamp())` of the exact seconds: truncated towards zero. Up to `2 ^ 34` seconds
from the epoch the nearest double gives the same (`Instant.truncate_epochSeconds`). -/
def Instant.timestamp (t : Instant) : Int := t.tdiv 1000000

/-- The doubles of the timestamps keep their order. -/
theorem Instant.epochSeconds_mono {t t' : Instant} (h : t ≤ t') :
    t.epochSeconds ≤ t'.epochSeconds := by
  have hcast : (t : ℚ) ≤ t' := Int.cast_le.2 h
  exact Binary64.nearest_mono (div_le_div_of_nonneg_right hcast (by norm_num))

theorem Instant.epochSeconds_nonneg {t : Instant} (h : 0 ≤ t) : 0 ≤ t.epochSeconds := by
  have hcast : (0 : ℚ) ≤ t := Int.cast_nonneg h
  exact Binary64.nearest_nonneg (div_nonneg hcast (by norm_num))

/-- Up to 2^34 s the nearest double of an instant has its whole seconds. -/
theorem Instant.floor_epochSeconds {t : Instant} (h0 : 0 ≤ t) (h : t < seconds (2 ^ 34)) :
    ⌊t.epochSeconds⌋ = t.timestamp := by
  obtain ⟨t, rfl⟩ : ∃ t' : Int, t = t' := ⟨t, rfl⟩
  have hwhole : ⌊(t : ℚ) / 1000000⌋ = t / 1000000 := by
    exact_mod_cast Rat.floor_intCast_div_natCast t 1000000
  have hlt : (t : ℚ) < 2 ^ 34 * 1000000 := by exact_mod_cast h
  have hpos : (0 : ℚ) ≤ t := Int.cast_nonneg h0
  -- at least one microsecond is missing to the next second
  have hnext : (t : ℚ) + 1 ≤ ((t / 1000000 : ℤ) + 1) * 1000000 := by
    have hlt := Int.lt_ediv_add_one_mul_self t (show (0 : Int) < 1000000 by decide)
    exact_mod_cast Int.add_one_le_of_lt hlt
  rw [epochSeconds, Binary64.floor_nearest (n := 34) (by positivity) (by norm_num) (by norm_num)
    ?_ ?_, hwhole, timestamp, Int.tdiv_eq_ediv_of_nonneg h0]
  · rw [div_lt_iff₀ (by norm_num)]
    exact_mod_cast hlt
  · rw [hwhole]
    have hunit : (2 : ℚ) ^ (34 - 53 : ℤ) / 2 < 1 / 1000000 := by norm_num
    have hdiv : (t : ℚ) / 1000000 + 1 / 1000000 ≤ (t / 1000000 : ℤ) + 1 := by
      rw [← add_div, div_le_iff₀ (by norm_num)]
      exact hnext
    linarith

/-- Up to `2 ^ 34` seconds from the epoch a microsecond is more than half a unit in the last place,
so no timestamp is rounded to a whole second that it has not reached. -/
theorem Instant.truncate_epochSeconds {t : Instant} (h : t < seconds (2 ^ 34))
    (h' : -t < seconds (2 ^ 34)) : Binary64.truncate t.epochSeconds = t.timestamp := by
  rcases Int.le_total 0 t with h0 | h0
  · rw [Binary64.truncate_of_nonneg (epochSeconds_nonneg h0), floor_epochSeconds h0 h]
  · have hneg : 0 ≤ -t := Int.neg_nonneg_of_nonpos h0
    have hmirror : t.epochSeconds = -Instant.epochSeconds (-t) := by
      rw [epochSeconds, epochSeconds, ← Binary64.nearest_neg, Int.cast_neg, neg_div, neg_neg]
    rw [hmirror, Binary64.truncate_neg, Binary64.truncate_of_nonneg (epochSeconds_nonneg hneg),
      floor_epochSeconds hneg h', timestamp, timestamp, Int.neg_tdiv, Int.neg_neg]

inductive TipoDocumento where
  | cc | ce | pasaporte
  deriving DecidableEq, Repr

inductive EstadoPasajero where
  | pendienteVerificacion | verificado | requiereRevisionManual
  deriving DecidableEq, Repr

inductive ResultadoIntento where
  | exitoso | fallido | noConcluyente
  deriving DecidableEq, Repr

inductive MotivoFallo where
  | liveness | comparacion
  deriving DecidableEq, Repr

inductive EstadoIdentidad where
  | activa | revocada
  deriving DecidableEq, Repr

inductive EstadoCredencial where
  | emitida | activa | consumida | expirada | revocada
  deriving DecidableEq, Repr

inductive EstadoEvento where
  | pendiente | entregado
  deriving DecidableEq, Repr

/-- The subclasses of `DomainError` that the services raise. -/
inductive ErrorClass where
  | datosInvalidos | documentoVencido | documentoVencidoParaPase | documentoYaRegistrado
  | cuentaYaRegistrada | pasajeroNoRegistrado | estadoNoPermiteVerificacion
  | imagenDemasiadoGrande | formatoNoAdmitido | almacenamientoNoDisponible | identidadNoActiva
  | limiteEmisionExcedido | credencialNoEncontrada
  deriving DecidableEq, Repr

/-- `mensaje_por_defecto`. -/
def ErrorClass.mensajePorDefecto : ErrorClass → String
  | .datosInvalidos => "Invalid data"
  | .documentoVencido | .documentoVencidoParaPase => "The document has expired"
  | .documentoYaRegistrado => "The document is already registered by another account"
  | .cuentaYaRegistrada => "The account already registered a different document"
  | .pasajeroNoRegistrado => "The account has not registered its document yet"
  | .estadoNoPermiteVerificacion => "The passenger status does not allow new verifications"
  | .imagenDemasiadoGrande => "The image exceeds the maximum size of 4 MB"
  | .formatoNoAdmitido => "Unsupported image format (JPEG, PNG or WebP)"
  | .almacenamientoNoDisponible => "Storage is unavailable, please retry later"
  | .identidadNoActiva => "The passenger has no active digital identity"
  | .limiteEmisionExcedido => "The per-minute issuance limit was exceeded"
  | .credencialNoEncontrada => "The credential does not exist"

/-- An instance of a `DomainError`: `campos` is `detalles["campos"]`. -/
structure DomainError where
  clase : ErrorClass
  mensaje : String := clase.mensajePorDefecto
  campos : Option (List String) := none
  retryAfter : Option Int := none
  deriving DecidableEq, Repr

/-- A text that Postgres stores: the driver raises at one with a NUL. -/
def storable (texto : String) : Bool := texto.toList.all (· ≠ '\x00')

/-- What ends a call other than its return value: a domain error, an `IntegrityError` turned into
`UniqueViolation` by `_flush`, a failed lookup (`KeyError`, `IndexError`), the failure of the
signing key, what the database driver raises at a text with a NUL, at a number outside of its
column or because of its connection, and the exceptions of media storage and of the biometric
provider that their callers do not catch. -/
inductive Failure where
  | domain (e : DomainError)
  | uniqueViolation (constraint : String)
  | keyError
  | indexError
  | signing
  | text (texto : String)
  | numeric
  | database
  | media
  | provider
  deriving DecidableEq, Repr

/-- What the driver raises at the first text that it does not store. -/
def textError? (textos : List String) : Option Failure :=
  (textos.find? fun texto => !storable texto).map .text

/-- What a transaction that writes a text ends with if it fails. -/
def writeError (texto : String) : Failure := (textError? [texto]).getD .database

/-- `textError?` names one of the texts. -/
theorem textError?_eq_some {textos : List String} {e : Failure} (h : textError? textos = some e) :
    ∃ texto ∈ textos, storable texto = false ∧ e = .text texto := by
  obtain ⟨texto, hfind, rfl⟩ := Option.map_eq_some_iff.1 h
  have hbad := List.find?_some hfind
  exact ⟨texto, List.mem_of_find?_eq_some hfind, by simpa using hbad, rfl⟩

theorem writeError_cases (texto : String) :
    writeError texto = .database ∨ storable texto = false ∧ writeError texto = .text texto := by
  cases h : storable texto with
  | true => exact .inl (by simp [writeError, textError?, h])
  | false => exact .inr ⟨rfl, by simp [writeError, textError?, h]⟩

end Aeropass
