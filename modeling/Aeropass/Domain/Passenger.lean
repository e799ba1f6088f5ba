import Aeropass.Domain.Basic
import Aeropass.Lib.PyLower
import Mathlib.Data.List.Sort

/-!
# Passengers and their documents

`domain/passenger.py`: the validation of document data, the registered document and the `Pasajero`
aggregate with its verification state, and the image rules of `domain/images.py` that registration
and verification share.
-/

namespace Aeropass

open PyStr

/-! ## Images -/

/-- `StoredMedia`. -/
structure StoredMedia where
  url : String
  pathname : String
  deriving DecidableEq, Repr

/-- `ImageInput`. -/
structure ImageInput where
  data : List UInt8
  contentType : String
  deriving DecidableEq, Repr

/-- The arguments of `put_private`. -/
structure PutPrivate where
  pathname : String
  image : ImageInput
  deriving DecidableEq, Repr

def maxImageBytes : Nat := 4 * 1024 * 1024

/-- `sniff_content_type`: JPEG, PNG and WebP by their first bytes. -/
def sniffContentType (data : List UInt8) : Option String :=
  if [0xff, 0xd8, 0xff].isPrefixOf data then some "image/jpeg"
  else if [0x89, 0x50, 0x4e, 0x47, 0x0d, 0x0a, 0x1a, 0x0a].isPrefixOf data then some "image/png"
  else if 12 ≤ data.length ∧ data.take 4 = [0x52, 0x49, 0x46, 0x46] ∧
      (data.drop 8).take 4 = [0x57, 0x45, 0x42, 0x50] then some "image/webp"
  else none

/-- The declared type as `validate_image` reads it: up to the first `;`, stripped, in lower case,
`image/jpg` for `image/jpeg`. -/
def declaredType (declared : Option String) : String :=
  let cs := (declared.getD "").toList.takeWhile (· != ';')
  let d := lower (String.ofList (strip cs))
  if d = "image/jpg" then "image/jpeg" else d

/-- `validate_image`. -/
def validateImage (data : List UInt8) (declared : Option String) :
    Except DomainError ImageInput :=
  if maxImageBytes < data.length then .error { clase := .imagenDemasiadoGrande }
  else
    let d := declaredType declared
    if d ∈ ["image/jpeg", "image/png", "image/webp"] ∧ sniffContentType data = some d then
      .ok { data, contentType := d }
    else .error { clase := .formatoNoAdmitido }

/-! ## Documents -/

/-- `normalizar_numero`: without white space, dots and hyphens, in upper case. -/
def normalizarNumero (numero : String) : String :=
  String.ofList (upper (numero.toList.filter fun c => !(isSpace c || c == '.' || c == '-')))

/-- `[A-Z0-9]{4,20}` up to the end of the string. -/
def matchNumero (cs : List Char) : Bool :=
  4 ≤ cs.length && cs.length ≤ 20 && cs.all isAZ09

/-- `TipoDocumento(value) if value else None`, `none` also for a value outside the enumeration. -/
def TipoDocumento.of? : Option String → Option TipoDocumento
  | some "CC" => some .cc
  | some "CE" => some .ce
  | some "PASAPORTE" => some .pasaporte
  | _ => none

/-- `DatosDocumento`. -/
structure DatosDocumento where
  nombreCompleto : String
  tipo : TipoDocumento
  numero : String
  fechaVencimiento : Date
  deriving DecidableEq, Repr

/-- `DatosDocumento.validar`. -/
def DatosDocumento.validar (nombreCompleto tipoDocumento numeroDocumento : Option String)
    (fechaVencimiento : Option Date) (hoy : Date) : Except DomainError DatosDocumento :=
  let nombre := joinSpace (split (nombreCompleto.getD "").toList)
  let tipo := TipoDocumento.of? tipoDocumento
  let numero := normalizarNumero (numeroDocumento.getD "")
  let invalidos :=
    (if 2 ≤ nombre.length ∧ nombre.length ≤ 200 then [] else ["nombre_completo"]) ++
    (if tipo.isNone then ["tipo_documento"] else []) ++
    (if matchEnd matchNumero numero.toList then [] else ["numero_documento"]) ++
    (if fechaVencimiento.isNone then ["fecha_vencimiento"] else [])
  match tipo, fechaVencimiento, invalidos with
  | some tipo, some fecha, [] =>
    if fecha < hoy then .error { clase := .documentoVencido }
    else .ok ⟨String.ofList nombre, tipo, numero, fecha⟩
  | _, _, _ =>
    .error { clase := .datosInvalidos, campos := some (invalidos.insertionSort (· ≤ ·)) }

/-- `DocumentoRegistrado`. -/
structure DocumentoRegistrado extends DatosDocumento where
  foto : StoredMedia
  deriving DecidableEq, Repr

/-- `DocumentoRegistrado.es_mismo`. -/
def DocumentoRegistrado.esMismo (d : DocumentoRegistrado) (datos : DatosDocumento) : Bool :=
  d.tipo = datos.tipo && d.numero = datos.numero

/-- `DocumentoRegistrado.vigente_en`. -/
def DocumentoRegistrado.vigenteEn (d : DocumentoRegistrado) (dia : Date) : Bool :=
  dia ≤ d.fechaVencimiento

/-! ## Passengers -/

def maxIntentosFallidos : Nat := 3

/-- `PasajeroRow`: the columns of `pasajeros`, those of the document together. -/
structure PasajeroRow where
  id : UUID
  clerkUserId : String
  documento : DocumentoRegistrado
  estado : EstadoPasajero := .pendienteVerificacion
  intentosFallidos : Nat := 0
  createdAt : Option Instant := none
  updatedAt : Option Instant := none
  deriving DecidableEq, Repr

/-- The columns of type `Text`. -/
def PasajeroRow.textos (r : PasajeroRow) : List String :=
  [r.clerkUserId, r.documento.nombreCompleto, r.documento.numero, r.documento.foto.pathname,
    r.documento.foto.url]

/-- `Pasajero`: the columns and the identity that the services attach for the answer. -/
structure Pasajero extends PasajeroRow where
  identidadId : Option UUID := none
  deriving DecidableEq, Repr

namespace Pasajero

/-- `Pasajero.registrar`. -/
def registrar (id : UUID) (clerkUserId : String) (datos : DatosDocumento) (foto : StoredMedia)
    (ahora : Instant) : Pasajero :=
  { id, clerkUserId, documento := { datos with foto }
    createdAt := some ahora, updatedAt := some ahora }

/-- `con_identidad`. -/
def conIdentidad (p : Pasajero) (identidadId : Option UUID) : Pasajero := { p with identidadId }

/-- `assert_can_verify`. -/
def assertCanVerify (p : Pasajero) : Except DomainError Unit :=
  if p.estado = .pendienteVerificacion then .ok ()
  else .error { clase := .estadoNoPermiteVerificacion }

/-- `apply_outcome`. -/
def applyOutcome (p : Pasajero) (resultado : ResultadoIntento) (ahora : Instant) :
    Except DomainError Pasajero := do
  p.assertCanVerify
  match resultado with
  | .exitoso => return { p with estado := .verificado, updatedAt := some ahora }
  | .fallido =>
    let intentosFallidos := p.intentosFallidos + 1
    return { p with
      intentosFallidos
      estado := if maxIntentosFallidos ≤ intentosFallidos then .requiereRevisionManual
        else p.estado
      updatedAt := some ahora }
  | .noConcluyente => return { p with updatedAt := some ahora }

/-- `intentos_restantes`. -/
def intentosRestantes (p : Pasajero) : Nat :=
  if p.estado = .requiereRevisionManual then 0 else maxIntentosFallidos - p.intentosFallidos

end Pasajero

end Aeropass
