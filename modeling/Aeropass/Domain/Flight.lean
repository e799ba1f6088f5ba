import Aeropass.Domain.Basic
import Aeropass.Lib.PyStr

/-!
# Flight codes

`normalizar_codigo_vuelo` strips and upper-cases a code and accepts it when it matches
`^[A-Z0-9]{2}[0-9]{1,4}[A-Z]?$`. The catalog normalises what the passenger sent and the builder
normalises the result again; `normalizarCodigoVuelo_idempotent` is why both see one key.
-/

namespace Aeropass

open PyStr

/-- `[0-9]{1,4}[A-Z]?` up to the end of the string. -/
def matchNumeroVuelo (cs : List Char) : Bool :=
  let digits := cs.takeWhile is09
  1 ≤ digits.length && digits.length ≤ 4 &&
    match cs.dropWhile is09 with
    | [] => true
    | [c] => isAZ c
    | _ => false

/-- `[A-Z0-9]{2}[0-9]{1,4}[A-Z]?` up to the end of the string. -/
def matchCodigoVuelo : List Char → Bool
  | a :: b :: rest => isAZ09 a && isAZ09 b && matchNumeroVuelo rest
  | _ => false

/-- `normalizar_codigo_vuelo`. -/
def normalizarCodigoVuelo (codigo : Option String) : Except DomainError String :=
  let normalizado := upper (strip (codigo.getD "").toList)
  if matchEnd matchCodigoVuelo normalizado then .ok (String.ofList normalizado)
  else .error
    { clase := .datosInvalidos, mensaje := "Invalid flight code", campos := some ["codigo_vuelo"] }

/-- The characters of a matched number part are capital letters and digits. -/
theorem isAZ09_of_matchNumeroVuelo {cs : List Char} (h : matchNumeroVuelo cs = true) :
    ∀ c ∈ cs, isAZ09 c = true := by
  intro c hc
  rw [← List.takeWhile_append_dropWhile (p := is09) (l := cs), List.mem_append] at hc
  simp only [matchNumeroVuelo, Bool.and_eq_true] at h
  rcases hc with hc | hc
  · have := List.mem_takeWhile_imp hc
    simp [isAZ09, this]
  · obtain ⟨-, h⟩ := h
    split at h
    · next hd => rw [hd] at hc; simp at hc
    · next d hd =>
      rw [hd, List.mem_singleton] at hc
      subst hc
      simp [isAZ09, h]
    · cases h

/-- The characters of a matched code are capital letters and digits. -/
theorem isAZ09_of_matchCodigoVuelo {cs : List Char} (h : matchCodigoVuelo cs = true) :
    ∀ c ∈ cs, isAZ09 c = true := by
  unfold matchCodigoVuelo at h
  split at h
  · next a b rest =>
    simp only [Bool.and_eq_true] at h
    intro c hc
    rcases List.mem_cons.1 hc with rfl | hc
    · exact h.1.1
    · rcases List.mem_cons.1 hc with rfl | hc
      · exact h.1.2
      · exact isAZ09_of_matchNumeroVuelo h.2 c hc
  · cases h

/-- What `normalizar_codigo_vuelo` returns is the stripped and upper-cased input, and it matches
the pattern without the final newline that `$` would let pass. -/
theorem normalizarCodigoVuelo_ok {codigo : Option String} {s : String}
    (h : normalizarCodigoVuelo codigo = .ok s) :
    s.toList = upper (strip (codigo.getD "").toList) ∧ matchCodigoVuelo s.toList = true := by
  simp only [normalizarCodigoVuelo] at h
  split at h
  · next hm =>
    cases h
    rw [String.toList_ofList]
    refine ⟨rfl, ?_⟩
    simp only [matchEnd, Bool.or_eq_true, Bool.and_eq_true, beq_iff_eq] at hm
    rcases hm with hm | ⟨hnl, -⟩
    · exact hm
    · exact absurd hnl (getLast?_upper_strip _)
  · cases h

/-- A code that matches the pattern is normalised to itself. -/
theorem normalizarCodigoVuelo_of_match {s : String} (h : matchCodigoVuelo s.toList = true) :
    normalizarCodigoVuelo (some s) = .ok s := by
  have hc := isAZ09_of_matchCodigoVuelo h
  have hs : strip s.toList = s.toList :=
    strip_of_not_isSpace fun c hm => isSpace_of_isAZ09 (hc c hm)
  simp only [normalizarCodigoVuelo, Option.getD_some, hs, upper_of_isAZ09 hc]
  rw [if_pos (by simp [matchEnd, h]), String.ofList_toList]

/-- Normalising twice is normalising once, on every string. -/
theorem normalizarCodigoVuelo_idempotent {codigo : Option String} {s : String}
    (h : normalizarCodigoVuelo codigo = .ok s) : normalizarCodigoVuelo (some s) = .ok s :=
  normalizarCodigoVuelo_of_match (normalizarCodigoVuelo_ok h).2

example : normalizarCodigoVuelo (some " av9380\n") = .ok "AV9380" := by decide +kernel

end Aeropass
