import Aeropass.Lib.Calendar

/-!
# `datetime.isoformat` and `fromisoformat`

The text of a UTC `datetime`, which is a number of microseconds since the epoch. `isoformat` leaves
out the microseconds when they are zero. `fromisoformat` reads the extended format down to seconds,
with a fraction or without, and a UTC offset or `Z`; its result is `none` where the source raises,
and also on what it reads of other formats.
-/

namespace IsoFormat

open Calendar

/-! ## Numbers of a fixed width -/

/-- `f"{n:0kd}"` for a number of at most `k` digits. -/
def padded : Nat → Nat → List Char
  | 0, _ => []
  | k + 1, n => padded k (n / 10) ++ [Char.ofNat (48 + n % 10)]

/-- The value of a digit. -/
def digit? (c : Char) : Option Nat :=
  if 48 ≤ c.toNat && c.toNat ≤ 57 then some (c.toNat - 48) else none

/-- Reads `k` digits behind the number `acc`. -/
def readNat : Nat → Nat → List Char → Option (Nat × List Char)
  | 0, acc, s => some (acc, s)
  | _ + 1, _, [] => none
  | k + 1, acc, c :: s => (digit? c).bind fun d => readNat k (10 * acc + d) s

theorem digit?_ofNat {d : Nat} (h : d < 10) : digit? (Char.ofNat (48 + d)) = some d := by
  have key : ∀ d < 10, digit? (Char.ofNat (48 + d)) = some d := by decide
  exact key d h

/-- Reading in two parts. -/
theorem readNat_add (k j acc : Nat) (s : List Char) :
    readNat (k + j) acc s = (readNat k acc s).bind fun r => readNat j r.1 r.2 := by
  induction k generalizing acc s with
  | zero => rw [Nat.zero_add]; rfl
  | succ k ih =>
    rw [Nat.succ_add]
    cases s with
    | nil => rfl
    | cons c s =>
      simp only [readNat]
      cases digit? c with
      | none => rfl
      | some d => exact ih (10 * acc + d) s

/-- What was written is read. -/
theorem readNat_padded (k acc n : Nat) (s : List Char) (h : n < 10 ^ k) :
    readNat k acc (padded k n ++ s) = some (acc * 10 ^ k + n, s) := by
  induction k generalizing n s with
  | zero =>
    have hn : n = 0 := by simpa using h
    simp [padded, readNat, hn]
  | succ k ih =>
    have hdiv : n / 10 < 10 ^ k := by
      rw [Nat.pow_succ] at h
      omega
    rw [readNat_add k 1, padded, List.append_assoc, ih _ _ hdiv]
    simp only [Option.bind_some, readNat, List.cons_append, List.nil_append,
      digit?_ofNat (Nat.mod_lt n (by decide : 0 < 10))]
    rw [Nat.pow_succ]
    simp only [Option.some.injEq, Prod.mk.injEq, and_true]
    have := Nat.div_add_mod n 10
    rw [← Nat.mul_assoc]
    omega

/-- The digits of a number are digits. -/
theorem digit_of_mem_padded {k n : Nat} {c : Char} (h : c ∈ padded k n) :
    ∃ d < 10, c = Char.ofNat (48 + d) := by
  induction k generalizing n with
  | zero => cases h
  | succ k ih =>
    rcases List.mem_append.1 h with h | h
    · exact ih h
    · exact ⟨n % 10, Nat.mod_lt n (by decide), List.mem_singleton.1 h⟩

/-! ## Text of a `datetime` -/

/-- The microseconds of a day. -/
def dayMicros : Int := 86400000000

/-- The ordinal of the day of an instant; the epoch is day 719163. -/
def ordinalOf (t : Int) : Int := t / dayMicros + 719163

/-- The instants of a `datetime`: the years 1 to 9999. -/
def InRange (t : Int) : Prop := 1 ≤ ordinalOf t ∧ ordinalOf t ≤ maxOrdinal

instance (t : Int) : Decidable (InRange t) := inferInstanceAs (Decidable (_ ∧ _))

/-- The seconds of the day of an instant. -/
def secondOf (t : Int) : Nat := (t % dayMicros).toNat / 1000000

/-- The microseconds of the second of an instant. -/
def microOf (t : Int) : Nat := (t % dayMicros).toNat % 1000000

/-- `isoformat()` of a UTC `datetime` without its offset. -/
def isoLocal (t : Int) : List Char :=
  let ymd := ord2ymd (ordinalOf t).toNat
  padded 4 ymd.year ++ '-' :: padded 2 ymd.month ++ '-' :: padded 2 ymd.day ++ 'T' ::
  padded 2 (secondOf t / 3600) ++ ':' :: padded 2 (secondOf t / 60 % 60) ++ ':' ::
  padded 2 (secondOf t % 60) ++ if microOf t = 0 then [] else '.' :: padded 6 (microOf t)

/-- `"+00:00"`. -/
def utcOffset : List Char := ['+', '0', '0', ':', '0', '0']

/-- `isoformat()` of a UTC `datetime`. -/
def isoformat (t : Int) : List Char := isoLocal t ++ utcOffset

/-! ## Reading it back -/

/-- A character of the format. -/
def lit (c : Char) : List Char → Option (List Char)
  | d :: s => if d = c then some s else none
  | [] => none

/-- The microseconds of a fraction: its first six digits, filled with zeros. -/
def readFraction : List Char → Option (Nat × List Char)
  | c :: s =>
    if c = '.' || c = ',' then
      let digits := s.takeWhile fun d => (digit? d).isSome
      let read := digits.take 6
      if digits.isEmpty then none
      else (readNat read.length 0 read).map fun r =>
        (r.1 * 10 ^ (6 - read.length), s.dropWhile fun d => (digit? d).isSome)
    else some (0, c :: s)
  | [] => some (0, [])

/-- The offset in minutes. -/
def readOffset : List Char → Option Int
  | ['Z'] => some 0
  | sign :: s => do
    let (hours, s) ← readNat 2 0 s
    let s ← lit ':' s
    let (minutes, s) ← readNat 2 0 s
    if s.isEmpty && hours < 24 && minutes < 60 then
      if sign = '+' then some (hours * 60 + minutes)
      else if sign = '-' then some (-(hours * 60 + minutes))
      else none
    else none
  | [] => none

/-- The instant of a date and a time of the day at an offset, if they exist. -/
def instant? (ymd : Ymd) (hour minute second micro : Nat) (offset : Int) : Option Int :=
  if 1 ≤ ymd.year && 1 ≤ ymd.month && ymd.month ≤ 12 && 1 ≤ ymd.day &&
      ymd.day ≤ daysInMonth (isLeap ymd.year) ymd.month && hour < 24 && minute < 60 &&
      second < 60 then
    some (((ymd2ord ymd : Int) - 719163) * dayMicros +
      ((hour * 60 + minute) * 60 + second : Nat) * 1000000 + micro - offset * 60000000)
  else none

/-- `datetime.fromisoformat`. -/
def fromisoformat (s : List Char) : Option Int := do
  let (year, s) ← readNat 4 0 s
  let s ← lit '-' s
  let (month, s) ← readNat 2 0 s
  let s ← lit '-' s
  let (day, s) ← readNat 2 0 s
  -- any one character separates date and time
  let s ← s.tail?
  let (hour, s) ← readNat 2 0 s
  let s ← lit ':' s
  let (minute, s) ← readNat 2 0 s
  let s ← lit ':' s
  let (second, s) ← readNat 2 0 s
  let (micro, s) ← readFraction s
  let offset ← readOffset s
  instant? ⟨year, month, day⟩ hour minute second micro offset

/-! ## The round trip -/

theorem length_padded (k n : Nat) : (padded k n).length = k := by
  induction k generalizing n with
  | zero => rfl
  | succ k ih => rw [padded, List.length_append, ih]; rfl

/-- A number ends before the offset. -/
theorem span_padded (k n : Nat) :
    (padded k n ++ utcOffset).takeWhile (fun d => (digit? d).isSome) = padded k n ∧
    (padded k n ++ utcOffset).dropWhile (fun d => (digit? d).isSome) = utcOffset := by
  have hall : ∀ c ∈ padded k n, (digit? c).isSome = true := by
    intro c hc
    obtain ⟨d, hd, rfl⟩ := digit_of_mem_padded hc
    rw [digit?_ofNat hd]
    rfl
  constructor
  · rw [List.takeWhile_append_of_pos hall]
    exact List.append_nil _
  · rw [List.dropWhile_append_of_pos hall]
    rfl

/-- A fraction is read, and its absence. -/
theorem readFraction_micro {m : Nat} (h : m < 1000000) :
    readFraction ((if m = 0 then [] else '.' :: padded 6 m) ++ utcOffset) =
      some (m, utcOffset) := by
  by_cases hm : m = 0
  · subst hm
    rfl
  · have hread : readNat 6 0 (padded 6 m) = some (m, []) := by
      have := readNat_padded 6 0 m [] h
      rwa [List.append_nil, Nat.zero_mul, Nat.zero_add] at this
    have hne : (padded 6 m).isEmpty = false := by
      rw [List.isEmpty_eq_false_iff, ← List.length_pos_iff, length_padded]
      decide
    have htake : (padded 6 m).take 6 = padded 6 m :=
      List.take_of_length_le (Nat.le_of_eq (length_padded 6 m))
    obtain ⟨htw, hdw⟩ := span_padded 6 m
    rw [if_neg hm, List.cons_append, readFraction]
    simp only [decide_true, Bool.true_or, if_true, htw, hdw, htake, hne, length_padded, hread]
    simp

/-- The fields of an instant make it up again. -/
theorem instant?_fields {t : Int} (h : InRange t) :
    instant? (ord2ymd (ordinalOf t).toNat) (secondOf t / 3600) (secondOf t / 60 % 60)
      (secondOf t % 60) (microOf t) 0 = some t := by
  obtain ⟨h1, hmax⟩ := h
  obtain ⟨hvalid, hord⟩ := ord2ymd_spec (show 1 ≤ (ordinalOf t).toNat by omega)
  have hsecond : secondOf t < 86400 := by
    unfold secondOf dayMicros
    omega
  have hfields : ((ymd2ord (ord2ymd (ordinalOf t).toNat) : Int) - 719163) * dayMicros +
      ((secondOf t / 3600 * 60 + secondOf t / 60 % 60) * 60 + secondOf t % 60 : Nat) * 1000000 +
      microOf t - 0 * 60000000 = t := by
    rw [hord]
    unfold secondOf microOf ordinalOf dayMicros at *
    omega
  unfold instant?
  rw [if_pos, hfields]
  simp only [Bool.and_eq_true, decide_eq_true_eq]
  exact ⟨⟨⟨⟨⟨⟨⟨hvalid.year, hvalid.month.1⟩, hvalid.month.2⟩, hvalid.day.1⟩, hvalid.day.2⟩,
    by omega⟩, by omega⟩, by omega⟩

/-- `fromisoformat` reads what `isoformat` writes. -/
theorem fromisoformat_isoformat {t : Int} (h : InRange t) :
    fromisoformat (isoformat t) = some t := by
  have hord : 1 ≤ (ordinalOf t).toNat ∧ (ordinalOf t).toNat ≤ maxOrdinal := by
    unfold InRange at h
    omega
  have hvalid := (ord2ymd_spec hord.1).1
  have hyear := year_ord2ymd hord.1 hord.2
  have hday : (ord2ymd (ordinalOf t).toNat).day < 10 ^ 2 := by
    have hmonth : ∀ leap m, daysInMonth leap m ≤ 31 := by
      intro leap m
      unfold daysInMonth
      split <;> try split
      all_goals decide
    exact Nat.lt_of_le_of_lt (Nat.le_trans hvalid.day.2 (hmonth _ _)) (by decide)
  have hsecond : secondOf t < 86400 := by
    unfold secondOf dayMicros
    omega
  have hread : ∀ (k n : Nat) (s : List Char), n < 10 ^ k →
      readNat k 0 (padded k n ++ s) = some (n, s) := by
    intro k n s hn
    rw [readNat_padded k 0 n s hn, Nat.zero_mul, Nat.zero_add]
  have hlit : ∀ (c : Char) (s : List Char), lit c (c :: s) = some s := by
    intro c s
    rw [lit, if_pos rfl]
  unfold fromisoformat isoformat isoLocal
  simp only [List.append_assoc, List.cons_append, Option.bind_eq_bind, Option.bind_some,
    List.tail?_cons, hlit,
    hread 4 (ord2ymd (ordinalOf t).toNat).year _ (by omega),
    hread 2 (ord2ymd (ordinalOf t).toNat).month _ (by have := hvalid.month.2; omega),
    hread 2 (ord2ymd (ordinalOf t).toNat).day _ hday,
    hread 2 (secondOf t / 3600) _ (by omega), hread 2 (secondOf t / 60 % 60) _ (by omega),
    hread 2 (secondOf t % 60) _ (by omega),
    readFraction_micro (show microOf t < 1000000 from Nat.mod_lt _ (by decide))]
  exact instant?_fields h

example : String.ofList (isoformat 1753000000000001) = "2025-07-20T08:26:40.000001+00:00" ∧
    fromisoformat "2025-07-20T03:26:40-05:00".toList = some 1753000000000000 := by
  decide +kernel

/-- Neither a plus sign nor a `Z` stands before the offset. -/
theorem isoLocal_chars (t : Int) : ∀ c ∈ isoLocal t, c ≠ '+' ∧ c ≠ 'Z' := by
  have hdigits : ∀ d < 10, Char.ofNat (48 + d) ≠ '+' ∧ Char.ofNat (48 + d) ≠ 'Z' := by decide
  have hpadded : ∀ k n, ∀ c ∈ padded k n, c ≠ '+' ∧ c ≠ 'Z' := by
    intro k n c hc
    obtain ⟨d, hd, rfl⟩ := digit_of_mem_padded hc
    exact hdigits d hd
  have hfraction : ∀ c ∈ (if microOf t = 0 then [] else '.' :: padded 6 (microOf t)),
      c ≠ '+' ∧ c ≠ 'Z' := by
    split
    · exact List.forall_mem_nil _
    · exact List.forall_mem_cons.2 ⟨by decide, hpadded 6 _⟩
  simp only [isoLocal, List.forall_mem_append, List.forall_mem_cons]
  exact ⟨⟨⟨⟨⟨⟨hpadded 4 _, by decide, hpadded 2 _⟩, by decide, hpadded 2 _⟩, by decide,
    hpadded 2 _⟩, by decide, hpadded 2 _⟩, by decide, hpadded 2 _⟩, hfraction⟩

end IsoFormat
