import Mathlib.Data.Int.Log
import Mathlib.Data.Rat.Floor
import Mathlib.Tactic.Linarith
import Mathlib.Tactic.Positivity

/-!
# Double precision numbers

A double is `nan`, an infinity or the rational number that it stands for; the sign of zero is left
out. Rounding a rational to the nearest double, ties to even, keeps the order (`nearest_mono`), is
off by half a unit in the last place at most (`nearest_le_add`) and leaves a double
(`nearest_nearest`). Sums and differences of doubles are rounded (`add`, `sub`), and an integer has
a nearest double unless it is too large (`ofInt`).
-/

/-- A double. -/
inductive Binary64 where
  | nan
  | inf (negative : Bool)
  | fin (value : ℚ)
  deriving DecidableEq

namespace Binary64

/-- The nearest integer, ties to the even one. -/
def roundHalfEven (x : ℚ) : ℤ :=
  let floor := ⌊x⌋
  let rest := x - floor
  if rest < 1 / 2 then floor
  else if 1 / 2 < rest then floor + 1
  else if floor % 2 = 0 then floor else floor + 1

/-- The exponent of the last of the 53 bits of the doubles around `x`. -/
def lastPlace (x : ℚ) : ℤ := max (Int.log 2 |x| - 52) (-1074)

/-- The double nearest to a rational number that is not too large. -/
def nearest (x : ℚ) : ℚ := roundHalfEven (x / 2 ^ lastPlace x) * 2 ^ lastPlace x

/-- The sum of two doubles. -/
def add (x y : ℚ) : ℚ := nearest (x + y)

/-- Their difference. -/
def sub (x y : ℚ) : ℚ := nearest (x - y)

/-- The integer of a double, truncated towards zero. -/
def truncate (x : ℚ) : ℤ := if 0 ≤ x then ⌊x⌋ else ⌈x⌉

/-- Where integers begin to be too large: half way from the largest double to `2 ^ 1024`. -/
def overflowAt : ℤ := 2 ^ 1024 - 2 ^ 970

/-- The double nearest to an integer, unless it is too large. -/
def ofInt (n : ℤ) : Option Binary64 := if overflowAt ≤ |n| then none else some (.fin (nearest n))

variable {x y : ℚ}

/-! ## Rounding to an integer -/

/-- Rounding does not pass an integer. -/
theorem roundHalfEven_le {k : ℤ} (h : x ≤ k) : roundHalfEven x ≤ k := by
  have hfloor : ⌊x⌋ ≤ k := Int.cast_le.1 ((Int.floor_le x).trans h)
  rcases hfloor.lt_or_eq with hlt | heq
  · simp only [roundHalfEven]
    split
    · exact hfloor
    split
    · omega
    split <;> omega
  · -- then `x` is that integer
    have hx : x = k := le_antisymm h (heq ▸ Int.floor_le x)
    have hrest : x - ⌊x⌋ < 1 / 2 := by
      rw [heq, hx, sub_self]
      norm_num
    simp only [roundHalfEven, if_pos hrest]
    exact hfloor

/-- Rounding goes down or up to the next integer. -/
theorem roundHalfEven_eq_or (x : ℚ) : roundHalfEven x = ⌊x⌋ ∨ roundHalfEven x = ⌊x⌋ + 1 := by
  simp only [roundHalfEven]
  split
  · exact .inl rfl
  split
  · exact .inr rfl
  split
  · exact .inl rfl
  · exact .inr rfl

/-- Rounding keeps the order. -/
theorem roundHalfEven_mono {x y : ℚ} (h : x ≤ y) : roundHalfEven x ≤ roundHalfEven y := by
  rcases (Int.floor_le_floor h).lt_or_eq with hlt | heq
  · have hx := roundHalfEven_eq_or x
    have hy := roundHalfEven_eq_or y
    omega
  · -- the same integer below both: the rest decides
    have hrest : x - ⌊x⌋ ≤ y - ⌊x⌋ := sub_le_sub_right h _
    simp only [roundHalfEven, ← heq]
    by_cases hy : y - ⌊x⌋ < 1 / 2
    · rw [if_pos hy, if_pos (hrest.trans_lt hy)]
    · rw [if_neg hy]
      by_cases hy' : 1 / 2 < y - ⌊x⌋
      · rw [if_pos hy']
        split
        · omega
        split
        · omega
        split <;> omega
      · -- a tie above: `x` is a tie too, or below it
        rw [if_neg hy', if_neg (not_lt.2 (hrest.trans (not_lt.1 hy')))]
        split
        · split <;> omega
        · exact le_refl _

/-- An integer is rounded to itself. -/
@[simp] theorem roundHalfEven_intCast (k : ℤ) : roundHalfEven (k : ℚ) = k := by
  simp [roundHalfEven]

theorem le_roundHalfEven {k : ℤ} (h : (k : ℚ) ≤ x) : k ≤ roundHalfEven x := by
  rw [← roundHalfEven_intCast k]
  exact roundHalfEven_mono h

/-- Rounding is the same on both sides of zero. -/
theorem roundHalfEven_neg (x : ℚ) : roundHalfEven (-x) = -roundHalfEven x := by
  by_cases hx : x = ⌊x⌋
  · rw [hx, ← Int.cast_neg, roundHalfEven_intCast, roundHalfEven_intCast]
  · -- the integers around `-x` are those around `x`, the other way round
    have hlt : (⌊x⌋ : ℚ) < x := lt_of_le_of_ne (Int.floor_le x) fun h => hx h.symm
    have hfloor : ⌊-x⌋ = -⌊x⌋ - 1 := by
      refine Int.floor_eq_iff.2 ⟨?_, ?_⟩
      · push_cast
        linarith [Int.lt_floor_add_one x]
      · push_cast
        linarith
    have hrest : -x - ((-⌊x⌋ - 1 : ℤ) : ℚ) = 1 - (x - ⌊x⌋) := by
      push_cast
      ring
    simp only [roundHalfEven, hfloor, hrest]
    rcases lt_trichotomy (x - ⌊x⌋) (1 / 2) with h | h | h
    · rw [if_pos h, if_neg (by linarith), if_pos (by linarith)]
      omega
    · have hhalf : (1 : ℚ) - 1 / 2 = 1 / 2 := by norm_num
      simp only [h, hhalf, lt_irrefl, if_false]
      split <;> split <;> omega
    · rw [if_pos (by linarith), if_neg (by linarith), if_pos h]
      omega

/-- Rounding to an integer goes up by a half at most. -/
theorem roundHalfEven_le_add (x : ℚ) : (roundHalfEven x : ℚ) ≤ x + 1 / 2 := by
  have hfloor := Int.floor_le x
  simp only [roundHalfEven]
  split
  · linarith
  next hhalf =>
  split
  · push_cast
    linarith
  split
  · linarith
  · push_cast
    linarith

/-! ## Rounding to a double -/

theorem lastPlace_neg (x : ℚ) : lastPlace (-x) = lastPlace x := by
  rw [lastPlace, lastPlace, abs_neg]

@[simp] theorem nearest_neg (x : ℚ) : nearest (-x) = -nearest x := by
  rw [nearest, nearest, lastPlace_neg, neg_div, roundHalfEven_neg]
  push_cast
  ring

@[simp] theorem nearest_zero : nearest 0 = 0 := by simp [nearest, roundHalfEven]

/-- The last place of a number. -/
theorem unit_pos (x : ℚ) : (0 : ℚ) < 2 ^ lastPlace x := zpow_pos (by norm_num) _

/-- Rounding does not pass a multiple of the last place. -/
theorem nearest_le_mul {k : ℤ} (h : x ≤ k * 2 ^ lastPlace x) :
    nearest x ≤ k * 2 ^ lastPlace x := by
  have hround := roundHalfEven_le ((div_le_iff₀ (unit_pos x)).2 h)
  exact mul_le_mul_of_nonneg_right (Int.cast_le.2 hround) (unit_pos x).le

theorem mul_le_nearest {k : ℤ} (h : k * 2 ^ lastPlace x ≤ x) :
    k * 2 ^ lastPlace x ≤ nearest x := by
  have hround := le_roundHalfEven ((le_div_iff₀ (unit_pos x)).2 h)
  exact mul_le_mul_of_nonneg_right (Int.cast_le.2 hround) (unit_pos x).le

/-- Rounding leaves a multiple of the last place. -/
theorem nearest_eq_of_mul {k : ℤ} (h : x = k * 2 ^ lastPlace x) : nearest x = x :=
  le_antisymm ((nearest_le_mul h.le).trans h.ge) (h.le.trans (mul_le_nearest h.ge))

/-- A higher power of two is a multiple of the place. -/
theorem zpow_eq_mul {e f : ℤ} (h : e ≤ f) : ∃ k : ℤ, (2 : ℚ) ^ f = k * 2 ^ e := by
  obtain ⟨n, hn⟩ := Int.eq_ofNat_of_zero_le (Int.sub_nonneg.2 h)
  refine ⟨2 ^ n, ?_⟩
  push_cast
  rw [← zpow_natCast, ← zpow_add₀ (by norm_num), ← hn, Int.sub_add_cancel]

/-- Rounding goes up by half a unit in the last place at most. -/
theorem nearest_le_add (x : ℚ) : nearest x ≤ x + 2 ^ lastPlace x / 2 := by
  have hround := mul_le_mul_of_nonneg_right (roundHalfEven_le_add (x / 2 ^ lastPlace x))
    (unit_pos x).le
  rw [add_mul, div_mul_cancel₀ _ (unit_pos x).ne'] at hround
  rw [nearest]
  linarith

theorem nearest_nonneg (h : 0 ≤ x) : 0 ≤ nearest x := by
  simpa using mul_le_nearest (k := 0) (by simpa using h)

/-- The place grows with the number. -/
theorem lastPlace_mono (h0 : 0 < x) (h : x ≤ y) : lastPlace x ≤ lastPlace y := by
  rw [lastPlace, lastPlace, abs_of_pos h0, abs_of_pos (h0.trans_le h)]
  exact max_le_max (sub_le_sub_right (Int.log_mono_right h0 h) _) le_rfl

/-- A number has at most 53 bits before its last place. -/
theorem lt_zpow_lastPlace (h0 : 0 < x) : x < 2 ^ (lastPlace x + 53) := by
  have hlog : x < 2 ^ (Int.log 2 x + 1) := by
    exact_mod_cast Int.lt_zpow_succ_log_self (by norm_num) x
  refine hlog.trans_le (zpow_le_zpow_right₀ (by norm_num) ?_)
  rw [lastPlace, abs_of_pos h0]
  have := le_max_left (Int.log 2 x - 52) (-1074)
  omega

/-- It has all of them if the place is not the last place of all. -/
theorem zpow_lastPlace_le (h0 : 0 < x) (h : -1074 < lastPlace x) : 2 ^ (lastPlace x + 52) ≤ x := by
  have hplace : lastPlace x = Int.log 2 x - 52 := by
    rw [lastPlace, abs_of_pos h0] at h ⊢
    exact max_eq_left (by_contra fun hle => by rw [max_eq_right (by omega)] at h; omega)
  rw [hplace, Int.sub_add_cancel]
  exact_mod_cast Int.zpow_log_le_self (by norm_num) h0

/-- Rounding keeps the order of positive numbers, also across a change of the exponent. -/
theorem nearest_mono_of_pos (h0 : 0 < x) (h : x ≤ y) : nearest x ≤ nearest y := by
  rcases (lastPlace_mono h0 h).eq_or_lt with heq | hlt
  · have hround := roundHalfEven_mono (div_le_div_of_nonneg_right h (unit_pos y).le)
    rw [nearest, nearest, heq]
    exact mul_le_mul_of_nonneg_right (Int.cast_le.2 hround) (unit_pos y).le
  · -- the first number of the place of `y` lies between them
    have hmin : -1074 ≤ lastPlace x := le_max_right _ _
    have hbelow : x ≤ 2 ^ (lastPlace y + 52) :=
      (lt_zpow_lastPlace h0).le.trans (zpow_le_zpow_right₀ (by norm_num) (by omega))
    have habove := zpow_lastPlace_le (h0.trans_le h) (hmin.trans_lt hlt)
    obtain ⟨k, hk⟩ := zpow_eq_mul (show lastPlace x ≤ lastPlace y + 52 by omega)
    obtain ⟨l, hl⟩ := zpow_eq_mul (show lastPlace y ≤ lastPlace y + 52 by omega)
    calc nearest x ≤ 2 ^ (lastPlace y + 52) := by
          rw [hk] at hbelow ⊢
          exact nearest_le_mul hbelow
      _ ≤ nearest y := by
          rw [hl] at habove ⊢
          exact mul_le_nearest habove

/-- Rounding to a double keeps the order. -/
theorem nearest_mono : Monotone nearest := by
  intro x y h
  rcases lt_or_ge 0 x with hx | hx
  · exact nearest_mono_of_pos hx h
  have hnonpos : nearest x ≤ 0 := by simpa using nearest_nonneg (neg_nonneg.2 hx)
  rcases lt_or_ge y 0 with hy | hy
  · simpa using nearest_mono_of_pos (neg_pos.2 hy) (neg_le_neg h)
  · exact hnonpos.trans (nearest_nonneg hy)

/-- Rounding keeps the unit interval. -/
theorem nearest_mem_unit (h0 : 0 ≤ x) (h1 : x ≤ 1) : 0 ≤ nearest x ∧ nearest x ≤ 1 := by
  have hone : nearest 1 = 1 := by decide +kernel
  exact ⟨nearest_nonneg h0, (nearest_mono h1).trans_eq hone⟩

/-- A double is its own nearest double. -/
theorem nearest_nearest_of_pos (h0 : 0 < x) : nearest (nearest x) = nearest x := by
  rcases (nearest_nonneg h0.le).eq_or_lt with hzero | hpos
  · rw [← hzero, nearest_zero]
  obtain ⟨k, hk⟩ := zpow_eq_mul (show lastPlace x ≤ lastPlace x + 53 by omega)
  have hle : nearest x ≤ 2 ^ (lastPlace x + 53) := by
    have hlt := (lt_zpow_lastPlace h0).le
    rw [hk] at hlt ⊢
    exact nearest_le_mul hlt
  have hmin : -1074 ≤ lastPlace x := le_max_right _ _
  rcases hle.eq_or_lt with heq | hlt
  · -- rounded up to the next power of two
    have hlog : Int.log 2 (nearest x) = lastPlace x + 53 := by
      rw [heq]
      exact_mod_cast Int.log_zpow (R := ℚ) one_lt_two _
    have hplace : lastPlace (nearest x) ≤ lastPlace x + 53 := by
      rw [lastPlace, abs_of_pos hpos, hlog]
      exact max_le (by omega) (by omega)
    obtain ⟨l, hl⟩ := zpow_eq_mul hplace
    exact nearest_eq_of_mul (heq.trans hl)
  · -- its place is not above the one that it was rounded to
    have hplace : lastPlace (nearest x) ≤ lastPlace x := by
      rw [lastPlace, abs_of_pos hpos]
      refine max_le ?_ hmin
      have hlog : (2 : ℚ) ^ Int.log 2 (nearest x) < 2 ^ (lastPlace x + 53) :=
        lt_of_le_of_lt (by exact_mod_cast Int.zpow_log_le_self (by norm_num) hpos) hlt
      have := (zpow_lt_zpow_iff_right₀ (by norm_num)).1 hlog
      omega
    obtain ⟨l, hl⟩ := zpow_eq_mul hplace
    refine nearest_eq_of_mul (k := roundHalfEven (x / 2 ^ lastPlace x) * l) ?_
    push_cast
    rw [mul_assoc, ← hl]
    rfl

/-- A double is the nearest to itself. -/
@[simp] theorem nearest_nearest (x : ℚ) : nearest (nearest x) = nearest x := by
  rcases lt_trichotomy x 0 with h | rfl | h
  · simpa using nearest_nearest_of_pos (neg_pos.2 h)
  · simp
  · exact nearest_nearest_of_pos h

/-- Below `2 ^ n` the last place is at most `n - 53`. -/
theorem lastPlace_le {n : ℤ} (h0 : 0 < x) (hn : -1021 ≤ n) (h : x < 2 ^ n) :
    lastPlace x ≤ n - 53 := by
  rw [lastPlace, abs_of_pos h0]
  refine max_le ?_ (by omega)
  have hlog : (2 : ℚ) ^ Int.log 2 x < 2 ^ n :=
    lt_of_le_of_lt (by exact_mod_cast Int.zpow_log_le_self (by norm_num) h0) h
  have := (zpow_lt_zpow_iff_right₀ (by norm_num)).1 hlog
  omega

/-- A double has the whole part of the number that it is the nearest to, unless that is less than
half a unit in the last place below the next integer. -/
theorem floor_nearest {n : ℤ} (h0 : 0 ≤ x) (hn : -1021 ≤ n) (hn' : n ≤ 53) (h : x < 2 ^ n)
    (hroom : x + 2 ^ (n - 53) / 2 < ⌊x⌋ + 1) : ⌊nearest x⌋ = ⌊x⌋ := by
  rcases h0.eq_or_lt with rfl | hpos
  · simp
  have hplace := lastPlace_le hpos hn h
  refine Int.floor_eq_iff.2 ⟨?_, ?_⟩
  · -- the integer below is a multiple of the last place
    obtain ⟨k, hk⟩ := zpow_eq_mul (show lastPlace x ≤ 0 by omega)
    have hfloor := Int.floor_le x
    have hmul : ((⌊x⌋ : ℤ) : ℚ) = ((⌊x⌋ * k : ℤ) : ℚ) * 2 ^ lastPlace x := by
      push_cast
      rw [mul_assoc, ← hk, zpow_zero, mul_one]
    rw [hmul] at hfloor ⊢
    exact mul_le_nearest hfloor
  · have hunit : (2 : ℚ) ^ lastPlace x ≤ 2 ^ (n - 53) := zpow_le_zpow_right₀ (by norm_num) hplace
    linarith [nearest_le_add x]

theorem truncate_of_nonneg (h : 0 ≤ x) : truncate x = ⌊x⌋ := if_pos h

theorem truncate_neg (x : ℚ) : truncate (-x) = -truncate x := by
  rcases lt_trichotomy x 0 with h | rfl | h
  · rw [truncate, truncate, if_pos (by linarith), if_neg (by linarith), Int.floor_neg]
  · simp [truncate]
  · rw [truncate, truncate, if_neg (by linarith), if_pos h.le, Int.ceil_neg]

theorem add_mono {x' y' : ℚ} (h : x ≤ x') (h' : y ≤ y') : add x y ≤ add x' y' :=
  nearest_mono (add_le_add h h')

theorem add_nonneg (h : 0 ≤ x) (h' : 0 ≤ y) : 0 ≤ add x y :=
  nearest_nonneg (by linarith)

end Binary64
