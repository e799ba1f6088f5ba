import Aeropass.Lib.PyStr

/-!
# `int` of a Python string

`int(s)` in base ten: blanks around the number, a sign, decimal digits of any script, and single
underscores between them. `none` is `ValueError`, which more digits than the interpreter's limit
raise as well. The digits are those of the Unicode version of `PyStr`.
-/

namespace PyStr

/-- A blank for `int`. Of the ASCII characters only those that C takes for one; the separators 28 to
31, which `isspace` accepts, are none. -/
def isIntSpace (c : Char) : Bool := isSpace c && !(28 ≤ c.toNat && c.toNat ≤ 31)

/-- The code points of the zeros. The digits of a script follow its zero. -/
def decimalZeros : List Nat :=
  [48, 1632, 1776, 1984, 2406, 2534, 2662, 2790, 2918, 3046, 3174, 3302, 3430, 3558, 3664, 3792,
    3872, 4160, 4240, 6112, 6160, 6470, 6608, 6784, 6800, 6992, 7088, 7232, 7248, 42528, 43216,
    43264, 43472, 43504, 43600, 44016, 65296, 66720, 68912, 69734, 69872, 69942, 70096, 70384,
    70736, 70864, 71248, 71360, 71472, 71904, 72016, 72784, 73040, 73120, 92768, 92864, 93008,
    120782, 120792, 120802, 120812, 120822, 123200, 123632, 125264, 130032]

/-- `unicodedata.decimal`. -/
def decimal (c : Char) : Option Nat :=
  (decimalZeros.find? fun first => first ≤ c.toNat && c.toNat ≤ first + 9).map (c.toNat - ·)

/-- `sys.int_info.default_max_str_digits`. -/
def maxStrDigits : Nat := 4300

/-- The number without blanks and sign: groups of digits between single underscores. -/
def natural (cs : List Char) : Option Nat :=
  let groups := cs.splitOn '_'
  if groups.contains [] then none
  else do
    let digits ← groups.flatten.mapM decimal
    if digits.length ≤ maxStrDigits then some (digits.foldl (fun n d => 10 * n + d) 0) else none

/-- `int`. -/
def int (cs : List Char) : Option Int :=
  match (cs.dropWhile isIntSpace).rdropWhile isIntSpace with
  | '+' :: digits => (natural digits).map Int.ofNat
  | '-' :: digits => (natural digits).map fun n => -Int.ofNat n
  | digits => (natural digits).map Int.ofNat

end PyStr
