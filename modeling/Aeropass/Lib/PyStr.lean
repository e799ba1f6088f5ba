import Mathlib.Tactic.Common
import Mathlib.Data.List.DropRight

/-!
# Python strings

The parts of Python's `str` that text normalisation uses, on lists of characters: `isspace`,
`strip` and the full case mapping `upper`, with the tables of the Unicode version of the language
runtime (14.0). A run of the case table maps every `stride`-th code point from `first` to `last`
by the offset `delta`; the code points that upper-case to several ones are listed apart.
-/

namespace PyStr

/-- `str.isspace` on one character, also what `\s` matches. -/
def isSpace (c : Char) : Bool :=
  [9, 10, 11, 12, 13, 28, 29, 30, 31, 32, 133, 160, 5760, 8192, 8193, 8194, 8195, 8196, 8197, 8198,
    8199, 8200, 8201, 8202, 8232, 8233, 8239, 8287, 12288].contains c.toNat

/-- A run of code points whose upper case is at one distance. -/
structure CaseRun where
  first : Nat
  last : Nat
  stride : Nat
  delta : Int

/-- The code points with a single upper-case code point. -/
def upperRuns : List CaseRun :=
  [⟨97, 122, 1, -32⟩, ⟨181, 181, 1, 743⟩, ⟨224, 246, 1, -32⟩, ⟨248, 254, 1, -32⟩,
   ⟨255, 255, 1, 121⟩, ⟨257, 303, 2, -1⟩, ⟨305, 305, 1, -232⟩, ⟨307, 311, 2, -1⟩,
   ⟨314, 328, 2, -1⟩, ⟨331, 375, 2, -1⟩, ⟨378, 382, 2, -1⟩, ⟨383, 383, 1, -300⟩,
   ⟨384, 384, 1, 195⟩, ⟨387, 389, 2, -1⟩, ⟨392, 392, 1, -1⟩, ⟨396, 396, 1, -1⟩,
   ⟨402, 402, 1, -1⟩, ⟨405, 405, 1, 97⟩, ⟨409, 409, 1, -1⟩, ⟨410, 410, 1, 163⟩,
   ⟨414, 414, 1, 130⟩, ⟨417, 421, 2, -1⟩, ⟨424, 424, 1, -1⟩, ⟨429, 429, 1, -1⟩,
   ⟨432, 432, 1, -1⟩, ⟨436, 438, 2, -1⟩, ⟨441, 441, 1, -1⟩, ⟨445, 445, 1, -1⟩, ⟨447, 447, 1, 56⟩,
   ⟨453, 453, 1, -1⟩, ⟨454, 454, 1, -2⟩, ⟨456, 456, 1, -1⟩, ⟨457, 457, 1, -2⟩, ⟨459, 459, 1, -1⟩,
   ⟨460, 460, 1, -2⟩, ⟨462, 476, 2, -1⟩, ⟨477, 477, 1, -79⟩, ⟨479, 495, 2, -1⟩,
   ⟨498, 498, 1, -1⟩, ⟨499, 499, 1, -2⟩, ⟨501, 501, 1, -1⟩, ⟨505, 543, 2, -1⟩, ⟨547, 563, 2, -1⟩,
   ⟨572, 572, 1, -1⟩, ⟨575, 576, 1, 10815⟩, ⟨578, 578, 1, -1⟩, ⟨583, 591, 2, -1⟩,
   ⟨592, 592, 1, 10783⟩, ⟨593, 593, 1, 10780⟩, ⟨594, 594, 1, 10782⟩, ⟨595, 595, 1, -210⟩,
   ⟨596, 596, 1, -206⟩, ⟨598, 599, 1, -205⟩, ⟨601, 601, 1, -202⟩, ⟨603, 603, 1, -203⟩,
   ⟨604, 604, 1, 42319⟩, ⟨608, 608, 1, -205⟩, ⟨609, 609, 1, 42315⟩, ⟨611, 611, 1, -207⟩,
   ⟨613, 613, 1, 42280⟩, ⟨614, 614, 1, 42308⟩, ⟨616, 616, 1, -209⟩, ⟨617, 617, 1, -211⟩,
   ⟨618, 618, 1, 42308⟩, ⟨619, 619, 1, 10743⟩, ⟨620, 620, 1, 42305⟩, ⟨623, 623, 1, -211⟩,
   ⟨625, 625, 1, 10749⟩, ⟨626, 626, 1, -213⟩, ⟨629, 629, 1, -214⟩, ⟨637, 637, 1, 10727⟩,
   ⟨640, 640, 1, -218⟩, ⟨642, 642, 1, 42307⟩, ⟨643, 643, 1, -218⟩, ⟨647, 647, 1, 42282⟩,
   ⟨648, 648, 1, -218⟩, ⟨649, 649, 1, -69⟩, ⟨650, 651, 1, -217⟩, ⟨652, 652, 1, -71⟩,
   ⟨658, 658, 1, -219⟩, ⟨669, 669, 1, 42261⟩, ⟨670, 670, 1, 42258⟩, ⟨837, 837, 1, 84⟩,
   ⟨881, 883, 2, -1⟩, ⟨887, 887, 1, -1⟩, ⟨891, 893, 1, 130⟩, ⟨940, 940, 1, -38⟩,
   ⟨941, 943, 1, -37⟩, ⟨945, 961, 1, -32⟩, ⟨962, 962, 1, -31⟩, ⟨963, 971, 1, -32⟩,
   ⟨972, 972, 1, -64⟩, ⟨973, 974, 1, -63⟩, ⟨976, 976, 1, -62⟩, ⟨977, 977, 1, -57⟩,
   ⟨981, 981, 1, -47⟩, ⟨982, 982, 1, -54⟩, ⟨983, 983, 1, -8⟩, ⟨985, 1007, 2, -1⟩,
   ⟨1008, 1008, 1, -86⟩, ⟨1009, 1009, 1, -80⟩, ⟨1010, 1010, 1, 7⟩, ⟨1011, 1011, 1, -116⟩,
   ⟨1013, 1013, 1, -96⟩, ⟨1016, 1016, 1, -1⟩, ⟨1019, 1019, 1, -1⟩, ⟨1072, 1103, 1, -32⟩,
   ⟨1104, 1119, 1, -80⟩, ⟨1121, 1153, 2, -1⟩, ⟨1163, 1215, 2, -1⟩, ⟨1218, 1230, 2, -1⟩,
   ⟨1231, 1231, 1, -15⟩, ⟨1233, 1327, 2, -1⟩, ⟨1377, 1414, 1, -48⟩, ⟨4304, 4346, 1, 3008⟩,
   ⟨4349, 4351, 1, 3008⟩, ⟨5112, 5117, 1, -8⟩, ⟨7296, 7296, 1, -6254⟩, ⟨7297, 7297, 1, -6253⟩,
   ⟨7298, 7298, 1, -6244⟩, ⟨7299, 7300, 1, -6242⟩, ⟨7301, 7301, 1, -6243⟩,
   ⟨7302, 7302, 1, -6236⟩, ⟨7303, 7303, 1, -6181⟩, ⟨7304, 7304, 1, 35266⟩,
   ⟨7545, 7545, 1, 35332⟩, ⟨7549, 7549, 1, 3814⟩, ⟨7566, 7566, 1, 35384⟩, ⟨7681, 7829, 2, -1⟩,
   ⟨7835, 7835, 1, -59⟩, ⟨7841, 7935, 2, -1⟩, ⟨7936, 7943, 1, 8⟩, ⟨7952, 7957, 1, 8⟩,
   ⟨7968, 7975, 1, 8⟩, ⟨7984, 7991, 1, 8⟩, ⟨8000, 8005, 1, 8⟩, ⟨8017, 8023, 2, 8⟩,
   ⟨8032, 8039, 1, 8⟩, ⟨8048, 8049, 1, 74⟩, ⟨8050, 8053, 1, 86⟩, ⟨8054, 8055, 1, 100⟩,
   ⟨8056, 8057, 1, 128⟩, ⟨8058, 8059, 1, 112⟩, ⟨8060, 8061, 1, 126⟩, ⟨8112, 8113, 1, 8⟩,
   ⟨8126, 8126, 1, -7205⟩, ⟨8144, 8145, 1, 8⟩, ⟨8160, 8161, 1, 8⟩, ⟨8165, 8165, 1, 7⟩,
   ⟨8526, 8526, 1, -28⟩, ⟨8560, 8575, 1, -16⟩, ⟨8580, 8580, 1, -1⟩, ⟨9424, 9449, 1, -26⟩,
   ⟨11312, 11359, 1, -48⟩, ⟨11361, 11361, 1, -1⟩, ⟨11365, 11365, 1, -10795⟩,
   ⟨11366, 11366, 1, -10792⟩, ⟨11368, 11372, 2, -1⟩, ⟨11379, 11379, 1, -1⟩,
   ⟨11382, 11382, 1, -1⟩, ⟨11393, 11491, 2, -1⟩, ⟨11500, 11502, 2, -1⟩, ⟨11507, 11507, 1, -1⟩,
   ⟨11520, 11557, 1, -7264⟩, ⟨11559, 11559, 1, -7264⟩, ⟨11565, 11565, 1, -7264⟩,
   ⟨42561, 42605, 2, -1⟩, ⟨42625, 42651, 2, -1⟩, ⟨42787, 42799, 2, -1⟩, ⟨42803, 42863, 2, -1⟩,
   ⟨42874, 42876, 2, -1⟩, ⟨42879, 42887, 2, -1⟩, ⟨42892, 42892, 1, -1⟩, ⟨42897, 42899, 2, -1⟩,
   ⟨42900, 42900, 1, 48⟩, ⟨42903, 42921, 2, -1⟩, ⟨42933, 42947, 2, -1⟩, ⟨42952, 42954, 2, -1⟩,
   ⟨42961, 42961, 1, -1⟩, ⟨42967, 42969, 2, -1⟩, ⟨42998, 42998, 1, -1⟩, ⟨43859, 43859, 1, -928⟩,
   ⟨43888, 43967, 1, -38864⟩, ⟨65345, 65370, 1, -32⟩, ⟨66600, 66639, 1, -40⟩,
   ⟨66776, 66811, 1, -40⟩, ⟨66967, 66977, 1, -39⟩, ⟨66979, 66993, 1, -39⟩,
   ⟨66995, 67001, 1, -39⟩, ⟨67003, 67004, 1, -39⟩, ⟨68800, 68850, 1, -64⟩,
   ⟨71872, 71903, 1, -32⟩, ⟨93792, 93823, 1, -32⟩, ⟨125218, 125251, 1, -34⟩]
/-- The code points with several upper-case code points. -/
def upperSpecial : List (Nat × List Nat) :=
  [(223, [83, 83]), (329, [700, 78]), (496, [74, 780]), (912, [921, 776, 769]),
   (944, [933, 776, 769]), (1415, [1333, 1362]), (7830, [72, 817]), (7831, [84, 776]),
   (7832, [87, 778]), (7833, [89, 778]), (7834, [65, 702]), (8016, [933, 787]),
   (8018, [933, 787, 768]), (8020, [933, 787, 769]), (8022, [933, 787, 834]),
   (8064, [7944, 921]), (8065, [7945, 921]), (8066, [7946, 921]), (8067, [7947, 921]),
   (8068, [7948, 921]), (8069, [7949, 921]), (8070, [7950, 921]), (8071, [7951, 921]),
   (8072, [7944, 921]), (8073, [7945, 921]), (8074, [7946, 921]), (8075, [7947, 921]),
   (8076, [7948, 921]), (8077, [7949, 921]), (8078, [7950, 921]), (8079, [7951, 921]),
   (8080, [7976, 921]), (8081, [7977, 921]), (8082, [7978, 921]), (8083, [7979, 921]),
   (8084, [7980, 921]), (8085, [7981, 921]), (8086, [7982, 921]), (8087, [7983, 921]),
   (8088, [7976, 921]), (8089, [7977, 921]), (8090, [7978, 921]), (8091, [7979, 921]),
   (8092, [7980, 921]), (8093, [7981, 921]), (8094, [7982, 921]), (8095, [7983, 921]),
   (8096, [8040, 921]), (8097, [8041, 921]), (8098, [8042, 921]), (8099, [8043, 921]),
   (8100, [8044, 921]), (8101, [8045, 921]), (8102, [8046, 921]), (8103, [8047, 921]),
   (8104, [8040, 921]), (8105, [8041, 921]), (8106, [8042, 921]), (8107, [8043, 921]),
   (8108, [8044, 921]), (8109, [8045, 921]), (8110, [8046, 921]), (8111, [8047, 921]),
   (8114, [8122, 921]), (8115, [913, 921]), (8116, [902, 921]), (8118, [913, 834]),
   (8119, [913, 834, 921]), (8124, [913, 921]), (8130, [8138, 921]), (8131, [919, 921]),
   (8132, [905, 921]), (8134, [919, 834]), (8135, [919, 834, 921]), (8140, [919, 921]),
   (8146, [921, 776, 768]), (8147, [921, 776, 769]), (8150, [921, 834]), (8151, [921, 776, 834]),
   (8162, [933, 776, 768]), (8163, [933, 776, 769]), (8164, [929, 787]), (8166, [933, 834]),
   (8167, [933, 776, 834]), (8178, [8186, 921]), (8179, [937, 921]), (8180, [911, 921]),
   (8182, [937, 834]), (8183, [937, 834, 921]), (8188, [937, 921]), (64256, [70, 70]),
   (64257, [70, 73]), (64258, [70, 76]), (64259, [70, 70, 73]), (64260, [70, 70, 76]),
   (64261, [83, 84]), (64262, [83, 84]), (64275, [1348, 1350]), (64276, [1348, 1333]),
   (64277, [1348, 1339]), (64278, [1358, 1350]), (64279, [1348, 1341])]
/-- Is the code point in the run. -/
def CaseRun.has (r : CaseRun) (n : Nat) : Bool :=
  r.first ≤ n && n ≤ r.last && (n - r.first) % r.stride == 0

/-- `str.upper` on one character: one or more characters, without regard to the context. -/
def upperChar (c : Char) : List Char :=
  match upperRuns.find? (·.has c.toNat) with
  | some r => [Char.ofNat (c.toNat + r.delta).toNat]
  | none =>
    match upperSpecial.find? (·.1 == c.toNat) with
    | some (_, cs) => cs.map Char.ofNat
    | none => [c]

/-- `str.upper`. -/
def upper (cs : List Char) : List Char := cs.flatMap upperChar

/-- `str.strip` without arguments. -/
def strip (cs : List Char) : List Char := (cs.dropWhile isSpace).rdropWhile isSpace

/-- `str.split` without arguments. -/
def split (cs : List Char) : List (List Char) := (cs.splitOnP isSpace).filter (· ≠ [])

/-- `" ".join(words)`. -/
def joinSpace (words : List (List Char)) : List Char := [' '].intercalate words

/-- `str.replace` from the left, with `skip` characters of the last occurrence still to drop. -/
def replaceFrom (old new : List Char) : Nat → List Char → List Char
  | _, [] => []
  | skip + 1, _ :: cs => replaceFrom old new skip cs
  | 0, c :: cs =>
    if old.isPrefixOf (c :: cs) then new ++ replaceFrom old new (old.length - 1) cs
    else c :: replaceFrom old new 0 cs

/-- `str.replace(old, new)` for an `old` that is not empty. -/
def replace (old new cs : List Char) : List Char := replaceFrom old new 0 cs

/-- `str.rsplit(".", 1)[1]`: what follows the last dot, when there is one. -/
def afterLastDot (cs : List Char) : Option (List Char) :=
  if cs.contains '.' then some (cs.rtakeWhile (· != '.')) else none

/-- What follows a dot without further dots is the last segment. -/
theorem afterLastDot_append {cs segment : List Char} (h : '.' ∉ segment) :
    afterLastDot (cs ++ '.' :: segment) = some segment := by
  have htake : (cs ++ '.' :: segment).rtakeWhile (· != '.') = segment := by
    have hall : ∀ c ∈ segment.reverse, (c != '.') = true := by
      intro c hc
      rw [bne_iff_ne]
      rintro rfl
      exact h (List.mem_reverse.1 hc)
    rw [List.rtakeWhile, List.reverse_append, List.reverse_cons, List.append_assoc,
      List.takeWhile_append_of_pos hall]
    simp
  simp [afterLastDot, htake]

/-- The character class `[A-Z]`. -/
def isAZ (c : Char) : Bool := 65 ≤ c.toNat && c.toNat ≤ 90

/-- The character class `[0-9]`. -/
def is09 (c : Char) : Bool := 48 ≤ c.toNat && c.toNat ≤ 57

/-- The character class `[A-Z0-9]`. -/
def isAZ09 (c : Char) : Bool := isAZ c || is09 c

/-- Does the whole string match a pattern that ends in `$`: the anchor also holds before a final
newline. -/
def matchEnd (p : List Char → Bool) (cs : List Char) : Bool :=
  p cs || (cs.getLast? == some '\n' && p cs.dropLast)

/-! ## Upper case -/

/-- Upper-casing changes no capital letter and no digit. -/
theorem upperChar_of_isAZ09 {c : Char} (h : isAZ09 c = true) : upperChar c = [c] := by
  have key : ∀ n < 91, isAZ09 (Char.ofNat n) = true →
      upperChar (Char.ofNat n) = [Char.ofNat n] := by
    decide +kernel
  have hlt : c.toNat < 91 := by
    simp only [isAZ09, isAZ, is09, Bool.or_eq_true, Bool.and_eq_true, decide_eq_true_eq] at h
    omega
  have := key c.toNat hlt
  rw [Char.ofNat_toNat] at this
  exact this h

/-- A string of capital letters and digits is its own upper case. -/
theorem upper_of_isAZ09 {cs : List Char} (h : ∀ c ∈ cs, isAZ09 c = true) : upper cs = cs := by
  induction cs with
  | nil => rfl
  | cons c cs ih =>
    rw [upper, List.flatMap_cons, upperChar_of_isAZ09 (h c (by simp))]
    simpa [upper] using ih fun d hd => h d (by simp [hd])

/-- No character upper-cases to nothing. -/
theorem upperChar_ne_nil (c : Char) : upperChar c ≠ [] := by
  unfold upperChar
  split
  · simp
  · split
    · next hs =>
      have key : ∀ p ∈ upperSpecial, p.2 ≠ [] := by decide +kernel
      simpa using key _ (List.mem_of_find?_eq_some hs)
    · simp

/-- Only the code point 10 is the newline. -/
theorem eq_of_ofNat_eq_newline {n : Nat} (h : Char.ofNat n = '\n') : n = 10 := by
  by_cases hv : n.isValidChar
  · have hn : Char.ofNat n = Char.ofNatAux n hv := dif_pos hv
    exact congrArg Char.toNat (hn.symm.trans h)
  · have hn : Char.ofNat n = Char.ofNat 0 := (dif_neg hv).trans (dif_pos (by decide)).symm
    exact absurd (hn.symm.trans h) (by decide)

/-- Upper-casing makes no newline. -/
theorem newline_mem_upperChar {c : Char} (h : '\n' ∈ upperChar c) : c = '\n' := by
  unfold upperChar at h
  split at h
  · next r hr =>
    have key : ∀ r ∈ upperRuns, (10 : Int) < r.first + r.delta := by decide +kernel
    have h1 := key r (List.mem_of_find?_eq_some hr)
    have h2 : r.first ≤ c.toNat := by
      have := List.find?_some hr
      simp only [CaseRun.has, Bool.and_eq_true, decide_eq_true_eq] at this
      exact this.1.1
    have h3 := eq_of_ofNat_eq_newline (List.mem_singleton.1 h).symm
    omega
  · split at h
    · next hs =>
      have key : ∀ p ∈ upperSpecial, '\n' ∉ p.2.map Char.ofNat := by decide +kernel
      exact absurd h (key _ (List.mem_of_find?_eq_some hs))
    · exact (List.mem_singleton.1 h).symm

/-! ## Stripping -/

/-- A string without white space is not changed by `strip`. -/
theorem strip_of_not_isSpace {cs : List Char} (h : ∀ c ∈ cs, isSpace c = false) :
    strip cs = cs := by
  have hl : cs.dropWhile isSpace = cs := by
    cases cs with
    | nil => rfl
    | cons c cs => simp [h c (by simp)]
  rw [strip, hl, List.rdropWhile_eq_self_iff]
  intro hne
  simp [h _ (List.getLast_mem hne)]

/-- A stripped string does not end in white space. -/
theorem isSpace_getLast_strip {cs : List Char} (hne : strip cs ≠ []) :
    isSpace ((strip cs).getLast hne) = false := by
  have h := List.rdropWhile_last_not isSpace (cs.dropWhile isSpace) hne
  exact Bool.eq_false_iff.2 h

/-- Capital letters and digits are not white space. -/
theorem isSpace_of_isAZ09 {c : Char} (h : isAZ09 c = true) : isSpace c = false := by
  have key : ∀ n < 91, isAZ09 (Char.ofNat n) = true → isSpace (Char.ofNat n) = false := by decide
  have hlt : c.toNat < 91 := by
    simp only [isAZ09, isAZ, is09, Bool.or_eq_true, Bool.and_eq_true, decide_eq_true_eq] at h
    omega
  have := key c.toNat hlt
  rw [Char.ofNat_toNat] at this
  exact this h

/-- A stripped string upper-cased does not end in a newline. -/
theorem getLast?_upper_strip (cs : List Char) : (upper (strip cs)).getLast? ≠ some '\n' := by
  intro h
  rcases List.eq_nil_or_concat (strip cs) with hs | ⟨l, c, hs⟩
  · rw [hs] at h; simp [upper] at h
  · rw [List.concat_eq_append] at hs
    rw [hs, upper, List.flatMap_append, List.getLast?_append] at h
    have hc : (upperChar c).getLast? = some '\n' := by
      cases hg : (upperChar c).getLast? with
      | none => exact absurd (List.getLast?_eq_none_iff.1 hg) (upperChar_ne_nil c)
      | some d => simpa [hg] using h
    have hn := newline_mem_upperChar (List.mem_of_getLast? hc)
    have hsp := isSpace_getLast_strip (show strip cs ≠ [] by rw [hs]; simp)
    simp only [hs, List.getLast_append_singleton, hn] at hsp
    exact absurd hsp (by decide)

/-! ## Words -/

/-- What `splitOnP` cuts out does not hold the separators. -/
theorem not_of_mem_splitOnP {p : Char → Bool} {cs w : List Char} (hw : w ∈ cs.splitOnP p) :
    ∀ c ∈ w, p c = false := by
  induction cs generalizing w with
  | nil =>
    rw [List.splitOnP_nil, List.mem_singleton] at hw
    subst hw
    intro c hc
    cases hc
  | cons d cs ih =>
    rw [List.splitOnP_cons_eq_if_modifyHead] at hw
    split at hw
    · rcases List.mem_cons.1 hw with rfl | hw
      · intro c hc
        cases hc
      · exact ih hw
    · next hd =>
      obtain ⟨v, vs, hvs⟩ := List.exists_cons_of_ne_nil (List.splitOnP_ne_nil p cs)
      rw [hvs, List.modifyHead_cons] at hw
      rcases List.mem_cons.1 hw with rfl | hw
      · intro c hc
        rcases List.mem_cons.1 hc with rfl | hc
        · exact Bool.eq_false_iff.2 hd
        · exact ih (by rw [hvs]; exact List.mem_cons_self) c hc
      · exact ih (by rw [hvs]; exact List.mem_cons_of_mem v hw)

/-- The words of a string are not empty and hold no white space. -/
theorem word_of_mem_split {cs w : List Char} (hw : w ∈ split cs) :
    w ≠ [] ∧ ∀ c ∈ w, isSpace c = false := by
  obtain ⟨hmem, hne⟩ := List.mem_filter.1 hw
  exact ⟨by simpa using hne, not_of_mem_splitOnP hmem⟩

/-- `split` undoes `join` on words. -/
theorem split_joinSpace {ws : List (List Char)}
    (h : ∀ w ∈ ws, w ≠ [] ∧ ∀ c ∈ w, isSpace c = false) : split (joinSpace ws) = ws := by
  induction ws with
  | nil => rfl
  | cons w ws ih =>
    obtain ⟨hne, hw⟩ := h w List.mem_cons_self
    have ih' := ih fun v hv => h v (List.mem_cons_of_mem w hv)
    cases ws with
    | nil => simp [joinSpace, split, List.splitOnP_eq_singleton hw, hne]
    | cons v vs =>
      have hcut : (joinSpace (w :: v :: vs)).splitOnP isSpace =
          w :: (joinSpace (v :: vs)).splitOnP isSpace := by
        rw [joinSpace, List.intercalate_cons_cons, List.append_assoc]
        exact List.splitOnP_append_cons_of_forall_mem hw ' ' rfl _
      rw [split, hcut, List.filter_cons_of_pos (by simpa using hne)]
      exact congrArg (w :: ·) ih'

/-- Joining the words of a string leaves its words. -/
theorem split_joinSpace_split (cs : List Char) : split (joinSpace (split cs)) = split cs :=
  split_joinSpace fun _ hw => word_of_mem_split hw

/-! ## Replacing -/

/-- Nothing is replaced where the first character does not occur. -/
theorem replace_append_of_not_mem {c : Char} {old new before : List Char} (h : c ∉ before)
    (cs : List Char) :
    replace (c :: old) new (before ++ cs) = before ++ replace (c :: old) new cs := by
  induction before with
  | nil => rfl
  | cons d before ih =>
    have hd : (c == d) = false := beq_eq_false_iff_ne.2 fun heq => h (heq ▸ List.mem_cons_self)
    have ih' := ih fun hmem => h (List.mem_cons_of_mem d hmem)
    unfold replace at ih' ⊢
    rw [List.cons_append, replaceFrom, List.isPrefixOf_cons_cons, hd, Bool.false_and, ih']
    rfl

theorem replaceFrom_skip {old new : List Char} (cs : List Char) :
    replaceFrom old new cs.length cs = [] := by
  induction cs with
  | nil => rfl
  | cons c cs ih => rw [List.length_cons, replaceFrom, ih]

/-- A string that is one occurrence. -/
theorem replace_self (c : Char) (old new : List Char) :
    replace (c :: old) new (c :: old) = new := by
  have hprefix : (c :: old).isPrefixOf (c :: old) = true :=
    List.isPrefixOf_iff_prefix.2 (List.prefix_refl _)
  rw [replace, replaceFrom, if_pos hprefix, List.length_cons, Nat.add_sub_cancel,
    replaceFrom_skip, List.append_nil]

end PyStr
