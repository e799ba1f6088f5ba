import Aeropass.Lib.PyInt
import Aeropass.Lib.PyLower
import Aeropass.Lib.LastWins
import Mathlib.Data.Finset.Dedup
import Mathlib.Data.Finset.Lattice.Lemmas

/-!
# The fault header

`faults/context.py`: the plan that `parse` reads from `X-AeroPass-Fault`. A header is read item by
item. `Recognised` says which items the plan is made of, the others are reported as unknown; of the
values for one delay the last wins (`parse_compositional`).
-/

open PyStr

namespace Aeropass.Faults

/-- `BLOB_DOWN`. -/
def blobDown : String := "blob_down"
/-- `MXFACE_DOWN`. -/
def mxfaceDown : String := "mxface_down"
/-- `MXFACE_SLOW`. -/
def mxfaceSlow : String := "mxface_slow"
/-- `MXFACE_QUOTA`. -/
def mxfaceQuota : String := "mxface_quota"
/-- `DB_DOWN`. -/
def dbDown : String := "db_down"
/-- `REDIS_DOWN`. -/
def redisDown : String := "redis_down"
/-- `SIGNING_DOWN`. -/
def signingDown : String := "signing_down"
/-- `QSTASH_DOWN`. -/
def qstashDown : String := "qstash_down"
/-- `SLOW`. -/
def slow : String := "slow"

/-- `KNOWN_FAULTS`. -/
def knownFaults : Finset String :=
  {blobDown, mxfaceDown, mxfaceSlow, mxfaceQuota, dbDown, redisDown, signingDown, qstashDown, slow}

/-- `DEFAULT_SLOW_MS`. -/
def defaultSlowMs : Int := 12000
/-- `MAX_SLOW_MS`. -/
def maxSlowMs : Int := 60000
/-- `DEFAULT_REQUEST_SLOW_MS`. -/
def defaultRequestSlowMs : Int := 4000

/-- `FaultPlan`. -/
structure FaultPlan where
  faults : Finset String := ∅
  slowMs : Int := defaultSlowMs
  requestSlowMs : Int := defaultRequestSlowMs
  /-- The faults that have fired. -/
  applied : Finset String := ∅
  deriving DecidableEq

/-! ## Items -/

/-- The items that the loop does not skip: stripped, in lower case, and not empty. -/
def items (header : String) : List String :=
  ((header.toList.splitOn ',').map fun raw => lower (String.ofList (strip raw))).filter (· ≠ "")

/-- `item.partition(":")[0]`. -/
def itemName (item : String) : String := String.ofList (item.toList.takeWhile (· != ':'))

/-- `item.partition(":")[2]`. -/
def itemValue (item : String) : String := String.ofList ((item.toList.dropWhile (· != ':')).drop 1)

/-- `max(0, min(ms, MAX_SLOW_MS))`. -/
def clampMs (ms : Int) : Int := max 0 (min ms maxSlowMs)

/-- The variables of the loop. -/
structure ParseState where
  faults : Finset String := ∅
  unknown : List String := []
  slowMs : Int := defaultSlowMs
  requestSlowMs : Int := defaultRequestSlowMs

/-- The body of the loop, for an item that is not empty. -/
def parseItem (s : ParseState) (item : String) : ParseState :=
  let name := itemName item
  let value := itemValue item
  if name ∉ knownFaults then { s with unknown := s.unknown ++ [item] }
  else if (name = mxfaceSlow ∨ name = slow) ∧ value ≠ "" then
    match int value.toList with
    | none => { s with unknown := s.unknown ++ [item] }
    | some n =>
      if name = mxfaceSlow then
        { s with slowMs := clampMs n, faults := insert name s.faults }
      else { s with requestSlowMs := clampMs n, faults := insert name s.faults }
  else { s with faults := insert name s.faults }

/-- `parse`. -/
def parse (header : String) : FaultPlan × List String :=
  let s := (items header).foldl parseItem {}
  ({ faults := s.faults, slowMs := s.slowMs, requestSlowMs := s.requestSlowMs }, s.unknown)

/-! ## What an item says -/

/-- The item sets a delay, that of `fault`, to so many milliseconds. -/
def delayOf (fault item : String) : Option Int :=
  if itemName item = fault ∧ itemValue item ≠ "" then
    (int (itemValue item).toList).map clampMs
  else none

/-- The item names a fault; if it has a value for a delay, that is a number. -/
def Recognised (item : String) : Prop :=
  itemName item ∈ knownFaults ∧
    (itemName item = mxfaceSlow ∨ itemName item = slow → itemValue item ≠ "" →
      (int (itemValue item).toList).isSome = true)

instance : DecidablePred Recognised := fun _ => inferInstanceAs (Decidable (_ ∧ _))

/-- The item is well formed and sets the delay of `fault`. -/
def SetsDelay (fault item : String) : Prop := (delayOf fault item).isSome = true

instance (fault : String) : DecidablePred (SetsDelay fault) :=
  fun _ => inferInstanceAs (Decidable (_ = _))

theorem clampMs_bounds (ms : Int) : 0 ≤ clampMs ms ∧ clampMs ms ≤ maxSlowMs := by
  unfold clampMs maxSlowMs
  omega

theorem delayOf_bounds {fault item : String} {ms : Int} (h : delayOf fault item = some ms) :
    0 ≤ ms ∧ ms ≤ maxSlowMs := by
  unfold delayOf at h
  split at h
  · obtain ⟨n, -, rfl⟩ := Option.map_eq_some_iff.1 h
    exact clampMs_bounds n
  · cases h

/-- An item that sets one of the two delays is recognised. -/
theorem recognised_of_setsDelay {fault item : String} (hfault : fault = mxfaceSlow ∨ fault = slow)
    (h : SetsDelay fault item) : Recognised item := by
  unfold SetsDelay delayOf at h
  split at h
  · next hvalued =>
    obtain ⟨rfl, -⟩ := hvalued
    rw [Option.isSome_map] at h
    refine ⟨?_, fun _ _ => h⟩
    rcases hfault with hname | hname
    · rw [hname]
      decide
    · rw [hname]
      decide
  · cases h

/-- Other items set none. -/
theorem delayOf_of_not_recognised {fault item : String}
    (hfault : fault = mxfaceSlow ∨ fault = slow) (h : ¬ Recognised item) :
    delayOf fault item = none :=
  Option.not_isSome_iff_eq_none.1 fun hset => h (recognised_of_setsDelay hfault hset)

/-- Neither do items of another name. -/
theorem delayOf_of_ne {fault item : String} (h : itemName item ≠ fault) :
    delayOf fault item = none :=
  if_neg fun hvalued => h hvalued.1

/-- An item that is not recognised is reported, and nothing else. -/
theorem parseItem_unknown (s : ParseState) {item : String} (h : ¬ Recognised item) :
    parseItem s item = { s with unknown := s.unknown ++ [item] } := by
  unfold parseItem
  simp only
  split
  · rfl
  · next hname =>
    rw [not_not] at hname
    have hvalue := not_and.1 h hname
    rw [Classical.not_imp, Classical.not_imp, Option.not_isSome_iff_eq_none] at hvalue
    rw [if_pos ⟨hvalue.1, hvalue.2.1⟩, hvalue.2.2]

/-- The body of the loop, by what the item says. -/
theorem parseItem_eq (s : ParseState) (item : String) :
    parseItem s item =
      { faults := if Recognised item then insert (itemName item) s.faults else s.faults
        unknown := if Recognised item then s.unknown else s.unknown ++ [item]
        slowMs := (delayOf mxfaceSlow item).getD s.slowMs
        requestSlowMs := (delayOf slow item).getD s.requestSlowMs } := by
  have hne : mxfaceSlow ≠ slow := by decide
  by_cases hrec : Recognised item
  · rw [if_pos hrec, if_pos hrec]
    unfold parseItem
    simp only
    rw [if_neg (not_not.2 hrec.1)]
    by_cases hvalued : (itemName item = mxfaceSlow ∨ itemName item = slow) ∧ itemValue item ≠ ""
    · obtain ⟨n, hn⟩ := Option.isSome_iff_exists.1 (hrec.2 hvalued.1 hvalued.2)
      rw [if_pos hvalued, hn]
      simp only
      rcases hvalued.1 with hname | hname
      · have hset : delayOf mxfaceSlow item = some (clampMs n) := by
          rw [delayOf, if_pos ⟨hname, hvalued.2⟩, hn]
          rfl
        rw [if_pos hname, hset, delayOf_of_ne (hname.trans_ne hne)]
        rfl
      · have hset : delayOf slow item = some (clampMs n) := by
          rw [delayOf, if_pos ⟨hname, hvalued.2⟩, hn]
          rfl
        rw [if_neg (hname.trans_ne hne.symm), hset, delayOf_of_ne (hname.trans_ne hne.symm)]
        rfl
    · rw [if_neg hvalued, delayOf, if_neg fun h => hvalued ⟨.inl h.1, h.2⟩, delayOf,
        if_neg fun h => hvalued ⟨.inr h.1, h.2⟩]
      rfl
  · rw [if_neg hrec, if_neg hrec, delayOf_of_not_recognised (.inl rfl) hrec,
      delayOf_of_not_recognised (.inr rfl) hrec]
    exact parseItem_unknown s hrec

/-- The loop, by what the items say. -/
theorem foldl_parseItem (xs : List String) (s : ParseState) :
    xs.foldl parseItem s =
      { faults := s.faults ∪ ((xs.filter Recognised).map itemName).toFinset
        unknown := s.unknown ++ xs.filter (¬ Recognised ·)
        slowMs := (lastSet (delayOf mxfaceSlow) xs).getD s.slowMs
        requestSlowMs := (lastSet (delayOf slow) xs).getD s.requestSlowMs } := by
  induction xs generalizing s with
  | nil => simp
  | cons item xs ih =>
    rw [List.foldl_cons, ih, parseItem_eq, lastSet.getD_cons, lastSet.getD_cons, List.filter_cons,
      List.filter_cons]
    by_cases hrec : Recognised item
    · simp [hrec, Finset.insert_union, Finset.union_insert]
    · simp [hrec]

/-! ## What a header says -/

theorem items_append (a b : String) : items (a ++ "," ++ b) = items a ++ items b := by
  have hchars : (a ++ "," ++ b).toList = a.toList ++ ',' :: b.toList := by simp
  rw [items, hchars, List.splitOn_append_cons_self, List.map_append, List.filter_append]
  rfl

theorem parse_faults (header : String) :
    (parse header).1.faults = (((items header).filter Recognised).map itemName).toFinset := by
  rw [parse, foldl_parseItem]
  exact Finset.empty_union _

theorem parse_unknown (header : String) :
    (parse header).2 = (items header).filter (¬ Recognised ·) := by
  rw [parse, foldl_parseItem]
  rfl

theorem parse_slowMs (header : String) :
    (parse header).1.slowMs = (lastSet (delayOf mxfaceSlow) (items header)).getD defaultSlowMs := by
  rw [parse, foldl_parseItem]

theorem parse_requestSlowMs (header : String) :
    (parse header).1.requestSlowMs =
      (lastSet (delayOf slow) (items header)).getD defaultRequestSlowMs := by
  rw [parse, foldl_parseItem]

/-- The value that is set last, or the default, lies in the range. -/
theorem lastSet_bounds {fault : String} {xs : List String} {d : Int}
    (hd : 0 ≤ d ∧ d ≤ maxSlowMs) :
    0 ≤ (lastSet (delayOf fault) xs).getD d ∧ (lastSet (delayOf fault) xs).getD d ≤ maxSlowMs := by
  cases hset : lastSet (delayOf fault) xs with
  | none => exact hd
  | some ms =>
    obtain ⟨item, -, hitem⟩ := lastSet.mem _ hset
    exact delayOf_bounds hitem

/-- Of two lists one after the other, the second decides where it sets the delay. -/
theorem lastSet_append_getD {fault : String} (xs ys : List String) (d : Int) :
    (lastSet (delayOf fault) (xs ++ ys)).getD d =
      if ∃ item ∈ ys, SetsDelay fault item then (lastSet (delayOf fault) ys).getD d
      else (lastSet (delayOf fault) xs).getD d := by
  rw [lastSet.append, Option.getD_or]
  split
  · next hset =>
    obtain ⟨ms, hms⟩ := Option.isSome_iff_exists.1 ((lastSet.isSome_iff _).2 hset)
    rw [hms]
    rfl
  · next hset =>
    have hnone : lastSet (delayOf fault) ys = none :=
      Option.not_isSome_iff_eq_none.1 fun h => hset ((lastSet.isSome_iff _).1 h)
    rw [hnone]
    rfl

/-- The header parser is total and compositional. Every item is either recognised, and then its
name is among the faults, which are known ones, or reported as unknown, in order; the delays are
those set last, in their range. A header followed by another gives both sets of faults, both lists
of unknown items, and the delays of the second where it sets them. The items that are not recognised
do not matter to the plan. -/
theorem parse_compositional :
    (∀ header,
      (parse header).1.faults ⊆ knownFaults ∧
      (∀ fault, fault ∈ (parse header).1.faults ↔
        ∃ item ∈ items header, Recognised item ∧ itemName item = fault) ∧
      (parse header).2 = (items header).filter (¬ Recognised ·) ∧
      (parse header).1.slowMs =
        (lastSet (delayOf mxfaceSlow) (items header)).getD defaultSlowMs ∧
      (parse header).1.requestSlowMs =
        (lastSet (delayOf slow) (items header)).getD defaultRequestSlowMs ∧
      (0 ≤ (parse header).1.slowMs ∧ (parse header).1.slowMs ≤ maxSlowMs) ∧
      0 ≤ (parse header).1.requestSlowMs ∧ (parse header).1.requestSlowMs ≤ maxSlowMs) ∧
    (∀ a b,
      (parse (a ++ "," ++ b)).1.faults = (parse a).1.faults ∪ (parse b).1.faults ∧
      (parse (a ++ "," ++ b)).2 = (parse a).2 ++ (parse b).2 ∧
      (parse (a ++ "," ++ b)).1.slowMs =
        (if ∃ item ∈ items b, SetsDelay mxfaceSlow item then (parse b).1.slowMs
        else (parse a).1.slowMs) ∧
      (parse (a ++ "," ++ b)).1.requestSlowMs =
        if ∃ item ∈ items b, SetsDelay slow item then (parse b).1.requestSlowMs
        else (parse a).1.requestSlowMs) ∧
    ∀ header header', (items header).filter Recognised = (items header').filter Recognised →
      (parse header).1 = (parse header').1 := by
  refine ⟨fun header => ?_, fun a b => ?_, fun header header' h => ?_⟩
  · have hfaults : ∀ fault, fault ∈ (parse header).1.faults ↔
        ∃ item ∈ items header, Recognised item ∧ itemName item = fault := by
      intro fault
      simp [parse_faults, and_assoc]
    refine ⟨fun fault hfault => ?_, hfaults, parse_unknown header, parse_slowMs header,
      parse_requestSlowMs header, ?_, ?_⟩
    · obtain ⟨item, -, hrec, rfl⟩ := (hfaults fault).1 hfault
      exact hrec.1
    · rw [parse_slowMs]
      exact lastSet_bounds (by decide)
    · rw [parse_requestSlowMs]
      exact lastSet_bounds (by decide)
  · refine ⟨?_, ?_, ?_, ?_⟩
    · rw [parse_faults, parse_faults, parse_faults, items_append, List.filter_append,
        List.map_append, List.toFinset_append]
    · rw [parse_unknown, parse_unknown, parse_unknown, items_append, List.filter_append]
    · rw [parse_slowMs, parse_slowMs, parse_slowMs, items_append, lastSet_append_getD]
    · rw [parse_requestSlowMs, parse_requestSlowMs, parse_requestSlowMs, items_append,
        lastSet_append_getD]
  · have hdelay : ∀ fault, fault = mxfaceSlow ∨ fault = slow →
        lastSet (delayOf fault) (items header) = lastSet (delayOf fault) (items header') := by
      intro fault hfault
      have hrec : ∀ item, (delayOf fault item).isSome → decide (Recognised item) = true :=
        fun item hset => decide_eq_true (recognised_of_setsDelay hfault hset)
      rw [← lastSet.filter _ fun item _ => hrec item, h, lastSet.filter _ fun item _ => hrec item]
    rw [parse, parse, foldl_parseItem, foldl_parseItem, h, hdelay _ (.inl rfl), hdelay _ (.inr rfl)]

example : parse " blob_down , MXFACE_SLOW: 8_000,slow:-٣,teleport,slow:1__0,,blob_down:x" =
    ({ faults := {slow, mxfaceSlow, blobDown}, slowMs := 8000, requestSlowMs := 0 },
      ["teleport", "slow:1__0"]) := by
  decide +kernel

end Aeropass.Faults
