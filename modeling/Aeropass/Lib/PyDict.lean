import Aeropass.Lib.PyJson
import Mathlib.Data.List.Forall2
import Mathlib.Data.List.Sort
import Mathlib.Data.Option.Basic

/-!
# Python dictionaries of decoded JSON

A `dict` is the list of its entries in the order of insertion. `Json.Equal` is equality without
regard to that order; every function here reads a dictionary through `lookup`, or writes to it
with a lemma that says what `lookup` finds afterwards.
-/

namespace Json

/-- The entries of a `dict`. -/
abbrev Dict := List (String × Json)

namespace Dict

/-- `{k: v for k, v in d.items() if p(k)}`. -/
def keep (p : String → Bool) (d : Dict) : Dict := d.filter fun entry => p entry.1

/-- `d.pop(key, None)`. -/
def pop (key : String) (d : Dict) : Dict := d.keep (· != key)

/-- `for key in keys: d.pop(key, None)`. -/
def popAll (keys : List String) (d : Dict) : Dict := keys.foldl (fun d key => d.pop key) d

/-- `d[key] = v`: in the place of the old entry, or at the end. -/
def set (key : String) (v : Json) (d : Dict) : Dict :=
  if (d.lookup key).isSome then d.map fun entry => if entry.1 = key then (key, v) else entry
  else d ++ [(key, v)]

/-- `d.get(key)`. -/
def get (key : String) (d : Dict) : Json := (d.lookup key).getD .null

/-- A key is looked up in the first entry, then in the others. -/
theorem lookup_cons_ite {V : Type} (entry : String × V) (d : List (String × V)) (k : String) :
    List.lookup k (entry :: d) = if k = entry.1 then some entry.2 else d.lookup k := by
  obtain ⟨key, v⟩ := entry
  by_cases hk : k = key
  · simp [hk]
  · simp [hk, List.lookup_cons, beq_eq_false_iff_ne.2 hk]

/-- What is found among the entries whose keys are kept. -/
theorem lookup_filter_keys {V : Type} (p : String → Bool) (d : List (String × V)) (k : String) :
    (d.filter fun entry => p entry.1).lookup k = if p k then d.lookup k else none := by
  induction d with
  | nil => simp
  | cons entry d ih =>
    rw [List.filter_cons, lookup_cons_ite]
    by_cases hk : k = entry.1
    · subst hk
      split
      · rw [lookup_cons_ite, if_pos rfl, if_pos rfl]
      · next hp => rw [ih, if_neg hp]
    · rw [if_neg hk]
      split
      · rw [lookup_cons_ite, if_neg hk, ih]
      · exact ih

theorem lookup_keep (p : String → Bool) (d : Dict) (k : String) :
    (d.keep p).lookup k = if p k then d.lookup k else none :=
  lookup_filter_keys p d k

theorem lookup_pop (key : String) (d : Dict) (k : String) :
    (d.pop key).lookup k = if k = key then none else d.lookup k := by
  rw [pop, lookup_keep]
  by_cases hk : k = key
  · simp [hk]
  · simp [hk]

/-- What is left under a key after `pop`s. -/
theorem lookup_popAll (keys : List String) (d : Dict) (k : String) :
    (d.popAll keys).lookup k = if k ∈ keys then none else d.lookup k := by
  induction keys generalizing d with
  | nil => simp [popAll]
  | cons key keys ih =>
    have ih' : ((d.pop key).popAll keys).lookup k = _ := ih (d.pop key)
    rw [popAll, List.foldl_cons]
    rw [popAll] at ih'
    rw [ih', lookup_pop]
    by_cases hk : k = key
    · simp [hk]
    · simp [hk]

theorem get_congr {d d' : Dict} {k : String} (h : d.lookup k = d'.lookup k) :
    d.get k = d'.get k := by
  rw [get, get, h]

/-- Overwriting the entries of a key. -/
theorem lookup_overwrite (key : String) (v : Json) (d : Dict) (k : String) :
    (d.map fun entry => if entry.1 = key then (key, v) else entry).lookup k =
      if k = key then (d.lookup key).map fun _ => v else d.lookup k := by
  induction d with
  | nil => simp
  | cons entry d ih =>
    rw [List.map_cons, lookup_cons_ite, lookup_cons_ite, lookup_cons_ite, ih]
    by_cases hentry : entry.1 = key
    · subst hentry
      rw [if_pos rfl, if_pos rfl, Option.map_some]
      split
      · rfl
      · rfl
    · rw [if_neg hentry, if_neg (Ne.symm hentry)]
      by_cases hk : k = key
      · subst hk
        rw [if_neg (Ne.symm hentry), if_pos rfl, if_pos rfl]
      · rw [if_neg hk, if_neg hk]

/-- What is under a key after an assignment. -/
theorem lookup_set (key : String) (v : Json) (d : Dict) (k : String) :
    (d.set key v).lookup k = if k = key then some v else d.lookup k := by
  unfold set
  split
  · next h =>
    obtain ⟨w, hw⟩ := Option.isSome_iff_exists.1 h
    rw [lookup_overwrite, hw]
    rfl
  · next h =>
    rw [List.lookup_append]
    by_cases hk : k = key
    · subst hk
      rw [Option.not_isSome_iff_eq_none.1 h]
      simp
    · simp [hk, List.lookup_cons, beq_eq_false_iff_ne.2 hk]

section
variable {r : String × Json → String × Json → Prop} [DecidableRel r]
  (hr : ∀ a b : String × Json, a.1 = b.1 → r a b)
include hr

/-- What is under a key after an insertion in an order. -/
theorem lookup_orderedInsert (entry : String × Json) (d : Dict) (k : String) :
    (d.orderedInsert r entry).lookup k = if k = entry.1 then some entry.2 else d.lookup k := by
  induction d with
  | nil => exact lookup_cons_ite entry [] k
  | cons b d ih =>
    rw [List.orderedInsert_cons]
    split
    · exact lookup_cons_ite entry (b :: d) k
    · next hrb =>
      have hne : b.1 ≠ entry.1 := fun heq => hrb (hr entry b heq.symm)
      rw [lookup_cons_ite, lookup_cons_ite, ih]
      by_cases hk : k = entry.1
      · rw [if_pos hk, if_pos hk, if_neg fun heq => hne (heq.symm.trans hk)]
      · rw [if_neg hk, if_neg hk]

/-- Sorting the entries by their keys leaves what is found. -/
theorem lookup_insertionSort (d : Dict) (k : String) :
    (d.insertionSort r).lookup k = d.lookup k := by
  induction d with
  | nil => rfl
  | cons entry d ih => rw [List.insertionSort_cons, lookup_orderedInsert hr, ih, lookup_cons_ite]

end

/-- A dictionary is empty when it has no key. -/
theorem eq_nil_iff (d : Dict) : d = [] ↔ ∀ k, d.lookup k = none := by
  constructor
  · rintro rfl k
    rfl
  · intro h
    cases d with
    | nil => rfl
    | cons entry d =>
      have := h entry.1
      simp at this

end Dict

/-! ## Equality -/

/-- `v == w`, up to the order of the entries of dictionaries. -/
inductive Equal : Json → Json → Prop
  | null : Equal .null .null
  | bool (b : Bool) : Equal (.bool b) (.bool b)
  | int (n : Int) : Equal (.int n) (.int n)
  | float (x : Binary64) : Equal (.float x) (.float x)
  | str (s : String) : Equal (.str s) (.str s)
  | array {xs ys : List Json} (h : List.Forall₂ Equal xs ys) : Equal (.array xs) (.array ys)
  | object {d d' : Dict} (h : ∀ k, Option.Rel Equal (d.lookup k) (d'.lookup k)) :
    Equal (.object d) (.object d')

/-- The values of a dictionary are smaller than it is. -/
theorem Dict.sizeOf_lookup {d : Dict} {k : String} {v : Json} (h : d.lookup k = some v) :
    sizeOf v < sizeOf d := by
  induction d with
  | nil => cases h
  | cons entry d ih =>
    obtain ⟨key, w⟩ := entry
    rw [List.lookup_cons] at h
    split at h
    · cases h
      simp only [List.cons.sizeOf_spec, Prod.mk.sizeOf_spec]
      omega
    · have := ih h
      simp only [List.cons.sizeOf_spec]
      omega

/-- Induction on a value, with the values that a dictionary has under its keys. -/
@[elab_as_elim] theorem induct {P : Json → Prop} (null : P .null) (bool : ∀ b, P (.bool b))
    (int : ∀ n, P (.int n)) (float : ∀ x, P (.float x)) (str : ∀ s, P (.str s))
    (array : ∀ items : List Json, (∀ v ∈ items, P v) → P (.array items))
    (object : ∀ d : Dict, (∀ k v, d.lookup k = some v → P v) → P (.object d)) : ∀ v, P v
  | .null => null
  | .bool b => bool b
  | .int n => int n
  | .float x => float x
  | .str s => str s
  | .array items => array items fun v _hv => induct null bool int float str array object v
  | .object d => object d fun _ v _hv => induct null bool int float str array object v
termination_by v => sizeOf v
decreasing_by
  · have := List.sizeOf_lt_of_mem _hv
    simp only [Json.array.sizeOf_spec]
    omega
  · have := Dict.sizeOf_lookup _hv
    simp only [Json.object.sizeOf_spec]
    omega

namespace Equal

/-- Every value is equal to itself. -/
theorem refl (v : Json) : v.Equal v := by
  induction v using Json.induct with
  | null => exact .null
  | bool b => exact .bool b
  | int n => exact .int n
  | float x => exact .float x
  | str s => exact .str s
  | array items ih => exact .array (List.forall₂_same.2 ih)
  | object d ih =>
    refine .object fun k => ?_
    have hk := ih k
    generalize d.lookup k = x at hk ⊢
    cases x with
    | none => exact .none
    | some v => exact .some (hk v rfl)

/-- Equality of values up to the order of keys is symmetric. -/
theorem symm {v w : Json} (h : v.Equal w) : w.Equal v := by
  induction v using Json.induct generalizing w with
  | array items ih =>
    cases h with
    | array h =>
      refine .array ?_
      induction h with
      | nil => exact .nil
      | cons hvw _ ih' =>
        exact .cons (ih _ List.mem_cons_self hvw)
          (ih' fun v hv w hvw => ih v (List.mem_cons_of_mem _ hv) hvw)
  | object d ih =>
    cases h with
    | @object _ d' h =>
      refine .object fun k => ?_
      have hk := h k
      have ihk := ih k
      generalize d.lookup k = x at hk ihk ⊢
      generalize d'.lookup k = y at hk ⊢
      cases hk with
      | none => exact .none
      | some hvw => exact .some (ihk _ rfl hvw)
  | _ => cases h; exact refl _

/-- And transitive. -/
theorem trans {u v w : Json} (h : u.Equal v) (h' : v.Equal w) : u.Equal w := by
  induction u using Json.induct generalizing v w with
  | array items ih =>
    cases h with
    | array h =>
      cases h' with
      | @array _ zs h' =>
        refine .array ?_
        induction h generalizing zs with
        | nil => exact h'
        | cons huv _ ih' =>
          cases h' with
          | cons hvw htail =>
            exact .cons (ih _ List.mem_cons_self huv hvw)
              (ih' (fun u hu v w huv hvw => ih u (List.mem_cons_of_mem _ hu) huv hvw) htail)
  | object d ih =>
    cases h with
    | @object _ d' h =>
      cases h' with
      | @object _ d'' h' =>
        refine .object fun k => ?_
        have hk := h k
        have hk' := h' k
        have ihk := ih k
        generalize d.lookup k = x at hk ihk ⊢
        generalize d'.lookup k = y at hk hk'
        generalize d''.lookup k = z at hk' ⊢
        cases hk with
        | none => exact hk'
        | some huv =>
          cases hk' with
          | some hvw => exact .some (ihk _ rfl huv hvw)
  | _ => cases h; exact h'

variable {v w : Json} {d d' : Dict}

/-- Equal dictionaries are empty together. -/
theorem nil_iff (h : ∀ k, Option.Rel Json.Equal (d.lookup k) (d'.lookup k)) :
    d = [] ↔ d' = [] := by
  rw [Dict.eq_nil_iff, Dict.eq_nil_iff]
  refine forall_congr' fun k => ?_
  have hk := h k
  generalize d.lookup k = x at hk ⊢
  generalize d'.lookup k = y at hk ⊢
  cases hk <;> simp

/-- Equal values have one truth value. -/
theorem truthy (h : v.Equal w) : v.truthy = w.truthy := by
  cases h with
  | array h => cases h <;> rfl
  | object h =>
    have hnil := nil_iff h
    simp only [Json.truthy, ← List.isEmpty_iff] at hnil ⊢
    rw [Bool.eq_iff_iff.2 hnil]
  | _ => rfl

theorem isNull (h : v.Equal w) : v.isNull = w.isNull := by
  cases h <;> rfl

theorem eqStr (h : v.Equal w) (s : String) : v.eqStr s = w.eqStr s := by
  cases h <;> rfl

/-- Equal values are equal dictionaries, or no dictionaries. -/
theorem dict_cases (h : v.Equal w) :
    (∃ d d' : Dict, v = .object d ∧ w = .object d' ∧
      ∀ k, Option.Rel Json.Equal (d.lookup k) (d'.lookup k)) ∨
    v.isObject = false ∧ w.isObject = false := by
  cases h with
  | object h => exact .inl ⟨_, _, rfl, rfl, h⟩
  | _ => exact .inr ⟨rfl, rfl⟩

/-- Equal values are one string, or no strings. -/
theorem str_cases (h : v.Equal w) :
    (∃ s, v = .str s ∧ w = .str s) ∨ v.isStr = false ∧ w.isStr = false := by
  cases h with
  | str s => exact .inl ⟨s, rfl, rfl⟩
  | _ => exact .inr ⟨rfl, rfl⟩

end Equal

namespace Dict

/-- What `get` finds other than `None` is an entry. -/
theorem lookup_of_get {d : Dict} {k : String} {v : Json} (h : d.get k = v)
    (hv : v.isNull = false) : d.lookup k = some v := by
  unfold get at h
  cases hl : d.lookup k with
  | none =>
    rw [hl] at h
    subst h
    cases hv
  | some w =>
    rw [hl] at h
    exact congrArg some h

/-- The entries of a key are equal, or both missing. -/
def EqualAt (d d' : Dict) (k : String) : Prop := Option.Rel Json.Equal (d.lookup k) (d'.lookup k)

/-- All entries are equal. -/
def Equal (d d' : Dict) : Prop := ∀ k, d.EqualAt d' k

variable {d d' a b a' b' : Dict} {k key : String} {keys : List String} {v w : Json}

theorem EqualAt.refl (d : Dict) (k : String) : d.EqualAt d k := by
  unfold EqualAt
  cases d.lookup k with
  | none => exact .none
  | some v => exact .some (Json.Equal.refl v)

theorem Equal.symm (h : d.Equal d') : d'.Equal d := by
  cases (Json.Equal.object h).symm with
  | object h' => exact h'

/-- What `get` finds under related entries. -/
theorem get_rel {R : Json → Json → Prop} (hR : R .null .null)
    (h : Option.Rel R (d.lookup k) (d'.lookup k)) : R (d.get k) (d'.get k) := by
  unfold Dict.get
  generalize d.lookup k = x at h ⊢
  generalize d'.lookup k = y at h ⊢
  cases h with
  | none => exact hR
  | some h => exact h

/-- What lies under a key does not matter to the others. -/
theorem EqualAt.cons_of_ne (hk : k ≠ key) (h : d.EqualAt d' k) :
    EqualAt ((key, v) :: d) ((key, w) :: d') k := by
  rw [EqualAt, lookup_cons_ite, lookup_cons_ite, if_neg hk, if_neg hk]
  exact h

theorem EqualAt.cons_self (h : d.EqualAt d' k) :
    EqualAt ((key, v) :: d) ((key, v) :: d') k := by
  rw [EqualAt, lookup_cons_ite, lookup_cons_ite]
  split
  · exact .some (Json.Equal.refl v)
  · exact h

theorem EqualAt.isSome (h : d.EqualAt d' k) : (d.lookup k).isSome = (d'.lookup k).isSome := by
  unfold EqualAt at h
  generalize d.lookup k = x at h ⊢
  generalize d'.lookup k = y at h ⊢
  cases h <;> rfl

theorem EqualAt.get (h : d.EqualAt d' k) : (d.get k).Equal (d'.get k) := get_rel .null h

/-! ## Writing to two dictionaries -/

/-- `a` and `b` come from `d` and `d'` by writes to some keys, under which they are equal now. -/
structure Written (keys : List String) (d d' a b : Dict) : Prop where
  equal : ∀ k ∈ keys, a.EqualAt b k
  frame : ∀ k ∉ keys, a.lookup k = d.lookup k ∧ b.lookup k = d'.lookup k

namespace Written

theorem same (h : ∀ k ∈ keys, d.EqualAt d' k) : Written keys d d' d d' :=
  ⟨h, fun _ _ => ⟨rfl, rfl⟩⟩

theorem same_key (h : d.EqualAt d' key) : Written [key] d d' d d' :=
  same fun k hk => by rw [List.mem_singleton.1 hk]; exact h

theorem pop (key : String) : Written [key] d d' (d.pop key) (d'.pop key) where
  equal k hk := by
    rw [List.mem_singleton] at hk
    rw [EqualAt, lookup_pop, lookup_pop, if_pos hk, if_pos hk]
    exact .none
  frame k hk := by
    rw [List.mem_singleton] at hk
    rw [lookup_pop, lookup_pop, if_neg hk, if_neg hk]
    exact ⟨rfl, rfl⟩

theorem popAll (keys : List String) : Written keys d d' (d.popAll keys) (d'.popAll keys) where
  equal k hk := by
    rw [EqualAt, lookup_popAll, lookup_popAll, if_pos hk, if_pos hk]
    exact .none
  frame k hk := by
    rw [lookup_popAll, lookup_popAll, if_neg hk, if_neg hk]
    exact ⟨rfl, rfl⟩

theorem set (key : String) (h : v.Equal w) : Written [key] d d' (d.set key v) (d'.set key w) where
  equal k hk := by
    rw [List.mem_singleton] at hk
    rw [EqualAt, lookup_set, lookup_set, if_pos hk, if_pos hk]
    exact .some h
  frame k hk := by
    rw [List.mem_singleton] at hk
    rw [lookup_set, lookup_set, if_neg hk, if_neg hk]
    exact ⟨rfl, rfl⟩

/-- One write after the other. -/
theorem trans {keys' : List String} (h : Written keys d d' a b) (h' : Written keys' a b a' b') :
    Written (keys ++ keys') d d' a' b' where
  equal k hk := by
    by_cases hk' : k ∈ keys'
    · exact h'.equal k hk'
    · have hkey : k ∈ keys := (List.mem_append.1 hk).resolve_right hk'
      rw [EqualAt, (h'.frame k hk').1, (h'.frame k hk').2]
      exact h.equal k hkey
  frame k hk := by
    have hkey : k ∉ keys := fun hm => hk (List.mem_append_left keys' hm)
    have hkey' : k ∉ keys' := fun hm => hk (List.mem_append_right keys hm)
    exact ⟨(h'.frame k hkey').1.trans (h.frame k hkey).1,
      (h'.frame k hkey').2.trans (h.frame k hkey).2⟩

/-- Entries of the other keys are related as before. -/
theorem entry {R : Json → Json → Prop} (h : Written keys d d' a b) (hk : k ∉ keys)
    (hR : Option.Rel R (d.lookup k) (d'.lookup k)) : Option.Rel R (a.lookup k) (b.lookup k) := by
  rw [(h.frame k hk).1, (h.frame k hk).2]
  exact hR

/-- With equal entries elsewhere, the results are equal. -/
theorem done (h : Written keys d d' a b) (hrest : ∀ k, k ∉ keys → d.EqualAt d' k) : a.Equal b := by
  intro k
  by_cases hk : k ∈ keys
  · exact h.equal k hk
  · rw [EqualAt, (h.frame k hk).1, (h.frame k hk).2]
    exact hrest k hk

end Written

end Dict

end Json
