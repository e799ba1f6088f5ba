import Mathlib.Tactic.Common
import Mathlib.Data.List.Forall2
import Mathlib.Data.List.Nodup

/-!
# Tables with a primary key

A table is the list of its rows, with no two rows of one key. The primary key is part of the type:
an insert that would repeat a key is refused (`insert?`), and an update that keeps the key of every
row keeps the table one (`modify`).
-/

/-- A table whose rows have the primary key `key`. -/
structure Rows {ρ κ : Type*} (key : ρ → κ) where
  rows : List ρ
  nodup : (rows.map key).Nodup

namespace Rows

variable {ρ κ : Type*} {key : ρ → κ}

/-- The empty table. -/
def empty : Rows key := ⟨[], List.nodup_nil⟩

@[ext] theorem ext {t u : Rows key} (h : t.rows = u.rows) : t = u := by
  cases t; cases u; cases h; rfl

variable [DecidableEq κ]

/-- The row of a key. -/
def find? (t : Rows key) (k : κ) : Option ρ := t.rows.find? fun r => key r = k

/-- Append a row, unless its key is taken. -/
def insert? (t : Rows key) (r : ρ) : Option (Rows key) :=
  if h : key r ∈ t.rows.map key then none
  else some ⟨t.rows ++ [r], by
    rw [List.map_append, List.nodup_append]
    exact ⟨t.nodup, by simp, by rintro a ha b hb rfl; simp at hb; exact h (hb ▸ ha)⟩⟩

/-- Update all rows by a function that keeps keys. -/
def map (t : Rows key) (f : ρ → ρ) (hf : ∀ r, key (f r) = key r) : Rows key where
  rows := t.rows.map f
  nodup := by
    have : key ∘ f = key := funext hf
    rw [List.map_map, this]
    exact t.nodup

/-- Update the row of a key by a function that keeps keys. -/
def modify (t : Rows key) (k : κ) (f : ρ → ρ) (hf : ∀ r, key (f r) = key r) : Rows key :=
  t.map (fun r => if key r = k then f r else r) fun r => by
    split
    · exact hf r
    · rfl

/-- The row found is the row of the table with that key. -/
theorem find?_eq_some {t : Rows key} {k : κ} {r : ρ} :
    t.find? k = some r ↔ r ∈ t.rows ∧ key r = k := by
  constructor
  · intro h
    exact ⟨List.mem_of_find?_eq_some h, by simpa using List.find?_some h⟩
  · rintro ⟨hr, rfl⟩
    cases hf : t.find? (key r) with
    | none => exact absurd (List.find?_eq_none.1 hf r hr) (by simp)
    | some r' =>
      have hk : key r' = key r := by simpa using List.find?_some hf
      rw [List.inj_on_of_nodup_map t.nodup (List.mem_of_find?_eq_some hf) hr hk]

/-- A key that is not found is the key of no row. -/
theorem find?_eq_none {t : Rows key} {k : κ} : t.find? k = none ↔ ∀ r ∈ t.rows, key r ≠ k := by
  simp [find?, List.find?_eq_none]

theorem find?_key {t : Rows key} {k : κ} {r : ρ} (h : t.find? k = some r) : key r = k :=
  (find?_eq_some.1 h).2

theorem find?_of_mem {t : Rows key} {r : ρ} (h : r ∈ t.rows) : t.find? (key r) = some r :=
  find?_eq_some.2 ⟨h, rfl⟩

@[simp] theorem find?_empty (k : κ) : (empty : Rows key).find? k = none := rfl

/-- An insert succeeds exactly when the key is free, and appends the row. -/
theorem insert?_eq_some {t t' : Rows key} {r : ρ} :
    t.insert? r = some t' ↔ t.find? (key r) = none ∧ t'.rows = t.rows ++ [r] := by
  have hfree : t.find? (key r) = none ↔ key r ∉ t.rows.map key := by
    rw [find?_eq_none]; simp
  unfold insert?
  split
  · next h => simp [hfree, h]
  · next h =>
    rw [Option.some.injEq]
    constructor
    · rintro rfl; exact ⟨hfree.2 h, rfl⟩
    · rintro ⟨-, h2⟩; exact ext h2.symm

/-- A row with a free key is inserted. -/
theorem insert?_of_free {t : Rows key} {r : ρ} (h : t.find? (key r) = none) :
    ∃ t', t.insert? r = some t' ∧ t'.rows = t.rows ++ [r] := by
  have hins : (t.insert? r).isSome := by
    rw [insert?, dif_neg]
    · rfl
    · simpa using find?_eq_none.1 h
  obtain ⟨t', ht'⟩ := Option.isSome_iff_exists.1 hins
  exact ⟨t', ht', (insert?_eq_some.1 ht').2⟩

/-- What a lookup finds after an insert. -/
theorem find?_insert? {t t' : Rows key} {r : ρ} (h : t.insert? r = some t') (k : κ) :
    t'.find? k = if key r = k then some r else t.find? k := by
  obtain ⟨hfree, hrows⟩ := insert?_eq_some.1 h
  unfold find? at *
  rw [hrows, List.find?_append, List.find?_singleton]
  by_cases hk : key r = k
  · subst hk; simp [hfree]
  · simp [hk]

/-- What a lookup finds after an update of all rows. -/
theorem find?_map (t : Rows key) (f : ρ → ρ) (hf : ∀ r, key (f r) = key r) (k : κ) :
    (t.map f hf).find? k = (t.find? k).map f := by
  unfold find? map
  rw [List.find?_map]
  congr 2
  funext r
  simp [hf]

/-- What a lookup finds after an update. -/
theorem find?_modify (t : Rows key) (k k' : κ) (f : ρ → ρ) (hf : ∀ r, key (f r) = key r) :
    (t.modify k f hf).find? k' = if k = k' then (t.find? k').map f else t.find? k' := by
  rw [modify, find?_map]
  cases hr : t.find? k' with
  | none => simp
  | some r =>
    obtain rfl := find?_key hr
    by_cases hk : key r = k
    · simp [hk]
    · rw [if_neg fun h => hk h.symm]
      simp [hk]

/-- An update depends on what it does to the row found only. -/
theorem modify_congr {t : Rows key} {k : κ} {r : ρ} {f g : ρ → ρ} (hf : ∀ r, key (f r) = key r)
    (hg : ∀ r, key (g r) = key r) (h : t.find? k = some r) (hfg : f r = g r) :
    t.modify k f hf = t.modify k g hg := by
  refine Rows.ext (List.map_congr_left fun x hx => ?_)
  by_cases hk : key x = k
  · have hxr : x = r := by
      rw [← hk, find?_of_mem hx, Option.some.injEq] at h
      exact h
    rw [if_pos hk, if_pos hk, hxr, hfg]
  · rw [if_neg hk, if_neg hk]

/-- How an update changes the number of rows with a property: by what it does to its row. -/
theorem countP_modify {t : Rows key} {k : κ} {r : ρ} (f : ρ → ρ) (hf : ∀ r, key (f r) = key r)
    (h : t.find? k = some r) (p : ρ → Bool) :
    (t.modify k f hf).rows.countP p + (if p r then 1 else 0) =
      t.rows.countP p + (if p (f r) then 1 else 0) := by
  obtain ⟨hr, rfl⟩ := find?_eq_some.1 h
  obtain ⟨pre, post, hrows⟩ := List.append_of_mem hr
  have hnd := t.nodup
  rw [hrows, List.map_append, List.map_cons, List.nodup_append, List.nodup_cons] at hnd
  -- the rows before and after have other keys
  have hother : ∀ l : List ρ, (∀ x ∈ l, key x ≠ key r) →
      l.map (fun x => if key x = key r then f x else x) = l := by
    intro l hl
    conv_rhs => rw [← List.map_id l]
    exact List.map_congr_left fun x hx => if_neg (hl x hx)
  have hpre : ∀ x ∈ pre, key x ≠ key r := fun x hx =>
    hnd.2.2 _ (List.mem_map_of_mem hx) _ List.mem_cons_self
  have hpost : ∀ x ∈ post, key x ≠ key r := fun x hx heq =>
    hnd.2.1.1 (heq ▸ List.mem_map_of_mem hx)
  simp only [modify, map, hrows, List.map_append, List.map_cons, hother pre hpre,
    hother post hpost, List.countP_append, List.countP_cons, if_true]
  omega

/-! ## Parallel tables

Two tables run in parallel when their rows, in order, are related one to one. -/

section
variable {α β : Type*} {R N : α → β → Prop} {l : List α} {u : List β} {id : β → κ}

omit [DecidableEq κ]

/-- Every row of the first table has its row of the second. -/
theorem exists_right_of_forall₂ (h : List.Forall₂ R l u) {a : α} (ha : a ∈ l) : ∃ b ∈ u, R a b := by
  induction h with
  | nil => cases ha
  | @cons a' b' l u hr _ ih =>
    rcases List.mem_cons.1 ha with rfl | ha
    · exact ⟨b', List.mem_cons_self, hr⟩
    · obtain ⟨b, hb, hab⟩ := ih ha
      exact ⟨b, List.mem_cons_of_mem _ hb, hab⟩

/-- Some rows of the first table have theirs of the second, in order; all have all. -/
theorem exists_sublist_of_forall₂ (h : List.Forall₂ R l u) (p : α → Bool) :
    ∃ v, v.Sublist u ∧ List.Forall₂ R (l.filter p) v ∧ ((∀ a ∈ l, p a) → v = u) := by
  induction h with
  | nil => exact ⟨[], .refl _, .nil, fun _ => rfl⟩
  | @cons a b l u hr _ ih =>
    obtain ⟨v, hsub, hv, hall⟩ := ih
    cases hp : p a with
    | true =>
      rw [List.filter_cons_of_pos hp]
      refine ⟨b :: v, hsub.cons_cons b, .cons hr hv, fun h => ?_⟩
      rw [hall fun a ha => h a (List.mem_cons_of_mem _ ha)]
    | false =>
      rw [List.filter_cons_of_neg (by simp [hp])]
      refine ⟨v, hsub.cons b, hv, fun h => ?_⟩
      have := h a List.mem_cons_self
      rw [hp] at this
      cases this

/-- Every row of the second table has exactly one row of the first that names it, when a row names
only what has the key of the row it is related to. -/
theorem existsUnique_left_of_forall₂ (h : List.Forall₂ R l u) (hnd : (u.map id).Nodup)
    (hN : ∀ {a b}, R a b → N a b) (hkey : ∀ {a b c}, R a c → N a b → id c = id b) {b : β}
    (hb : b ∈ u) : ∃! a, a ∈ l ∧ N a b := by
  induction h with
  | nil => cases hb
  | @cons a' b' l u hr htail ih =>
    rw [List.map_cons, List.nodup_cons] at hnd
    rcases List.mem_cons.1 hb with rfl | hb
    · refine ⟨a', ⟨List.mem_cons_self, hN hr⟩, ?_⟩
      rintro a ⟨ha, hab⟩
      rcases List.mem_cons.1 ha with rfl | ha
      · rfl
      · obtain ⟨c, hc, hac⟩ := exists_right_of_forall₂ htail ha
        exact absurd (List.mem_map_of_mem hc) (hkey hac hab ▸ hnd.1)
    · obtain ⟨a, ⟨ha, hab⟩, huniq⟩ := ih hnd.2 hb
      refine ⟨a, ⟨List.mem_cons_of_mem _ ha, hab⟩, ?_⟩
      rintro a₂ ⟨ha₂, hab₂⟩
      rcases List.mem_cons.1 ha₂ with rfl | ha₂
      · exact absurd (List.mem_map_of_mem hb) (hkey hr hab₂ ▸ hnd.1)
      · exact huniq a₂ ⟨ha₂, hab₂⟩

end

end Rows
