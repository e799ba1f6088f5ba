import Mathlib.Tactic.Common
import Mathlib.Data.List.Induction

/-!
# Runs of a partial step function

A system is a function `step : σ → α → Option σ`: the state after one labelled step, or `none`
where the step is not enabled. `run` folds it over a list of labels, `Reachable` is what runs from
the initial states reach, and `outputs` collects what an observer of the single steps sees along a
run. Every safety argument of a development goes through one of three rules: a property that steps
keep holds after the run (`run_invariant`, `Reachable.invariant`), a preorder that contains the
steps contains the runs (`run_rel`), and a property the run did not start with was entered by one
of its steps (`run_entry`).
-/

namespace Runs

variable {σ α β : Type*} {step : σ → α → Option σ}

/-- The state after the labels, taken in order; `none` once a step is not enabled. -/
def run (step : σ → α → Option σ) (s : σ) : List α → Option σ
  | [] => some s
  | a :: as => (step s a).bind fun s' => run step s' as

/-- The states that runs from the initial states reach. -/
def Reachable (init : σ → Prop) (step : σ → α → Option σ) (s : σ) : Prop :=
  ∃ s₀ as, init s₀ ∧ run step s₀ as = some s

/-- What an observer of single steps sees along a run. -/
def outputs (obs : σ → α → σ → List β) (step : σ → α → Option σ) (s : σ) : List α → List β
  | [] => []
  | a :: as =>
    match step s a with
    | none => []
    | some s' => obs s a s' ++ outputs obs step s' as

@[simp] theorem run_nil (s : σ) : run step s [] = some s := rfl

theorem run_cons (s : σ) (a : α) (as : List α) :
    run step s (a :: as) = (step s a).bind fun s' => run step s' as := rfl

/-- A run of one label is a step. -/
@[simp] theorem run_singleton (s : σ) (a : α) : run step s [a] = step s a := by
  simp [run_cons]

/-- Runs compose. -/
theorem run_append (s : σ) (as bs : List α) :
    run step s (as ++ bs) = (run step s as).bind fun s' => run step s' bs := by
  induction as generalizing s with
  | nil => rfl
  | cons a as ih =>
    rw [List.cons_append, run_cons, run_cons, Option.bind_assoc]
    cases step s a with
    | none => rfl
    | some s' => exact ih s'

/-- A run of a nonempty list of labels ends with a step. -/
theorem run_snoc {s t : σ} {as : List α} {a : α} :
    run step s (as ++ [a]) = some t ↔ ∃ s', run step s as = some s' ∧ step s' a = some t := by
  rw [run_append, Option.bind_eq_some_iff]
  simp

/-- Induction on a run from its end: what holds at its start and is kept by each further step. -/
theorem run_induction {s : σ} {P : List α → σ → Prop} (h0 : P [] s)
    (hs : ∀ as s' a t, run step s as = some s' → P as s' → step s' a = some t → P (as ++ [a]) t) :
    ∀ {as t}, run step s as = some t → P as t := by
  intro as
  induction as using List.reverseRecOn with
  | nil => intro t h; cases h; exact h0
  | append_singleton as a ih =>
    intro t h
    obtain ⟨s', h1, h2⟩ := run_snoc.1 h
    exact hs as s' a t h1 (ih h1) h2

/-- A property that every step keeps is kept by every run. -/
theorem run_invariant {I : σ → Prop} (hs : ∀ s a t, I s → step s a = some t → I t)
    {s t : σ} {as : List α} (h : run step s as = some t) (h0 : I s) : I t :=
  run_induction (P := fun _ t => I t) h0 (fun _ s' a t _ hi hst => hs s' a t hi hst) h

/-- A preorder that contains every step from a state of the invariant contains the runs from
one. -/
theorem run_rel {I : σ → Prop} {R : σ → σ → Prop} (hI : ∀ s a t, I s → step s a = some t → I t)
    (hrefl : ∀ s, R s s) (htrans : ∀ {s t u}, R s t → R t u → R s u)
    (hR : ∀ s a t, I s → step s a = some t → R s t)
    {s t : σ} {as : List α} (h : run step s as = some t) (h0 : I s) : R s t :=
  (run_induction (P := fun _ t => I t ∧ R s t) ⟨h0, hrefl s⟩
    (fun _ s' a t _ hi hst => ⟨hI s' a t hi.1 hst, htrans hi.2 (hR s' a t hi.1 hst)⟩) h).2

/-- A property that fails at the start of a run and holds at its end is entered by one of its
steps. -/
theorem run_entry {Q : σ → Prop} {s t : σ} {as : List α} (h : run step s as = some t)
    (h0 : ¬ Q s) (hQ : Q t) :
    ∃ pre a post s₁ s₂, as = pre ++ a :: post ∧ run step s pre = some s₁ ∧ ¬ Q s₁ ∧
      step s₁ a = some s₂ ∧ Q s₂ ∧ run step s₂ post = some t := by
  induction as generalizing s with
  | nil => cases h; exact absurd hQ h0
  | cons a as ih =>
    obtain ⟨s', h1, h2⟩ := Option.bind_eq_some_iff.1 h
    by_cases hq : Q s'
    · exact ⟨[], a, as, s, s', rfl, rfl, h0, h1, hq, h2⟩
    · obtain ⟨pre, b, post, s₁, s₂, rfl, hpre, hn, hst, hy, hpost⟩ := ih h2 hq
      exact ⟨a :: pre, b, post, s₁, s₂, rfl, by rw [run_cons, h1]; exact hpre, hn, hst, hy, hpost⟩

/-- A run splits at any point of its labels. -/
theorem run_split {s t : σ} {pre post : List α} {a : α}
    (h : run step s (pre ++ a :: post) = some t) :
    ∃ s₁ s₂, run step s pre = some s₁ ∧ step s₁ a = some s₂ ∧ run step s₂ post = some t := by
  rw [run_append, Option.bind_eq_some_iff] at h
  obtain ⟨s₁, h1, h2⟩ := h
  obtain ⟨s₂, h2, h3⟩ := Option.bind_eq_some_iff.1 h2
  exact ⟨s₁, s₂, h1, h2, h3⟩

/-! ## Conditions on the steps of a run -/

/-- Every step of the run satisfies `P`: the state before it, its label, the state after it. -/
def EachStep (step : σ → α → Option σ) (P : σ → α → σ → Prop) (s : σ) (as : List α) : Prop :=
  ∀ pre a post u v, as = pre ++ a :: post → run step s pre = some u → step u a = some v → P u a v

section
variable {P : σ → α → σ → Prop}

@[simp] theorem eachStep_nil (s : σ) : EachStep step P s [] := by
  intro pre a post u v h
  simp at h

/-- The steps of a run are its first one and those of the rest. -/
theorem eachStep_cons {s : σ} {a : α} {as : List α} :
    EachStep step P s (a :: as) ↔
      ∀ t, step s a = some t → P s a t ∧ EachStep step P t as := by
  constructor
  · intro h t ht
    refine ⟨h [] a as s t rfl rfl ht, ?_⟩
    intro pre b post u v has hu hst
    refine h (a :: pre) b post u v (by rw [has]; rfl) ?_ hst
    rw [run_cons, ht]
    exact hu
  · rintro h (_ | ⟨c, pre⟩) b post u v has hu hst
    · cases has
      cases hu
      exact (h v hst).1
    · cases has
      obtain ⟨t, ht, hu⟩ := Option.bind_eq_some_iff.1 hu
      exact (h t ht).2 pre b post u v rfl hu hst

/-- The steps of a run whose first one is enabled. -/
theorem eachStep_cons_of_some {s t : σ} {a : α} {as : List α} (h : step s a = some t) :
    P s a t ∧ EachStep step P t as ↔ EachStep step P s (a :: as) := by
  rw [eachStep_cons, h]
  simp

/-- A condition on steps that can be decided can be decided of a run. -/
instance EachStep.decidable [∀ s a t, Decidable (P s a t)] :
    (s : σ) → (as : List α) → Decidable (EachStep step P s as)
  | _, [] => .isTrue (eachStep_nil _)
  | s, a :: as =>
    match h : step s a with
    | none => .isTrue (eachStep_cons.2 fun t ht => by rw [h] at ht; cases ht)
    | some t =>
      have := EachStep.decidable t as
      decidable_of_iff _ (eachStep_cons_of_some h)

/-- A weaker condition. -/
theorem EachStep.imp {Q : σ → α → σ → Prop} (hPQ : ∀ s a t, P s a t → Q s a t) {s : σ}
    {as : List α} (h : EachStep step P s as) : EachStep step Q s as := by
  intro pre a post u v has hu hst
  exact hPQ u a v (h pre a post u v has hu hst)

/-- Two conditions. -/
theorem EachStep.and {Q : σ → α → σ → Prop} {s : σ} {as : List α} (hP : EachStep step P s as)
    (hQ : EachStep step Q s as) : EachStep step (fun s a t => P s a t ∧ Q s a t) s as := by
  intro pre a post u v has hu hst
  exact ⟨hP pre a post u v has hu hst, hQ pre a post u v has hu hst⟩

/-- Some step of a run does not satisfy the condition. -/
theorem not_eachStep {s : σ} {as : List α} :
    ¬ EachStep step P s as ↔ ∃ pre a post u v, as = pre ++ a :: post ∧ run step s pre = some u ∧
      step u a = some v ∧ ¬ P u a v := by
  unfold EachStep
  push Not
  rfl

/-- The steps of the first part of a run. -/
theorem EachStep.left {s : σ} {as bs : List α} (h : EachStep step P s (as ++ bs)) :
    EachStep step P s as := by
  intro pre a post u v has hu hst
  exact h pre a (post ++ bs) u v (by rw [has]; simp) hu hst

/-- The steps of the second part of a run. -/
theorem EachStep.right {s t : σ} {as bs : List α} (h : EachStep step P s (as ++ bs))
    (ht : run step s as = some t) : EachStep step P t bs := by
  intro pre a post u v hbs hu hst
  refine h (as ++ pre) a post u v (by rw [hbs]; simp) ?_ hst
  rw [run_append, ht]
  exact hu

/-- The steps of a composed run. -/
theorem EachStep.append {s t : σ} {as bs : List α} (h : EachStep step P s as)
    (ht : run step s as = some t) (h' : EachStep step P t bs) :
    EachStep step P s (as ++ bs) := by
  induction as generalizing s with
  | nil => cases ht; exact h'
  | cons a as ih =>
    obtain ⟨u, hst, hrun⟩ := Option.bind_eq_some_iff.1 ht
    obtain ⟨hPa, hP⟩ := eachStep_cons.1 h u hst
    exact (eachStep_cons_of_some hst).1 ⟨hPa, ih hP hrun⟩

/-- A property that every step satisfying `P` keeps is kept by a run of such steps. -/
theorem EachStep.invariant {I : σ → Prop} (hI : ∀ s a t, I s → P s a t → step s a = some t → I t)
    {s t : σ} {as : List α} (hP : EachStep step P s as) (h : run step s as = some t)
    (h0 : I s) : I t := by
  induction as using List.reverseRecOn generalizing t with
  | nil => cases h; exact h0
  | append_singleton as a ih =>
    obtain ⟨u, hu, hst⟩ := run_snoc.1 h
    exact hI u a t (ih hP.left hu) (hP as a [] u t rfl hu hst) hst

/-- What holds in the states of a run holds of its steps. -/
theorem EachStep.of_invariant {I : σ → Prop} (hI : ∀ s a t, I s → P s a t → step s a = some t → I t)
    {Q : σ → α → σ → Prop} (hQ : ∀ s a t, I s → P s a t → step s a = some t → Q s a t)
    {s : σ} {as : List α} (hP : EachStep step P s as) (h0 : I s) : EachStep step Q s as := by
  intro pre a post u v has hu hst
  refine hQ u a v ?_ (hP pre a post u v has hu hst) hst
  subst has
  exact hP.left.invariant hI hu h0

end

/-! ## Hidden labels

Two systems that step together on the visible labels of a run, while the second one stays on the
others. -/

section
variable {σ' : Type*} {step' : σ' → α → Option σ'} {R : σ → σ' → Prop} {visible : α → Bool}
  {P : σ → α → σ → Prop} {Q : σ' → α → σ' → Prop}

/-- **Stuttering simulation.** If every visible step is matched and every hidden step keeps the
states related, the run is matched by the run of its visible labels. -/
theorem run_filter_of_sim
    (hvis : ∀ u u' a v, R u u' → P u a v → visible a = true → step u a = some v →
      ∃ v', step' u' a = some v' ∧ Q u' a v' ∧ R v v')
    (hhid : ∀ u u' a v, R u u' → P u a v → visible a = false → step u a = some v → R v u')
    {s t : σ} {s' : σ'} {as : List α} (hP : EachStep step P s as) (h : run step s as = some t)
    (h0 : R s s') :
    ∃ t', run step' s' (as.filter visible) = some t' ∧ EachStep step' Q s' (as.filter visible) ∧
      R t t' := by
  induction as generalizing s s' with
  | nil => cases h; exact ⟨s', rfl, eachStep_nil s', h0⟩
  | cons a as ih =>
    obtain ⟨u, hst, hrun⟩ := Option.bind_eq_some_iff.1 h
    obtain ⟨hPa, hP⟩ := eachStep_cons.1 hP u hst
    cases hv : visible a with
    | true =>
      obtain ⟨u', hst', hQ, hR⟩ := hvis s s' a u h0 hPa hv hst
      obtain ⟨t', ht', hQ', hR'⟩ := ih hP hrun hR
      rw [List.filter_cons_of_pos hv]
      exact ⟨t', by rw [run_cons, hst']; exact ht', (eachStep_cons_of_some hst').1 ⟨hQ, hQ'⟩, hR'⟩
    | false =>
      rw [List.filter_cons_of_neg (by simp [hv])]
      exact ih hP hrun (hhid s s' a u h0 hPa hv hst)

end

/-- **Projection.** If each step is, for an observer of one part of the state, a run of a system of
its own with the same visible labels, then so is each run. -/
theorem run_project {σ' α' β : Type*} {step' : σ' → α' → Option σ'} (proj : σ → σ')
    {vis : α → Option β} {vis' : α' → Option β}
    (hs : ∀ s a t, step s a = some t → ∃ as', run step' (proj s) as' = some (proj t) ∧
      as'.filterMap vis' = (vis a).toList)
    {s t : σ} {as : List α} (h : run step s as = some t) :
    ∃ as', run step' (proj s) as' = some (proj t) ∧ as'.filterMap vis' = as.filterMap vis := by
  induction as generalizing s with
  | nil => cases h; exact ⟨[], rfl, rfl⟩
  | cons a as ih =>
    obtain ⟨u, hst, hrun⟩ := Option.bind_eq_some_iff.1 h
    obtain ⟨bs, hbs, hvis⟩ := hs s a u hst
    obtain ⟨cs, hcs, hvis'⟩ := ih hrun
    refine ⟨bs ++ cs, by rw [run_append, hbs]; exact hcs, ?_⟩
    rw [List.filterMap_append, hvis, hvis']
    cases hv : vis a with
    | none => rw [List.filterMap_cons_none hv]; rfl
    | some b => rw [List.filterMap_cons_some hv]; rfl

/-- **Forward simulation.** If a second system can follow each step by steps of its own and stay
related, it can follow each run. -/
theorem run_sim {σ' α' : Type*} {step' : σ' → α' → Option σ'} {R : σ → σ' → Prop}
    (hs : ∀ s s' a t, R s s' → step s a = some t →
      ∃ as' t', run step' s' as' = some t' ∧ R t t')
    {s t : σ} {s' : σ'} {as : List α} (h : run step s as = some t) (h0 : R s s') :
    ∃ as' t', run step' s' as' = some t' ∧ R t t' := by
  induction as generalizing s s' with
  | nil => cases h; exact ⟨[], s', rfl, h0⟩
  | cons a as ih =>
    obtain ⟨u, hst, hrun⟩ := Option.bind_eq_some_iff.1 h
    obtain ⟨bs, u', hbs, hu⟩ := hs s s' a u h0 hst
    obtain ⟨cs, t', hcs, ht⟩ := ih hrun hu
    exact ⟨bs ++ cs, t', by rw [run_append, hbs]; exact hcs, ht⟩

/-! ## Reachable states -/

section
variable {init : σ → Prop}

theorem Reachable.start {s : σ} (h : init s) : Reachable init step s := ⟨s, [], h, rfl⟩

theorem Reachable.run {s t : σ} {as : List α} (hs : Reachable init step s)
    (h : Runs.run step s as = some t) : Reachable init step t := by
  obtain ⟨s₀, bs, hi, hr⟩ := hs
  exact ⟨s₀, bs ++ as, hi, by rw [run_append, hr]; exact h⟩

/-- What is projected of a reachable state is reachable. -/
theorem Reachable.project {σ' α' : Type*} {step' : σ' → α' → Option σ'} {init' : σ' → Prop}
    (proj : σ → σ') (h0 : ∀ s, init s → init' (proj s))
    (hr : ∀ {s t as}, Runs.run step s as = some t →
      ∃ as', Runs.run step' (proj s) as' = some (proj t))
    {s : σ} (h : Reachable init step s) : Reachable init' step' (proj s) := by
  obtain ⟨s₀, as, hi, hrun⟩ := h
  obtain ⟨as', hrun'⟩ := hr hrun
  exact ⟨proj s₀, as', h0 s₀ hi, hrun'⟩

theorem Reachable.next {s t : σ} {a : α} (hs : Reachable init step s) (h : step s a = some t) :
    Reachable init step t :=
  hs.run (show Runs.run step s [a] = some t by rwa [run_singleton])

/-- An invariant may rest on what is already known of the reachable states. -/
theorem Reachable.invariant_of {I : σ → Prop} (h0 : ∀ s, init s → I s)
    (hs : ∀ s a t, Reachable init step s → I s → step s a = some t → I t) {s : σ}
    (h : Reachable init step s) : I s := by
  obtain ⟨s₀, as, hi, hr⟩ := h
  refine run_induction (P := fun _ t => I t) (h0 s₀ hi) ?_ hr
  intro as s' a t hpre hI hst
  exact hs s' a t ⟨s₀, as, hi, hpre⟩ hI hst

/-- An inductive invariant holds in every reachable state. -/
theorem Reachable.invariant {I : σ → Prop} (h0 : ∀ s, init s → I s)
    (hs : ∀ s a t, I s → step s a = some t → I t) {s : σ} (h : Reachable init step s) : I s := by
  obtain ⟨s₀, as, hi, hr⟩ := h
  exact run_invariant hs hr (h0 s₀ hi)

end

/-! ## Outputs -/

/-- Where an element stands in a list that ends with `a`: at the end, or before. -/
theorem snoc_eq_append_cons {l pre post : List β} {a b : β} (h : l ++ [a] = pre ++ b :: post) :
    (l = pre ∧ a = b ∧ post = []) ∨ ∃ post', post = post' ++ [a] ∧ l = pre ++ b :: post' := by
  rcases List.eq_nil_or_concat post with rfl | ⟨post', x, rfl⟩
  · obtain ⟨rfl, h2⟩ := List.append_inj' h rfl
    cases h2
    exact .inl ⟨rfl, rfl, rfl⟩
  · rw [List.concat_eq_append, ← List.cons_append, ← List.append_assoc] at h
    obtain ⟨rfl, h2⟩ := List.append_inj' h rfl
    cases h2
    exact .inr ⟨post', List.concat_eq_append, rfl⟩

section
variable {obs : σ → α → σ → List β}

/-- The outputs of a composed run are those of its parts. -/
theorem outputs_append {s s' : σ} {as : List α} (bs : List α) (h : run step s as = some s') :
    outputs obs step s (as ++ bs) = outputs obs step s as ++ outputs obs step s' bs := by
  induction as generalizing s with
  | nil => cases h; rfl
  | cons a as ih =>
    obtain ⟨s₁, h1, h2⟩ := Option.bind_eq_some_iff.1 h
    simp only [List.cons_append, outputs, h1, ih h2, List.append_assoc]

/-- The outputs of a run with one more step. -/
theorem outputs_snoc {s s' t : σ} {as : List α} {a : α} (h : run step s as = some s')
    (ha : step s' a = some t) :
    outputs obs step s (as ++ [a]) = outputs obs step s as ++ obs s' a t := by
  rw [outputs_append [a] h]
  simp [outputs, ha]

/-- A relation between the state and what was seen so far, kept by every step, holds after the
run. -/
theorem outputs_invariant {J : σ → List β → Prop} {s : σ} (h0 : J s [])
    (hs : ∀ s' o a t, J s' o → step s' a = some t → J t (o ++ obs s' a t))
    {as : List α} {t : σ} (h : run step s as = some t) : J t (outputs obs step s as) := by
  refine run_induction (P := fun as t => J t (outputs obs step s as)) h0 ?_ h
  intro as s' a t hr hj hst
  rw [outputs_snoc hr hst]
  exact hs s' _ a t hj hst

/-- What was seen along a run was seen at one of its steps. -/
theorem mem_outputs {s : σ} {as : List α} {b : β} :
    b ∈ outputs obs step s as ↔ ∃ pre a post u v, as = pre ++ a :: post ∧
      run step s pre = some u ∧ step u a = some v ∧ b ∈ obs u a v := by
  induction as generalizing s with
  | nil => simp [outputs]
  | cons a as ih =>
    rw [outputs]
    constructor
    · intro h
      split at h
      · cases h
      next t ht =>
      rcases List.mem_append.1 h with h | h
      · exact ⟨[], a, as, s, t, rfl, rfl, ht, h⟩
      · obtain ⟨pre, c, post, u, v, has, hu, hst, hb⟩ := ih.1 h
        exact ⟨a :: pre, c, post, u, v, by rw [has]; rfl, by rw [run_cons, ht]; exact hu, hst, hb⟩
    · rintro ⟨_ | ⟨c, pre⟩, b', post, u, v, has, hu, hst, hb⟩
      · cases has
        cases hu
        rw [hst]
        exact List.mem_append_left _ hb
      · cases has
        obtain ⟨t, ht, hu⟩ := Option.bind_eq_some_iff.1 hu
        rw [ht]
        exact List.mem_append_right _ (ih.2 ⟨pre, b', post, u, v, rfl, hu, hst, hb⟩)

end

end Runs
