import Mathlib

namespace Fandomchain.Library

variable {σ α : Type*} {step : σ → α → σ}

/-- Every step of a run meets `P`, which sees the state the step starts from. -/
def Along (step : σ → α → σ) (P : σ → α → Prop) : σ → List α → Prop
  | _, [] => True
  | s, a :: rest => P s a ∧ Along step P (step s a) rest

def Throughout (step : σ → α → σ) (I : σ → Prop) : σ → List α → Prop
  | s, [] => I s
  | s, a :: rest => I s ∧ Throughout step I (step s a) rest

def Sometime (step : σ → α → σ) (P : σ → α → Prop) : σ → List α → Prop
  | _, [] => False
  | s, a :: rest => P s a ∨ Sometime step P (step s a) rest

def sumAlong (step : σ → α → σ) (f : σ → α → ℤ) : σ → List α → ℤ
  | _, [] => 0
  | s, a :: rest => f s a + sumAlong step f (step s a) rest

instance decidableAlong {P : σ → α → Prop} [∀ s a, Decidable (P s a)] :
    ∀ (s : σ) (as : List α), Decidable (Along step P s as)
  | _, [] => inferInstanceAs (Decidable True)
  | s, a :: rest =>
      have := decidableAlong (P := P) (step s a) rest
      inferInstanceAs (Decidable (P s a ∧ _))

instance decidableThroughout {I : σ → Prop} [DecidablePred I] :
    ∀ (s : σ) (as : List α), Decidable (Throughout step I s as)
  | s, [] => inferInstanceAs (Decidable (I s))
  | s, a :: rest =>
      have := decidableThroughout (I := I) (step s a) rest
      inferInstanceAs (Decidable (I s ∧ _))

def Reachable (step : σ → α → σ) (init : σ → Prop) (allowed : σ → α → Prop) (s : σ) : Prop :=
  ∃ s₀ as, init s₀ ∧ Along step allowed s₀ as ∧ as.foldl step s₀ = s

theorem along_append {P : σ → α → Prop} (s : σ) (xs ys : List α) :
    Along step P s (xs ++ ys) ↔ Along step P s xs ∧ Along step P (xs.foldl step s) ys := by
  induction xs generalizing s with
  | nil => simp [Along]
  | cons a rest ih => simp [Along, ih, and_assoc]

theorem Along.and {P Q : σ → α → Prop} {s : σ} {as : List α}
    (hp : Along step P s as) (hq : Along step Q s as) :
    Along step (fun s a => P s a ∧ Q s a) s as := by
  induction as generalizing s with
  | nil => trivial
  | cons a rest ih => exact ⟨⟨hp.1, hq.1⟩, ih hp.2 hq.2⟩

theorem Along.mono {P Q : σ → α → Prop} (weaker : ∀ s a, P s a → Q s a) {s : σ} {as : List α}
    (h : Along step P s as) : Along step Q s as := by
  induction as generalizing s with
  | nil => trivial
  | cons a rest ih => exact ⟨weaker s a h.1, ih h.2⟩

theorem Sometime.split {P : σ → α → Prop} {s : σ} {as : List α} (h : Sometime step P s as) :
    ∃ before a after, as = before ++ a :: after ∧ P (before.foldl step s) a := by
  induction as generalizing s with
  | nil => cases h
  | cons a rest ih =>
      rcases h with now | later
      · exact ⟨[], a, rest, rfl, now⟩
      · obtain ⟨before, b, after, rfl, meets⟩ := ih later
        exact ⟨a :: before, b, after, rfl, meets⟩

theorem along_of_forall_mem {P : α → Prop} {s : σ} {as : List α} (h : ∀ a ∈ as, P a) :
    Along step (fun _ a => P a) s as := by
  induction as generalizing s with
  | nil => trivial
  | cons a rest ih =>
      obtain ⟨first, others⟩ := List.forall_mem_cons.mp h
      exact ⟨first, ih others⟩

/-- The induction over a run: what one step keeps, the whole run keeps. -/
theorem run_preserves {I : σ → Prop} {P : σ → α → Prop}
    (keeps : ∀ s a, I s → P s a → I (step s a)) {s : σ} {as : List α}
    (start : I s) (along : Along step P s as) : I (as.foldl step s) := by
  induction as generalizing s with
  | nil => exact start
  | cons a rest ih => exact ih (keeps s a start along.1) along.2

theorem sumAlong_sub (f g : σ → α → ℤ) (s : σ) (as : List α) :
    sumAlong step (fun s a => f s a - g s a) s as =
      sumAlong step f s as - sumAlong step g s as := by
  induction as generalizing s with
  | nil => rfl
  | cons a rest ih =>
      simp only [sumAlong, ih]
      ring

theorem sumAlong_neg (f : σ → α → ℤ) (s : σ) (as : List α) :
    sumAlong step (fun s a => -f s a) s as = -sumAlong step f s as := by
  induction as generalizing s with
  | nil => rfl
  | cons a rest ih =>
      simp only [sumAlong, ih]
      ring

/-- A quantity that each step moves by `δ` is moved by the sum of `δ` over a run. -/
theorem eq_add_sumAlong {I : σ → Prop} {P : σ → α → Prop} {φ : σ → ℤ} {δ : σ → α → ℤ}
    (keeps : ∀ s a, I s → P s a → I (step s a))
    (moves : ∀ s a, I s → P s a → φ (step s a) = φ s + δ s a) {s : σ} {as : List α}
    (start : I s) (along : Along step P s as) :
    φ (as.foldl step s) = φ s + sumAlong step δ s as := by
  induction as generalizing s with
  | nil => exact (add_zero _).symm
  | cons a rest ih =>
      rw [List.foldl_cons, ih (keeps s a start along.1) along.2, moves s a start along.1]
      exact add_assoc _ _ _

/-- Where every step is seen through `abs` as a step on its label, or as none, a run is seen as the run
on the labels. -/
theorem foldl_filterMap_eq {τ ℓ : Type*} {abs : σ → τ} {label : α → Option ℓ} {next : τ → ℓ → τ}
    {I : σ → Prop} {P : σ → α → Prop} (keeps : ∀ s a, I s → P s a → I (step s a))
    (sees : ∀ s a, I s → P s a → abs (step s a) = (label a).elim (abs s) (next (abs s)))
    {s : σ} {as : List α} (start : I s) (along : Along step P s as) :
    (as.filterMap label).foldl next (abs s) = abs (as.foldl step s) := by
  induction as generalizing s with
  | nil => rfl
  | cons a rest ih =>
      have first := sees s a start along.1
      rw [List.foldl_cons, ← ih (keeps s a start along.1) along.2, first]
      cases seen : label a with
      | none => rw [List.filterMap_cons_none seen, Option.elim_none]
      | some l => rw [List.filterMap_cons_some seen, List.foldl_cons, Option.elim_some]

theorem sumAlong_filterMap_eq {τ ℓ : Type*} {abs : σ → τ} {label : α → Option ℓ} {next : τ → ℓ → τ}
    {f : σ → α → ℤ} {g : τ → ℓ → ℤ} {I : σ → Prop} {P : σ → α → Prop}
    (keeps : ∀ s a, I s → P s a → I (step s a))
    (sees : ∀ s a, I s → P s a → abs (step s a) = (label a).elim (abs s) (next (abs s)))
    (weighs : ∀ s a, I s → P s a → f s a = (label a).elim 0 (g (abs s)))
    {s : σ} {as : List α} (start : I s) (along : Along step P s as) :
    sumAlong next g (abs s) (as.filterMap label) = sumAlong step f s as := by
  induction as generalizing s with
  | nil => rfl
  | cons a rest ih =>
      have first := sees s a start along.1
      rw [sumAlong, weighs s a start along.1, ← ih (keeps s a start along.1) along.2, first]
      cases seen : label a with
      | none => rw [List.filterMap_cons_none seen, Option.elim_none, Option.elim_none, zero_add]
      | some l =>
          rw [List.filterMap_cons_some seen, sumAlong, Option.elim_some, Option.elim_some]

theorem sumAlong_nonneg {f : σ → α → ℤ} (nonneg : ∀ s a, 0 ≤ f s a) (s : σ) (as : List α) :
    0 ≤ sumAlong step f s as := by
  induction as generalizing s with
  | nil => exact le_rfl
  | cons a rest ih => exact add_nonneg (nonneg s a) (ih _)

theorem throughout_of_preserves {I : σ → Prop} {P : σ → α → Prop}
    (keeps : ∀ s a, I s → P s a → I (step s a)) {s : σ} {as : List α}
    (start : I s) (along : Along step P s as) : Throughout step I s as := by
  induction as generalizing s with
  | nil => exact start
  | cons a rest ih => exact ⟨start, ih (keeps s a start along.1) along.2⟩

theorem along_of_preserves {I : σ → Prop} {P Q : σ → α → Prop}
    (keeps : ∀ s a, I s → P s a → I (step s a)) (gives : ∀ s a, I s → P s a → Q s a)
    {s : σ} {as : List α} (start : I s) (along : Along step P s as) : Along step Q s as := by
  induction as generalizing s with
  | nil => trivial
  | cons a rest ih =>
      exact ⟨gives s a start along.1, ih (keeps s a start along.1) along.2⟩

theorem along_congr {I : σ → Prop} {P Q : σ → α → Prop} (keeps : ∀ s a, I s → I (step s a))
    (same : ∀ s a, I s → (P s a ↔ Q s a)) {s : σ} {as : List α} (start : I s) :
    Along step P s as ↔ Along step Q s as := by
  induction as generalizing s with
  | nil => exact Iff.rfl
  | cons a rest ih => exact and_congr (same s a start) (ih (keeps s a start))

theorem Throughout.head {I : σ → Prop} {s : σ} {as : List α}
    (h : Throughout step I s as) : I s := by
  cases as with
  | nil => exact h
  | cons a rest => exact h.1

theorem Throughout.along {I : σ → Prop} {s : σ} {as : List α} (h : Throughout step I s as) :
    Along step (fun s _ => I s) s as := by
  induction as generalizing s with
  | nil => trivial
  | cons a rest ih => exact ⟨h.1, ih h.2⟩

theorem Throughout.mono {I J : σ → Prop} (weaker : ∀ s, I s → J s) {s : σ} {as : List α}
    (h : Throughout step I s as) : Throughout step J s as := by
  induction as generalizing s with
  | nil => exact weaker s h
  | cons a rest ih => exact ⟨weaker s h.1, ih h.2⟩

/-- A step condition that is exactly what keeps `I`, step by step, is so for whole runs. -/
theorem throughout_iff_of_step_iff {I : σ → Prop} {P : σ → α → Prop}
    (same : ∀ s a, I s → (I (step s a) ↔ P s a)) {s : σ} {as : List α} (start : I s) :
    Throughout step I s as ↔ Along step P s as := by
  induction as generalizing s with
  | nil => simp [Throughout, Along, start]
  | cons a rest ih =>
      simp only [Throughout, Along, start, true_and]
      constructor
      · intro h
        exact ⟨(same s a start).mp h.head, (ih h.head).mp h⟩
      · intro h
        exact (ih ((same s a start).mpr h.1)).mpr h.2

section Reachable

variable {init : σ → Prop} {allowed : σ → α → Prop}

theorem Reachable.start {s : σ} (h : init s) : Reachable step init allowed s :=
  ⟨s, [], h, trivial, rfl⟩

theorem Reachable.run {s : σ} (h : Reachable step init allowed s) {as : List α}
    (along : Along step allowed s as) : Reachable step init allowed (as.foldl step s) := by
  obtain ⟨s₀, prior, hs, ha, rfl⟩ := h
  exact ⟨s₀, prior ++ as, hs, (along_append s₀ prior as).mpr ⟨ha, along⟩, List.foldl_append⟩

theorem Reachable.invariant {I : σ → Prop} (base : ∀ s, init s → I s)
    (keeps : ∀ s a, I s → allowed s a → I (step s a)) {s : σ}
    (h : Reachable step init allowed s) : I s := by
  obtain ⟨s₀, as, hs, ha, rfl⟩ := h
  exact run_preserves keeps (base s₀ hs) ha

end Reachable

end Fandomchain.Library
