import Mathlib.Data.List.Basic

/-! # Runs of a system that steps from state to state

A run is the fold of a step function over a list of actions.  `Along` says that every
step of a run meets a condition on the action and on the state it is taken in; what
such steps preserve, such runs preserve. -/
namespace Runs

variable {σ α : Type} (step : σ → α → σ)

/-- Every step of the run from `s` meets the condition `C`. -/
def Along (C : σ → α → Prop) : σ → List α → Prop
  | _, [] => True
  | s, a :: actions => C s a ∧ Along C (step s a) actions

/-- A run can be checked step by step. -/
instance Along.decidable {C : σ → α → Prop} [h : ∀ s a, Decidable (C s a)] :
    (s : σ) → (actions : List α) → Decidable (Along step C s actions)
  | _, [] => .isTrue trivial
  | s, a :: actions => @instDecidableAnd _ _ (h s a) (Along.decidable (step s a) actions)

variable {step} {C : σ → α → Prop} {I : σ → Prop} {s : σ} {actions : List α}

/-- **What the steps preserve, the run preserves**, as far as its steps meet the condition. -/
theorem Along.invariant (hstep : ∀ s a, C s a → I s → I (step s a)) (h : Along step C s actions)
    (hI : I s) : I (actions.foldl step s) := by
  induction actions generalizing s with
  | nil => exact hI
  | cons a actions ih => exact ih h.2 (hstep s a h.1 hI)

/-- What every step preserves, every run preserves. -/
theorem invariant (hstep : ∀ s a, I s → I (step s a)) (hI : I s) : I (actions.foldl step s) := by
  induction actions generalizing s with
  | nil => exact hI
  | cons a actions ih => exact ih (hstep s a hI)

/-- A condition may be read in the light of an invariant of the run. -/
theorem Along.mono {D : σ → α → Prop} (hstep : ∀ s a, I s → I (step s a))
    (himp : ∀ s a, I s → C s a → D s a) (hI : I s) (h : Along step C s actions) :
    Along step D s actions := by
  induction actions generalizing s with
  | nil => trivial
  | cons a actions ih => exact ⟨himp s a hI h.1, ih (hstep s a hI) h.2⟩

/-- What an invariant gives of every step holds along every run. -/
theorem along {D : σ → α → Prop} (hstep : ∀ s a, I s → I (step s a)) (hgives : ∀ s a, I s → D s a) (hI : I s) :
    Along step D s actions := by
  induction actions generalizing s with
  | nil => trivial
  | cons a actions ih => exact ⟨hgives s a hI, ih (hstep s a hI)⟩

end Runs
