import Mathlib.Tactic.Common

/-! # Runs of a labelled transition system -/

namespace Amnezia.Lib

variable {σ ℓ : Type}

inductive Run (step : σ → ℓ → σ → Prop) : σ → List ℓ → σ → Prop where
  | nil (state : σ) : Run step state [] state
  | cons {before middle after : σ} {label : ℓ} {labels : List ℓ} (first : step before label middle)
      (rest : Run step middle labels after) : Run step before (label :: labels) after

variable {labels : List ℓ}

namespace Run

variable {step : σ → ℓ → σ → Prop} {before middle after : σ}

theorem append {front back : List ℓ} (first : Run step before front middle)
    (second : Run step middle back after) : Run step before (front ++ back) after := by
  induction first with
  | nil => exact second
  | cons action _ ih => exact .cons action (ih second)

theorem snoc {label : ℓ} (run : Run step before labels middle) (last : step middle label after) :
    Run step before (labels ++ [label]) after :=
  run.append (.cons last (.nil after))

theorem invariant {I : List ℓ → σ → Prop}
    (keeps : ∀ past before label after, I past before → step before label after →
      I (past ++ [label]) after)
    (run : Run step before labels after) (past : List ℓ)
    (initial : I past before) : I (past ++ labels) after := by
  induction run generalizing past with
  | nil => simpa using initial
  | cons first rest ih => simpa using ih (past ++ [_]) (keeps past _ _ _ initial first)

end Run

theorem run_foldl (step : σ → ℓ → σ) (state : σ) (labels : List ℓ) :
    Run (fun before label after => after = step before label) state labels (labels.foldl step state) := by
  induction labels generalizing state with
  | nil => exact .nil state
  | cons label labels ih => exact .cons rfl (ih _)

def Along (step : σ → ℓ → σ) (condition : σ → ℓ → Prop) : σ → List ℓ → Prop
  | _, [] => True
  | state, label :: labels => condition state label ∧ Along step condition (step state label) labels

instance decidableAlong {step : σ → ℓ → σ} {condition : σ → ℓ → Prop}
    [∀ state label, Decidable (condition state label)] :
    ∀ state labels, Decidable (Along step condition state labels)
  | _, [] => inferInstanceAs (Decidable True)
  | state, label :: labels => @instDecidableAnd _ _ _ (decidableAlong (step state label) labels)

theorem run_along {step : σ → ℓ → σ} {condition : σ → ℓ → Prop} {state : σ}
    (along : Along step condition state labels) :
    Run (fun before label after => after = step before label ∧ condition before label) state labels
      (labels.foldl step state) := by
  induction labels generalizing state with
  | nil => exact .nil state
  | cons label labels ih => exact .cons ⟨rfl, along.1⟩ (ih along.2)

end Amnezia.Lib
