import Mathlib.Data.List.Infix

/-!
# What holds in every state of a run

A run folds a step over the calls that come in.  When a property of the states
survives exactly the calls that meet a condition, it holds in every state of a run
exactly when every call of the run meets the condition.
-/

namespace ERP
namespace Lib

variable {σ ε : Type} {step : σ → ε → σ}

/-- The property follows from an invariant, the invariant is kept by the calls that meet
the condition, and the property is lost by the others. -/
theorem forall_prefix_iff {I P : σ → Prop} {C : σ → ε → Prop} (hproperty : ∀ s, I s → P s)
    (hkept : ∀ s e, I s → C s e → I (step s e))
    (hlost : ∀ s e, I s → P (step s e) → C s e) (events : List ε) (s : σ) (hstart : I s) :
    (∀ prior, prior <+: events → P (prior.foldl step s)) ↔
      ∀ prior e rest, events = prior ++ e :: rest → C (prior.foldl step s) e := by
  induction events generalizing s with
  | nil =>
      refine iff_of_true (fun prior hprior => ?_) fun prior e rest heq => ?_
      · rw [List.prefix_nil.mp hprior]
        exact hproperty s hstart
      · exact absurd (congrArg List.length heq) (by simp)
  | cons event events ih =>
      constructor
      · intro h
        have hmeets : C s event := hlost s event hstart (h [event] ⟨events, rfl⟩)
        have hrest := (ih (step s event) (hkept s event hstart hmeets)).mp fun prior hprior =>
          h (event :: prior) (List.cons_prefix_cons.mpr ⟨rfl, hprior⟩)
        intro prior e rest heq
        cases prior with
        | nil =>
            cases heq
            exact hmeets
        | cons first prior =>
            cases heq
            exact hrest prior e rest rfl
      · intro h
        have hmeets : C s event := h [] event events rfl
        have hrest := (ih (step s event) (hkept s event hstart hmeets)).mpr
          fun prior e rest heq => h (event :: prior) e rest (by rw [heq, List.cons_append])
        intro prior hprior
        cases prior with
        | nil => exact hproperty s hstart
        | cons first others =>
            obtain ⟨rfl, hothers⟩ := List.cons_prefix_cons.mp hprior
            exact hrest others hothers

end Lib
end ERP
