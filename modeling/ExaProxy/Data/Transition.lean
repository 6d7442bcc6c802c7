import Mathlib.Logic.Relation

namespace ExaProxy.Data

/-! Runs of a state machine.  A machine is given by its initial states and a
step relation; what holds of every reachable state is proved once from the
initial states and one step. -/

variable {σ τ : Type*}

/-- Some finite run of `step` leads from an initial state to `state`. -/
def Reachable (initial : σ → Prop) (step : σ → σ → Prop) (state : σ) : Prop :=
  ∃ start, initial start ∧ Relation.ReflTransGen step start state

variable {initial : σ → Prop} {step : σ → σ → Prop} {state after : σ}

theorem Reachable.start (isInitial : initial state) : Reachable initial step state :=
  ⟨state, isInitial, .refl⟩

theorem Reachable.next (reached : Reachable initial step state) (stepped : step state after) :
    Reachable initial step after := by
  obtain ⟨start, isInitial, run⟩ := reached
  exact ⟨start, isInitial, run.tail stepped⟩

/-- The invariant rule: the step premise may assume that the state it starts
from is itself reachable. -/
theorem Reachable.invariant (reached : Reachable initial step state) (inv : σ → Prop)
    (base : ∀ start, initial start → inv start)
    (preserved : ∀ before after, Reachable initial step before → inv before →
      step before after → inv after) : inv state := by
  obtain ⟨start, isInitial, run⟩ := reached
  have paired : Reachable initial step state ∧ inv state := by
    induction run with
    | refl => exact ⟨.start isInitial, base start isInitial⟩
    | tail _ stepped ih => exact ⟨ih.1.next stepped, preserved _ _ ih.1 ih.2 stepped⟩
  exact paired.2

/-- The moves of a machine that is run on a list of them are steps of a run. -/
theorem Reachable.foldlM {μ : Type*} {move : σ → μ → Option σ} (reached : Reachable initial step state)
    (moves : ∀ before next after, move before next = some after → step before after)
    {list : List μ} (followed : list.foldlM move state = some after) : Reachable initial step after := by
  induction list generalizing state with
  | nil =>
      cases followed
      exact reached
  | cons next rest ih =>
      rw [List.foldlM_cons] at followed
      obtain ⟨middle, moved, followed⟩ := Option.bind_eq_some_iff.mp followed
      exact ih (reached.next (moves state next middle moved)) followed

/-- The forward simulation rule for an abstraction function: every concrete
step is matched by finitely many abstract ones. -/
theorem Reachable.simulate {initial' : τ → Prop} {step' : τ → τ → Prop} (abstraction : σ → τ)
    (base : ∀ start, initial start → initial' (abstraction start))
    (matched : ∀ before after, Reachable initial step before → step before after →
      Relation.ReflTransGen step' (abstraction before) (abstraction after))
    (reached : Reachable initial step state) :
    Reachable initial' step' (abstraction state) := by
  refine reached.invariant (fun s => Reachable initial' step' (abstraction s)) ?_ ?_
  · intro start isInitial
    exact .start (base start isInitial)
  · intro before after reachedBefore simulated stepped
    obtain ⟨start, isInitial, run⟩ := simulated
    exact ⟨start, isInitial, run.trans (matched before after reachedBefore stepped)⟩

end ExaProxy.Data
