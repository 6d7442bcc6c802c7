import Mathlib.Data.Fintype.Card
import Mathlib.Data.Fintype.Pigeonhole
import Mathlib.Logic.Relation

namespace ExaProxy.Data

/-! Loops over a state.  The body of a loop either continues from a new state
or leaves the loop with a result; nothing says that it ever leaves. -/

namespace Loop

variable {σ ρ : Type*} (body : σ → σ ⊕ ρ)

/-- At most `fuel` iterations of the loop. -/
def run : Nat → σ → Option ρ
  | 0, _ => none
  | fuel + 1, state =>
      match body state with
      | .inl next => run fuel next
      | .inr result => some result

def Halts (state : σ) : Prop := ∃ fuel result, run body fuel state = some result

/-- One iteration that does not leave the loop. -/
def Next (before after : σ) : Prop := body before = .inl after

variable {body} {state before after : σ} {result : ρ} {fuel : Nat}

theorem run_next (next : Next body before after) (fuel : Nat) :
    run body (fuel + 1) before = run body fuel after := by
  have continued : body before = .inl after := next
  simp only [run, continued]

theorem run_mono (finished : run body fuel state = some result) {more : Nat} (enough : fuel ≤ more) :
    run body more state = some result := by
  induction fuel generalizing state more with
  | zero => cases finished
  | succ fuel ih =>
      obtain ⟨more, rfl⟩ : ∃ rest, more = rest + 1 := ⟨more - 1, by omega⟩
      simp only [run] at finished ⊢
      cases step : body state with
      | inl next =>
          rw [step] at finished
          exact ih finished (by omega)
      | inr left =>
          rw [step] at finished
          exact finished

theorem halts_of_result (left : body state = .inr result) : Halts body state :=
  ⟨1, result, by simp only [run, left]⟩

theorem Next.halts_iff (next : Next body before after) : Halts body before ↔ Halts body after := by
  refine ⟨fun ⟨fuel, result, finished⟩ => ?_, fun ⟨fuel, result, finished⟩ =>
    ⟨fuel + 1, result, (run_next next fuel).trans finished⟩⟩
  cases fuel with
  | zero => cases finished
  | succ fuel => exact ⟨fuel, result, (run_next next fuel).symm.trans finished⟩

theorem halts_iff_of_reaches (reached : Relation.ReflTransGen (Next body) before after) :
    Halts body before ↔ Halts body after := by
  induction reached with
  | refl => exact Iff.rfl
  | tail _ next ih => exact ih.trans next.halts_iff

/-- The loop is left with a result exactly where some state of the run leaves
it so. -/
theorem run_eq_some_iff : (∃ fuel, run body fuel state = some result) ↔
    ∃ last, Relation.ReflTransGen (Next body) state last ∧ body last = .inr result := by
  constructor
  · intro given
    obtain ⟨fuel, finished⟩ := given
    induction fuel generalizing state with
    | zero => cases finished
    | succ fuel ih =>
        simp only [run] at finished
        cases step : body state with
        | inl next =>
            rw [step] at finished
            obtain ⟨last, path, left⟩ := ih finished
            exact ⟨last, .head step path, left⟩
        | inr found =>
            rw [step] at finished
            cases finished
            exact ⟨state, .refl, step⟩
  · intro given
    obtain ⟨last, path, left⟩ := given
    induction path using Relation.ReflTransGen.head_induction_on with
    | refl => exact ⟨1, by simp only [run, left]⟩
    | head next _ ih =>
        obtain ⟨fuel, finished⟩ := ih
        exact ⟨fuel + 1, (run_next next fuel).trans finished⟩

theorem result_unique {other : ρ} (first : ∃ fuel, run body fuel state = some result)
    (second : ∃ fuel, run body fuel state = some other) : result = other := by
  obtain ⟨low, finished⟩ := first
  obtain ⟨high, again⟩ := second
  have early := run_mono finished (Nat.le_max_left low high)
  have late := run_mono again (Nat.le_max_right low high)
  rw [early] at late
  exact Option.some.inj late

theorem not_halts_of_cycle (cycle : Relation.TransGen (Next body) state state) :
    ¬ Halts body state := by
  intro given
  obtain ⟨fuel, result, finished⟩ := given
  induction fuel generalizing state with
  | zero => cases finished
  | succ fuel ih =>
      obtain ⟨after, next, back⟩ := Relation.TransGen.head'_iff.mp cycle
      have again : Relation.TransGen (Next body) after after :=
        Relation.TransGen.tail' back next
      exact ih again ((run_next next fuel).symm.trans finished)

/-- The state after `count` iterations, as long as the loop is not left. -/
def advance (body : σ → σ ⊕ ρ) (state : σ) : Nat → σ
  | 0 => state
  | count + 1 =>
      match body (advance body state count) with
      | .inl next => next
      | .inr _ => advance body state count

/-- A loop that never halts reaches each of its next states. -/
theorem next_advance_of_not_halts (endless : ¬ Halts body state) (count : Nat) :
    Relation.ReflTransGen (Next body) state (advance body state count) ∧
      Next body (advance body state count) (advance body state (count + 1)) := by
  have continues : ∀ reached, Relation.ReflTransGen (Next body) state reached →
      ∃ next, body reached = .inl next := by
    intro reached path
    cases step : body reached with
    | inl next => exact ⟨next, rfl⟩
    | inr result => exact absurd ((halts_iff_of_reaches path).mpr (halts_of_result step)) endless
  induction count with
  | zero =>
      obtain ⟨next, step⟩ := continues state .refl
      refine ⟨.refl, ?_⟩
      simp only [Next, advance, step]
  | succ count ih =>
      have path := ih.1.tail ih.2
      obtain ⟨next, step⟩ := continues _ path
      refine ⟨path, ?_⟩
      rw [Next, step]
      conv_rhs => rw [advance, step]

theorem transGen_advance (endless : ¬ Halts body state) {first last : Nat} (order : first < last) :
    Relation.TransGen (Next body) (advance body state first) (advance body state last) := by
  induction last with
  | zero => omega
  | succ last ih =>
      have step := (next_advance_of_not_halts endless last).2
      rcases Nat.lt_succ_iff_lt_or_eq.mp order with earlier | rfl
      · exact (ih earlier).tail step
      · exact .single step

/-- When finitely many observations tell the states of a run apart, a loop
that does not halt comes back to a state. -/
theorem halts_or_cycle {κ : Type*} [Finite κ] (observe : σ → κ)
    (faithful : ∀ before after, Relation.ReflTransGen (Next body) state before →
      Relation.TransGen (Next body) before after → observe before = observe after →
        before = after) :
    Halts body state ∨ ∃ again, Relation.ReflTransGen (Next body) state again ∧
      Relation.TransGen (Next body) again again := by
  by_cases endless : Halts body state
  · exact .inl endless
  · obtain ⟨first, last, different, same⟩ :=
      Finite.exists_ne_map_eq_of_infinite fun count => observe (advance body state count)
    have cycle : ∀ low high, low < high →
        observe (advance body state low) = observe (advance body state high) →
        ∃ again, Relation.ReflTransGen (Next body) state again ∧
          Relation.TransGen (Next body) again again := by
      intro low high order equal
      have path := (next_advance_of_not_halts endless low).1
      have trip := transGen_advance endless order
      have back := faithful _ _ path trip equal
      refine ⟨advance body state low, path, ?_⟩
      rw [← back] at trip
      exact trip
    rcases Nat.lt_or_gt_of_ne different with order | order
    · exact .inr (cycle first last order same)
    · exact .inr (cycle last first order same.symm)

end Loop

/-! Loops that choose their next state. -/

section Choices

open Relation

variable {σ : Type*} {Step : σ → σ → Prop} {start state : σ}

theorem no_cycle_of_acc (ends : Acc (flip Step) start) (reached : ReflTransGen Step start state) :
    ¬ TransGen Step state state := by
  induction ends generalizing state with
  | intro first _ ih =>
      intro cycle
      rcases ReflTransGen.cases_head reached with rfl | ⟨next, step, path⟩
      · obtain ⟨next, step, back⟩ := TransGen.head'_iff.mp cycle
        exact ih next step back cycle
      · exact ih next step path cycle

/-- Among finitely many states each choice of steps ends, unless there is a cycle. -/
theorem acc_of_no_cycle (finite : {state | ReflTransGen Step start state}.Finite)
    (acyclic : ∀ state, ReflTransGen Step start state → ¬ TransGen Step state state) :
    Acc (flip Step) start := by
  let Reached := {state // ReflTransGen Step start state}
  let After (later earlier : Reached) : Prop := TransGen Step earlier.1 later.1
  have : Finite Reached := finite
  have : IsTrans Reached After := ⟨fun _ _ _ late early => early.trans late⟩
  have : Std.Irrefl After := ⟨fun state => acyclic state.1 state.2⟩
  have founded := Finite.wellFounded_of_trans_of_irrefl After
  have ends : ∀ state : Reached, Acc (flip Step) state.1 := by
    intro state
    induction state using founded.induction with
    | _ state ih =>
        refine ⟨_, fun next step => ?_⟩
        exact ih ⟨next, state.2.tail step⟩ (.single step)
  exact ends ⟨start, .refl⟩

theorem acc_iff_no_cycle (finite : {state | ReflTransGen Step start state}.Finite) :
    Acc (flip Step) start ↔ ∀ state, ReflTransGen Step start state → ¬ TransGen Step state state :=
  ⟨fun ends _ reached => no_cycle_of_acc ends reached, acc_of_no_cycle finite⟩

end Choices

end ExaProxy.Data
