import ExaProxy.Data.Transition
import Mathlib.Data.Multiset.Basic
import Mathlib.Data.Multiset.MapFold
import Mathlib.Data.Multiset.Count

namespace ExaProxy.Data

/-! A ledger of jobs that are tried at most twice.  A job is submitted once,
stays outstanding while it waits or is worked on, and leaves the ledger's
outstanding side only by being answered.  A first failure marks the job; a
failure of a marked job answers it with a fixed last answer. -/

variable {ρ δ : Type*}

structure Ledger (ρ δ : Type*) where
  submitted : Multiset ρ
  outstanding : Multiset (ρ × Bool)
  answered : Multiset (ρ × δ)
  failed : Multiset ρ

namespace Ledger

def empty : Ledger ρ δ := ⟨0, 0, 0, 0⟩

inductive Step (lastAnswer : δ) : Ledger ρ δ → Ledger ρ δ → Prop where
  | submit (ledger : Ledger ρ δ) (job : ρ) :
      Step lastAnswer ledger { ledger with
        submitted := job ::ₘ ledger.submitted
        outstanding := (job, false) ::ₘ ledger.outstanding }
  | answer (ledger : Ledger ρ δ) (job : ρ) (marked : Bool) (rest : Multiset (ρ × Bool)) (reply : δ)
      (held : ledger.outstanding = (job, marked) ::ₘ rest) :
      Step lastAnswer ledger { ledger with
        outstanding := rest
        answered := (job, reply) ::ₘ ledger.answered }
  | retry (ledger : Ledger ρ δ) (job : ρ) (rest : Multiset (ρ × Bool))
      (held : ledger.outstanding = (job, false) ::ₘ rest) :
      Step lastAnswer ledger { ledger with
        outstanding := (job, true) ::ₘ rest
        failed := job ::ₘ ledger.failed }
  | giveUp (ledger : Ledger ρ δ) (job : ρ) (rest : Multiset (ρ × Bool))
      (held : ledger.outstanding = (job, true) ::ₘ rest) :
      Step lastAnswer ledger { ledger with
        outstanding := rest
        answered := (job, lastAnswer) ::ₘ ledger.answered
        failed := job ::ₘ ledger.failed }

/-- Every submitted job is outstanding or answered, each as often as it was
submitted. -/
def Balanced (ledger : Ledger ρ δ) : Prop :=
  ledger.submitted = ledger.outstanding.map Prod.fst + ledger.answered.map Prod.fst

/-- The failures of a job are paid for by its mark while it is outstanding, and
by its answers afterwards; two failures of one answer make it a last answer. -/
def FailuresBounded [DecidableEq ρ] [DecidableEq δ] (lastAnswer : δ) (ledger : Ledger ρ δ) : Prop :=
  ∀ job, ledger.failed.count job ≤ ledger.outstanding.count (job, true) +
    (ledger.answered.map Prod.fst).count job + ledger.answered.count (job, lastAnswer)

theorem Step.balanced {lastAnswer : δ} {before after : Ledger ρ δ}
    (balanced : before.Balanced) (stepped : Step lastAnswer before after) : after.Balanced := by
  unfold Balanced at balanced ⊢
  cases stepped with
  | submit job => simp only [balanced, Multiset.map_cons, Multiset.cons_add]
  | answer job marked rest reply held =>
      rw [balanced, held]
      simp only [Multiset.map_cons, Multiset.cons_add, Multiset.add_cons]
  | retry job rest held =>
      rw [balanced, held]
      simp only [Multiset.map_cons]
  | giveUp job rest held =>
      rw [balanced, held]
      simp only [Multiset.map_cons, Multiset.cons_add, Multiset.add_cons]

theorem Balanced.run {lastAnswer : δ} {before after : Ledger ρ δ} (balanced : before.Balanced)
    (run : Relation.ReflTransGen (Step lastAnswer) before after) : after.Balanced := by
  induction run with
  | refl => exact balanced
  | tail _ stepped ih => exact stepped.balanced ih

theorem reachable_balanced {lastAnswer : δ} {ledger : Ledger ρ δ}
    (reached : Reachable (· = empty) (Step lastAnswer) ledger) : ledger.Balanced :=
  reached.invariant Balanced (fun _ isEmpty => by cases isEmpty; rfl)
    (fun _ _ _ balanced stepped => stepped.balanced balanced)

variable [DecidableEq ρ] [DecidableEq δ]

theorem Step.failuresBounded {lastAnswer : δ} {before after : Ledger ρ δ}
    (bounded : before.FailuresBounded lastAnswer) (stepped : Step lastAnswer before after) :
    after.FailuresBounded lastAnswer := by
  intro other
  have earlier := bounded other
  cases stepped with
  | submit job => simpa [Multiset.count_cons] using earlier
  | answer job marked rest reply held =>
      rw [held] at earlier
      simp only [Multiset.count_cons, Multiset.map_cons, Prod.mk.injEq] at earlier ⊢
      split_ifs at earlier ⊢ <;> grind
  | retry job rest held =>
      rw [held] at earlier
      simp only [Multiset.count_cons, Prod.mk.injEq] at earlier ⊢
      split_ifs at earlier ⊢ <;> grind
  | giveUp job rest held =>
      rw [held] at earlier
      simp only [Multiset.count_cons, Multiset.map_cons, Prod.mk.injEq] at earlier ⊢
      split_ifs at earlier ⊢ <;> grind

theorem reachable_failuresBounded {lastAnswer : δ} {ledger : Ledger ρ δ}
    (reached : Reachable (· = empty) (Step lastAnswer) ledger) :
    ledger.FailuresBounded lastAnswer :=
  reached.invariant (FailuresBounded lastAnswer)
    (fun _ isEmpty job => by cases isEmpty; simp [empty])
    (fun _ _ _ bounded stepped => stepped.failuresBounded bounded)

theorem count_le_count_map_fst (pairs : Multiset (ρ × δ)) (job : ρ) (tag : δ) :
    pairs.count (job, tag) ≤ (pairs.map Prod.fst).count job := by
  induction pairs using Multiset.induction_on with
  | empty => simp
  | cons pair rest ih =>
      simp only [Multiset.map_cons, Multiset.count_cons]
      by_cases same : (job, tag) = pair
      · subst same
        simpa using ih
      · simp only [same, if_false]
        omega

/-- A job submitted at most once fails at most twice, and after its second
failure its one answer is the last answer. -/
theorem failures_at_most_two {lastAnswer : δ} {ledger : Ledger ρ δ} (balanced : ledger.Balanced)
    (bounded : ledger.FailuresBounded lastAnswer) {job : ρ}
    (once : ledger.submitted.count job ≤ 1) :
    ledger.failed.count job ≤ 2 ∧
      (ledger.failed.count job = 2 → ledger.answered.count (job, lastAnswer) = 1) := by
  have marked := count_le_count_map_fst ledger.outstanding job true
  have last := count_le_count_map_fst ledger.answered job lastAnswer
  have limit := bounded job
  rw [balanced, Multiset.count_add] at once
  omega

end Ledger

end ExaProxy.Data
