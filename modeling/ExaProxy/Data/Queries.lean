import ExaProxy.Data.Transition
import Mathlib.Data.List.Count
import Mathlib.Logic.Function.Basic

namespace ExaProxy.Data

/-! Queries under numbers, which are sent again some times and then given up.  A caller waits
for one query at a time; an answer may make it wait for another query. -/

/-- What was done so far: the number of each packet, whom each query was made for, the queries
that were answered and those that were given up, and the callers that began and that got a
decision. -/
structure Log (γ δ : Type*) where
  sent : List Nat := []
  owned : List (Nat × γ) := []
  answered : List Nat := []
  expired : List (Nat × γ × δ) := []
  begun : List γ := []
  decided : List γ := []

namespace Log

variable {γ δ : Type*}

instance : Append (Log γ δ) where
  append first second := {
    sent := first.sent ++ second.sent
    owned := first.owned ++ second.owned
    answered := first.answered ++ second.answered
    expired := first.expired ++ second.expired
    begun := first.begun ++ second.begun
    decided := first.decided ++ second.decided }

theorem append_eq (first second : Log γ δ) : first ++ second = {
    sent := first.sent ++ second.sent
    owned := first.owned ++ second.owned
    answered := first.answered ++ second.answered
    expired := first.expired ++ second.expired
    begun := first.begun ++ second.begun
    decided := first.decided ++ second.decided } := rfl

theorem append_assoc (first second third : Log γ δ) : first ++ second ++ third = first ++ (second ++ third) := by
  simp only [append_eq, List.append_assoc]

/-- Nothing more is done about the query. -/
def Settled (log : Log γ δ) (number : Nat) : Prop :=
  number ∈ log.answered ∨ ∃ last ∈ log.expired, last.1 = number

theorem Settled.append {log : Log γ δ} {number : Nat} (settled : log.Settled number) (more : Log γ δ) :
    (log ++ more).Settled number := by
  rcases settled with answered | ⟨last, member, own⟩
  · exact .inl (List.mem_append_left _ answered)
  · exact .inr ⟨last, List.mem_append_left _ member, own⟩

theorem Settled.prepend {log : Log γ δ} {number : Nat} (settled : log.Settled number) (earlier : Log γ δ) :
    (earlier ++ log).Settled number := by
  rcases settled with answered | ⟨last, member, own⟩
  · exact .inl (List.mem_append_right _ answered)
  · exact .inr ⟨last, List.mem_append_right _ member, own⟩

theorem append_nil (log : Log γ δ) : log ++ ({} : Log γ δ) = log := by
  simp only [append_eq, List.append_nil]

end Log

/-- The log with what each caller waits for: its query, and how often that was sent. -/
structure Queries (γ δ : Type*) where
  log : Log γ δ
  waiting : γ → Option (Nat × Nat)

namespace Queries

variable {γ δ : Type*} [DecidableEq γ]

def start : Queries γ δ := ⟨{}, fun _ => none⟩

/-- What is done about a query; `Last` is what the decision may be when it is given up. -/
inductive Step (retries : Nat) (Last : δ → Prop) : Queries γ δ → Queries γ δ → Prop where
  | refuse (before : Queries γ δ) (caller : γ) (idle : before.waiting caller = none) :
      Step retries Last before ⟨before.log ++ { begun := [caller], decided := [caller] }, before.waiting⟩
  | begin (before : Queries γ δ) (caller : γ) (number : Nat) (idle : before.waiting caller = none)
      (fresh : number ∉ before.log.sent) :
      Step retries Last before
        ⟨before.log ++ { sent := [number], owned := [(number, caller)], begun := [caller] },
          Function.update before.waiting caller (some (number, 1))⟩
  | stray (before : Queries γ δ) (number : Nat) (fresh : number ∉ before.log.sent) :
      Step retries Last before ⟨before.log ++ { sent := [number] }, before.waiting⟩
  | follow (before : Queries γ δ) (caller : γ) (number next count : Nat)
      (waits : before.waiting caller = some (number, count)) (fresh : next ∉ before.log.sent) :
      Step retries Last before
        ⟨before.log ++ { sent := [next], owned := [(next, caller)], answered := [number] },
          Function.update before.waiting caller (some (next, 1))⟩
  | answer (before : Queries γ δ) (caller : γ) (number count : Nat)
      (waits : before.waiting caller = some (number, count)) :
      Step retries Last before
        ⟨before.log ++ { answered := [number], decided := [caller] }, Function.update before.waiting caller none⟩
  | again (before : Queries γ δ) (caller : γ) (number count : Nat)
      (waits : before.waiting caller = some (number, count)) (left : count < retries) :
      Step retries Last before
        ⟨before.log ++ { sent := [number] }, Function.update before.waiting caller (some (number, count + 1))⟩
  | giveUp (before : Queries γ δ) (caller : γ) (number count : Nat) (last : δ)
      (waits : before.waiting caller = some (number, count)) (used : ¬ count < retries) (isLast : Last last) :
      Step retries Last before
        ⟨before.log ++ { expired := [(number, caller, last)], decided := [caller] },
          Function.update before.waiting caller none⟩

variable {retries : Nat} {Last : δ → Prop} {queries before after : Queries γ δ} {caller other : γ}
  {number count : Nat}

/-- The caller waits for the query, which was sent as often as it counts and not too often. -/
structure Waits (retries : Nat) (queries : Queries γ δ) (caller : γ) (number count : Nat) : Prop where
  owned : (number, caller) ∈ queries.log.owned
  unanswered : number ∉ queries.log.answered
  kept : ∀ last ∈ queries.log.expired, last.1 ≠ number
  counted : queries.log.sent.count number = count
  positive : 1 ≤ count
  bounded : count ≤ max 1 retries

/-- The query was sent as often as it may be, and then its caller got a last decision, once. -/
def GivenUp (retries : Nat) (Last : δ → Prop) (queries : Queries γ δ) (caller : γ) (number : Nat) : Prop :=
  queries.log.sent.count number = max 1 retries ∧
    ∃ last, Last last ∧ queries.log.expired.filter (·.1 = number) = [(number, caller, last)]

structure Sound (retries : Nat) (Last : δ → Prop) (queries : Queries γ δ) : Prop where
  waits : ∀ caller number count, queries.waiting caller = some (number, count) →
    queries.Waits retries caller number count
  apart : ∀ caller other number count more, queries.waiting caller = some (number, count) →
    queries.waiting other = some (number, more) → caller = other
  settled : ∀ number caller, (number, caller) ∈ queries.log.owned → number ∈ queries.log.answered ∨
    (∃ count, queries.waiting caller = some (number, count)) ∨ queries.GivenUp retries Last caller number
  known : ∀ number caller, (number, caller) ∈ queries.log.owned → number ∈ queries.log.sent
  answered : ∀ number ∈ queries.log.answered, number ∈ queries.log.sent
  expired : ∀ last ∈ queries.log.expired, last.1 ∈ queries.log.sent
  balanced : ∀ caller, queries.log.begun.count caller =
    queries.log.decided.count caller + if (queries.waiting caller).isSome then 1 else 0

theorem Sound.start : Sound retries Last (start : Queries γ δ) := by
  constructor <;> simp [Queries.start]

theorem Sound.giveUp (sound : Sound retries Last before) {last : δ}
    (waits : before.waiting caller = some (number, count)) (used : ¬ count < retries) (isLast : Last last) :
    Sound retries Last ⟨before.log ++ { expired := [(number, caller, last)], decided := [caller] },
      Function.update before.waiting caller none⟩ := by
  have own := sound.waits caller number count waits
  have earlier : before.log.expired.filter (·.1 = number) = [] :=
    List.filter_eq_nil_iff.mpr fun last member => by simpa using own.kept last member
  refine ⟨?_, ?_, ?_, ?_, ?_, ?_, ?_⟩
  · intro other found count listed
    have := sound.waits other found count
    have := sound.apart caller other number
    grind [Log.append_eq, Waits]
  · intro first second found count more listed listed'
    have := sound.apart first second found
    grind
  · intro found owner listed
    by_cases same : found = number
    · subst same
      obtain rfl : owner = caller := by
        rcases sound.settled found owner (by simpa [Log.append_eq] using listed) with
          answered | ⟨count, listed⟩ | ⟨_, _, _, expired⟩
        · exact absurd answered own.unanswered
        · exact sound.apart _ _ _ _ _ listed waits
        · rw [earlier] at expired
          cases expired
      refine .inr (.inr ⟨?_, last, isLast, ?_⟩)
      · have := own.counted
        have := own.positive
        have := own.bounded
        simp only [Log.append_eq, List.append_nil]
        omega
      · simp [Log.append_eq, List.filter_append, earlier]
    · have := sound.settled found owner
      grind [Log.append_eq, GivenUp]
  · have := sound.known
    grind [Log.append_eq]
  · have := sound.answered
    grind [Log.append_eq]
  · have := sound.expired
    have := sound.known _ _ own.owned
    grind [Log.append_eq]
  · intro other
    have := sound.balanced other
    grind [Log.append_eq]

/-- Each step keeps the account of every query and of every caller. -/
theorem Sound.step (sound : Sound retries Last before) (stepped : Step retries Last before after) :
    Sound retries Last after := by
  have ⟨waits, apart, settled, known, answered, expired, balanced⟩ := sound
  cases stepped with
  | refuse caller idle => constructor <;> grind [Log.append_eq, GivenUp, Waits]
  | begin caller number idle fresh => constructor <;> grind [Log.append_eq, GivenUp, Waits]
  | stray number fresh => constructor <;> grind [Log.append_eq, GivenUp, Waits]
  | follow caller number next count waiting fresh => constructor <;> grind [Log.append_eq, GivenUp, Waits]
  | answer caller number count waiting => constructor <;> grind [Log.append_eq, GivenUp, Waits]
  | again caller number count waiting left => constructor <;> grind [Log.append_eq, GivenUp, Waits]
  | giveUp caller number count last waiting used isLast => exact sound.giveUp waiting used isLast

theorem Sound.idle (sound : Sound retries Last queries) (settled : queries.log.Settled number)
    (caller : γ) (count : Nat) : queries.waiting caller ≠ some (number, count) := by
  intro waiting
  have waits := sound.waits caller number count waiting
  rcases settled with answered | ⟨last, member, own⟩
  · exact waits.unanswered answered
  · exact waits.kept last member own

/-- A query that was sent too often to be waited for was answered or given up. -/
theorem Sound.spent (sound : Sound retries Last queries) (owned : (number, caller) ∈ queries.log.owned)
    (often : max 1 retries < queries.log.sent.count number ∨ queries.log.Settled number) :
    number ∈ queries.log.answered ∨ queries.GivenUp retries Last caller number := by
  rcases sound.settled number caller owned with answered | ⟨count, waiting⟩ | given
  · exact .inl answered
  · rcases often with often | settled
    · have waits := sound.waits caller number count waiting
      have counted := waits.counted
      have bounded := waits.bounded
      omega
    · exact absurd waiting (sound.idle settled caller count)
  · exact .inr given

theorem Sound.steps (sound : Sound retries Last before)
    (steps : Relation.ReflTransGen (Step retries Last) before after) : Sound retries Last after := by
  induction steps with
  | refl => exact sound
  | tail _ stepped ih => exact ih.step stepped

end Queries

end ExaProxy.Data
