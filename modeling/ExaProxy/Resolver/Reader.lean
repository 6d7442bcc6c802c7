import ExaProxy.Client.HttpReader
import ExaProxy.Data.Loop
import ExaProxy.Data.Transition

namespace ExaProxy.Resolver.TCPClient

open Data Relation
open ExaProxy.Client (Recv)

/-- Where the coroutine is: in its loop, at the `yield data` of an end of file, at
`yield None`, or stopped. -/
inductive Stage where
  | reading | finishing | closing | stopped
deriving DecidableEq, Repr

structure Reader where
  stage : Stage := .reading
  data : Str := []
  /-- how often `recv` was called -/
  received : Nat := 0
deriving DecidableEq, Repr

/-- What `next` gives; after the last `yield` it raises `StopIteration`. -/
inductive Yielded where
  | data (text : Str)
  | none
  | stopIteration
deriving DecidableEq, Repr

/-- A turn of the loop, or what comes after the loop.  A turn that neither yields nor
leaves the loop is followed by another one. -/
def turn (recv : Nat → Recv) (reader : Reader) : Reader ⊕ (Yielded × Reader) :=
  let called := { reader with received := reader.received + 1 }
  match reader.stage with
  | .reading =>
      match recv reader.received with
      | .data [] => .inr (.data reader.data, { called with stage := .finishing })
      | .data buffer =>
          let data := reader.data ++ buffer
          .inr (.data data, { called with data })
      | .wouldBlock => .inr (.data [], called)
      | .error => .inl called -- the `else` is for turns without an exception
  | .finishing => .inr (.none, { reader with stage := .closing })
  | .closing | .stopped => .inr (.stopIteration, { reader with stage := .stopped })

/-- `readResponse` -/
def ReadResponse (recv : Nat → Recv) (before : Reader) (yielded : Yielded) (after : Reader) : Prop :=
  ∃ fuel, Loop.run (turn recv) fuel before = some (yielded, after)

def Resumed (recv : Nat → Recv) (before after : Reader) : Prop :=
  ∃ yielded, ReadResponse recv before yielded after

def Reached (recv : Nat → Recv) : Reader → Prop := Reachable (· = {}) (Resumed recv)

/-- From some call on, which comes before any end of file, each call of `recv` raises
an error that is not a would-block. -/
def Failing (recv : Nat → Recv) : Prop :=
  ∃ start, (∀ call < start, recv call ≠ .data []) ∧ ∀ call, start ≤ call → recv call = .error

variable {recv : Nat → Recv} {reader after : Reader} {yielded : Yielded} {last : Nat}

theorem turn_error (reading : reader.stage = .reading) (raised : recv reader.received = .error) :
    Loop.Next (turn recv) reader { reader with received := reader.received + 1 } := by
  simp only [Loop.Next, turn, reading, raised]

theorem turns_errors (reading : reader.stage = .reading) (order : reader.received ≤ last)
    (raised : ∀ call, reader.received ≤ call → call < last → recv call = .error) :
    ReflTransGen (Loop.Next (turn recv)) reader { reader with received := last } := by
  induction last, order using Nat.le_induction with
  | base => exact .refl
  | succ last order ih =>
      have path := ih fun call late early => raised call late (by omega)
      exact path.tail (turn_error reading (raised last order (by omega)))

theorem turn_yields (reading : reader.stage = .reading) (other : recv reader.received ≠ .error) :
    ∃ yielded after, turn recv reader = .inr (yielded, after) ∧ after.received = reader.received + 1 ∧
      (after.stage = .reading ↔ recv reader.received ≠ .data []) := by
  simp only [turn, reading]
  cases received : recv reader.received with
  | error => exact absurd received other
  | wouldBlock => exact ⟨_, _, rfl, rfl, by simp⟩
  | data buffer =>
      cases buffer with
      | nil => exact ⟨_, _, rfl, rfl, by simp⟩
      | cons byte buffer => exact ⟨_, _, rfl, rfl, by simp⟩

/-- The reader stays in its loop only where it has called `recv` and was not at the
end of the file. -/
theorem turn_left (left : turn recv reader = .inr (yielded, after)) (reading : after.stage = .reading) :
    reader.stage = .reading ∧ after.received = reader.received + 1 ∧ recv reader.received ≠ .data [] := by
  cases stage : reader.stage with
  | reading =>
      have other : recv reader.received ≠ .error := by
        intro raised
        cases (turn_error stage raised).symm.trans left
      obtain ⟨_, _, turned, count, stays⟩ := turn_yields stage other
      cases turned.symm.trans left
      exact ⟨rfl, count, stays.mp reading⟩
  | finishing | closing | stopped =>
      simp only [turn, stage, Sum.inr.injEq, Prod.mk.injEq] at left
      obtain ⟨-, rfl⟩ := left
      cases reading

theorem next_cases (next : Loop.Next (turn recv) reader after) :
    reader.stage = .reading ∧ recv reader.received = .error ∧
      after = { reader with received := reader.received + 1 } := by
  cases stage : reader.stage with
  | reading =>
      by_cases raised : recv reader.received = .error
      · cases (turn_error stage raised).symm.trans next
        exact ⟨rfl, raised, by rw [stage]⟩
      · obtain ⟨_, _, turned, -⟩ := turn_yields stage raised
        cases turned.symm.trans next
  | finishing | closing | stopped => simp [Loop.Next, turn, stage] at next

/-- In its loop the reader has met no end of file. -/
def Open (recv : Nat → Recv) (reader : Reader) : Prop :=
  reader.stage = .reading → ∀ call < reader.received, recv call ≠ .data []

theorem open_next (held : Open recv reader) (next : Loop.Next (turn recv) reader after) : Open recv after := by
  obtain ⟨reading, raised, rfl⟩ := next_cases next
  intro _ call earlier
  obtain earlier | rfl := Nat.lt_succ_iff_lt_or_eq.mp earlier
  · exact held reading call earlier
  · simp [raised]

theorem open_left (held : Open recv reader) (left : turn recv reader = .inr (yielded, after)) :
    Open recv after := by
  intro reading call earlier
  obtain ⟨before, count, some⟩ := turn_left left reading
  rw [count] at earlier
  obtain earlier | rfl := Nat.lt_succ_iff_lt_or_eq.mp earlier
  · exact held before call earlier
  · exact some

theorem open_reached (reached : Reached recv reader) : Open recv reader := by
  refine reached.invariant (Open recv) ?_ ?_
  · rintro start rfl _ call earlier
    cases earlier
  · rintro before after _ held ⟨yielded, finished⟩
    obtain ⟨last, path, left⟩ := Loop.run_eq_some_iff.mp finished
    refine open_left ?_ left
    clear left
    induction path with
    | refl => exact held
    | tail _ next ih => exact open_next ih next

/-- Before any end of file, the reader comes to each call of `recv` from a call it
made first in some resumption. -/
theorem reached_call (last : Nat) (open' : ∀ call < last, recv call ≠ .data []) :
    ∃ reader, Reached recv reader ∧ reader.stage = .reading ∧ reader.received ≤ last ∧
      ∀ call, reader.received ≤ call → call < last → recv call = .error := by
  induction last with
  | zero =>
      refine ⟨{}, .start rfl, rfl, Nat.le_refl 0, ?_⟩
      intro call _ earlier
      cases earlier
  | succ last ih =>
      obtain ⟨reader, reached, reading, order, raised⟩ := ih fun call earlier => open' call (by omega)
      by_cases again : recv last = .error
      · refine ⟨reader, reached, reading, by omega, fun call late early => ?_⟩
        obtain early | rfl := Nat.lt_succ_iff_lt_or_eq.mp early
        · exact raised call late early
        · exact again
      · -- the reader yields after this call, so the next one is the first of a resumption
        have path := turns_errors reading order raised
        have reading : ({ reader with received := last } : Reader).stage = .reading := reading
        obtain ⟨yielded, after, left, count, stays⟩ := turn_yields reading again
        have resumed : Resumed recv reader after :=
          ⟨yielded, Loop.run_eq_some_iff.mpr ⟨_, path, left⟩⟩
        refine ⟨after, reached.next resumed, stays.mpr (open' last (by omega)), count.le, ?_⟩
        intro call late early
        simp only at count
        omega

theorem spins (reading : reader.stage = .reading)
    (raised : ∀ call, reader.received ≤ call → recv call = .error) : ¬ Loop.Halts (turn recv) reader := by
  intro given
  obtain ⟨fuel, result, finished⟩ := given
  induction fuel generalizing reader with
  | zero => cases finished
  | succ fuel ih =>
      rw [Loop.run_next (turn_error reading (raised _ (Nat.le_refl _)))] at finished
      have reading : ({ reader with received := reader.received + 1 } : Reader).stage = .reading := reading
      exact ih reading (fun call late => raised call (Nat.le_of_succ_le late)) finished

theorem halts_of_call (reading : reader.stage = .reading) (order : reader.received ≤ last)
    (other : recv last ≠ .error) : Loop.Halts (turn recv) reader := by
  have exists' : ∃ call, reader.received ≤ call ∧ recv call ≠ .error := ⟨last, order, other⟩
  obtain ⟨after, first⟩ := Nat.find_spec exists'
  have raised : ∀ call, reader.received ≤ call → call < Nat.find exists' → recv call = .error := by
    intro call late early
    by_contra different
    exact Nat.find_min exists' early ⟨late, different⟩
  have path := turns_errors reading after raised
  have reading : ({ reader with received := Nat.find exists' } : Reader).stage = .reading := reading
  obtain ⟨yielded, next, left, -⟩ := turn_yields reading first
  exact (Loop.halts_iff_of_reaches path).mpr (Loop.halts_of_result left)

/-- Each resumption yields or ends after finitely many calls of `recv`, in every run,
exactly where the errors do not repeat for ever. -/
theorem readResponse_halts_iff (recv : Nat → Recv) :
    (∀ reader, Reached recv reader → Loop.Halts (turn recv) reader) ↔ ¬ Failing recv := by
  constructor
  · rintro halts ⟨start, open', raised⟩
    obtain ⟨reader, reached, reading, order, before⟩ := reached_call start open'
    refine spins reading (fun call late => ?_) (halts reader reached)
    by_cases early : call < start
    · exact before call late early
    · exact raised call (by omega)
  · intro passing reader reached
    cases stage : reader.stage with
    | reading =>
        by_contra endless
        refine passing ⟨reader.received, open_reached reached stage, fun call late => ?_⟩
        by_contra other
        exact endless (halts_of_call stage late other)
    | finishing | closing | stopped =>
        refine ⟨1, ?_⟩
        simp only [Loop.run, turn, stage, Option.some.injEq, exists_eq']

/-- Every call raises an error. -/
theorem readResponse_spins : Reached (fun _ => .error) {} ∧ ¬ Loop.Halts (turn fun _ => .error) {} :=
  ⟨.start rfl, spins rfl fun _ _ => rfl⟩

end ExaProxy.Resolver.TCPClient
