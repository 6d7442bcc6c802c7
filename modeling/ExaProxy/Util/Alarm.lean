import ExaProxy.Data.Channel
import ExaProxy.Data.Str

namespace ExaProxy.Util

open Data

/-! The thread that interrupts the reactor, and its dispatcher.  An alarm is written in one
piece, as it is shorter than what a pipe takes at once. -/

namespace AlarmThread

inductive Command where
  | ALARM | STOP
deriving DecidableEq, Repr

/-- `idle` has no alarm to give, `armed` is about to look at the queue for the time of the
period, and `waiting` has found it empty. -/
inductive Phase where
  | idle | armed | waiting | finished
deriving DecidableEq, Repr

structure State (codec : Codec UInt8 Str) where
  queue : List Command := []
  phase : Phase := .idle
  messagebox : Channel codec := .empty

inductive Event where
  | get
  | wait
  | timeout
deriving DecidableEq, Repr

variable {codec : Codec UInt8 Str}

/-- What `run` goes on with after a command. -/
def obey : Command → Phase
  | .ALARM => .armed
  | .STOP => .finished

def ring (messagebox : Channel codec) : Option (Channel codec) := do
  let written ← messagebox.put (ascii "alarm")
  return written.write written.unsent.length

/-- A step of `run`.  A timeout may pass over a command that has just been put; after it the
alarm is still the command, and is given again. -/
def next (state : State codec) : Event → Option (State codec)
  | .get =>
      match state.queue with
      | command :: queue =>
          if state.phase = .finished then none else some { state with queue, phase := obey command }
      | [] => none
  | .wait =>
      if state.phase = .armed ∧ state.queue = [] then some { state with phase := .waiting } else none
  | .timeout =>
      if state.phase = .waiting then do
        let messagebox ← ring state.messagebox
        return { state with messagebox, phase := .armed }
      else none

end AlarmThread

namespace AlarmDispatcher

open AlarmThread

variable {codec : Codec UInt8 Str} (state : State codec)

def setAlarm : State codec := { state with queue := state.queue ++ [.ALARM] }

/-- What `stop` puts into the queue before it waits for the thread. -/
def putStop : State codec := { state with queue := state.queue ++ [.STOP] }

/-- `join` -/
def joined : Bool := state.phase = .finished

def acknowledgeAlarm : Option (State codec) :=
  state.messagebox.get.map fun (_, messagebox) => { state with messagebox }

end AlarmDispatcher

namespace AlarmThread

variable {codec : Codec UInt8 Str} {state after : State codec} {event : Event} {events : List Event}

theorem ring_spec {before after : Channel codec} (rung : ring before = some after) :
    after.unsent = [] ∧ after.received = before.received ∧ after.pending = before.pending ++ [ascii "alarm"] := by
  obtain ⟨written, put, same⟩ := Option.bind_eq_some_iff.mp rung
  cases same
  obtain ⟨_, received, pending, _⟩ := Channel.put_spec put
  exact ⟨List.drop_length, received, pending⟩

theorem ring_ready {messagebox : Channel codec} (idle : messagebox.unsent = []) :
    (ring messagebox).isSome := by
  simp [ring, Channel.put, idle]

/-- What one step of the thread does. -/
theorem next_cases (stepped : next state event = some after) :
    (∃ command queue, state.queue = command :: queue ∧ state.phase ≠ .finished ∧
      after = { state with queue, phase := obey command }) ∨
    (state.phase = .armed ∧ state.queue = [] ∧ after = { state with phase := .waiting }) ∨
    (state.phase = .waiting ∧ ∃ messagebox, ring state.messagebox = some messagebox ∧
      after = { state with messagebox, phase := .armed }) := by
  cases event with
  | get =>
      simp only [next] at stepped
      split at stepped
      · next command queue waiting =>
          rw [Option.ite_none_left_eq_some] at stepped
          obtain ⟨going, ⟨⟩⟩ := stepped
          exact .inl ⟨command, queue, waiting, going, rfl⟩
      · cases stepped
  | wait =>
      rw [next, Option.ite_none_right_eq_some] at stepped
      obtain ⟨⟨armed, empty⟩, ⟨⟩⟩ := stepped
      exact .inr (.inl ⟨armed, empty, rfl⟩)
  | timeout =>
      rw [next, Option.ite_none_right_eq_some] at stepped
      obtain ⟨waiting, stepped⟩ := stepped
      obtain ⟨messagebox, rung, same⟩ := Option.bind_eq_some_iff.mp stepped
      cases same
      exact .inr (.inr ⟨waiting, messagebox, rung, rfl⟩)

theorem next_finished (finished : state.phase = .finished) : next state event = none := by
  cases stepped : next state event with
  | none => rfl
  | some after =>
      obtain ⟨_, _, _, going, _⟩ | ⟨armed, _⟩ | ⟨waiting, _⟩ := next_cases stepped
      · exact absurd finished going
      · rw [finished] at armed
        cases armed
      · rw [finished] at waiting
        cases waiting

/-- The thread gives alarms, or will when it has read the queue, and was not told to stop. -/
structure Armed (state : State codec) : Prop where
  written : state.messagebox.unsent = []
  alarms : ∀ command ∈ state.queue, command = .ALARM
  going : state.phase ≠ .finished
  begun : state.phase = .idle → state.queue ≠ []

/-- The last command in the queue is to stop, or the thread has obeyed it. -/
structure Stopping (state : State codec) : Prop where
  written : state.messagebox.unsent = []
  told : state.phase = .finished ∨ .STOP ∈ state.queue

theorem Armed.next (armed : Armed state) (stepped : next state event = some after) : Armed after := by
  obtain ⟨command, queue, waiting, _, rfl⟩ | ⟨phase, _, rfl⟩ | ⟨phase, messagebox, rung, rfl⟩ := next_cases stepped
  · have known := armed.alarms
    rw [waiting, List.forall_mem_cons] at known
    obtain ⟨rfl, others⟩ := known
    exact ⟨armed.written, others, by simp [obey], by simp [obey]⟩
  · exact ⟨armed.written, armed.alarms, by simp, by simp⟩
  · exact ⟨(ring_spec rung).1, armed.alarms, by simp, by simp⟩

theorem Stopping.next (stopping : Stopping state) (stepped : next state event = some after) : Stopping after := by
  obtain ⟨command, queue, waiting, going, rfl⟩ | ⟨phase, empty, rfl⟩ | ⟨phase, messagebox, rung, rfl⟩ := next_cases stepped
  · refine ⟨stopping.written, ?_⟩
    have told := stopping.told.resolve_left going
    rw [waiting, List.mem_cons] at told
    rcases told with rfl | later
    · exact .inl rfl
    · exact .inr later
  · have told := stopping.told.resolve_left (by simp [phase])
    rw [empty] at told
    cases told
  · exact ⟨(ring_spec rung).1, .inr (stopping.told.resolve_left (by simp [phase]))⟩

theorem Armed.setAlarm (armed : Armed state) : Armed (AlarmDispatcher.setAlarm state) where
  written := armed.written
  alarms := by simpa [AlarmDispatcher.setAlarm, or_imp, forall_and] using armed.alarms
  going := armed.going
  begun _ := by simp [AlarmDispatcher.setAlarm]

theorem Armed.acknowledgeAlarm (armed : Armed state)
    (acknowledged : AlarmDispatcher.acknowledgeAlarm state = some after) : Armed after := by
  obtain ⟨⟨found, messagebox⟩, read, rfl⟩ := Option.map_eq_some_iff.mp acknowledged
  exact ⟨(Channel.get_unsent read).trans armed.written, armed.alarms, armed.going, armed.begun⟩

theorem Armed.putStop (armed : Armed state) : Stopping (AlarmDispatcher.putStop state) where
  written := armed.written
  told := .inr (by simp [AlarmDispatcher.putStop])

/-- The number of steps that an armed thread takes at most before it gives an alarm. -/
def distance (state : State codec) : Nat :=
  2 * state.queue.length + if state.phase = .armed then 2 else 1

/-- The number of steps that a thread which was told to stop takes at most. -/
def remaining (state : State codec) : Nat :=
  state.queue.length + if state.phase = .waiting then 1 else 0

/-- Each step leads closer to the next alarm, or gives it. -/
theorem next_nearer (stepped : next state event = some after) :
    after.messagebox.pending ≠ [] ∨ distance after < distance state := by
  obtain ⟨command, queue, waiting, _, rfl⟩ | ⟨phase, _, rfl⟩ | ⟨phase, messagebox, rung, rfl⟩ := next_cases stepped
  · right
    simp only [distance, waiting, List.length_cons]
    split <;> split <;> omega
  · exact .inr (by simp [distance, phase])
  · left
    rw [(ring_spec rung).2.2]
    simp

theorem next_pending (given : state.messagebox.pending ≠ []) (stepped : next state event = some after) :
    after.messagebox.pending ≠ [] := by
  obtain ⟨command, queue, _, _, rfl⟩ | ⟨_, _, rfl⟩ | ⟨_, messagebox, rung, rfl⟩ := next_cases stepped
  · exact given
  · exact given
  · rw [(ring_spec rung).2.2]
    simp

theorem Armed.run (armed : Armed state) (run : events.foldlM AlarmThread.next state = some after) :
    Armed after := by
  induction events generalizing state with
  | nil =>
      cases run
      exact armed
  | cons event rest ih =>
      rw [List.foldlM_cons] at run
      obtain ⟨middle, stepped, run⟩ := Option.bind_eq_some_iff.mp run
      exact ih (armed.next stepped) run

/-- After as many steps as the thread is away from the next alarm, there is one. -/
theorem run_pending (run : events.foldlM next state = some after)
    (given : state.messagebox.pending ≠ [] ∨ distance state ≤ events.length) : after.messagebox.pending ≠ [] := by
  induction events generalizing state with
  | nil =>
      cases run
      refine given.resolve_right fun enough => ?_
      rw [distance, List.length_nil] at enough
      split at enough <;> omega
  | cons event rest ih =>
      rw [List.foldlM_cons] at run
      obtain ⟨middle, stepped, run⟩ := Option.bind_eq_some_iff.mp run
      apply ih run
      rcases given with given | enough
      · exact .inl (next_pending given stepped)
      · refine (next_nearer stepped).imp_right fun nearer => ?_
        rw [List.length_cons] at enough
        omega

/-- An armed thread can always take a step. -/
theorem Armed.ready (armed : Armed state) : ∃ event, (AlarmThread.next state event).isSome := by
  cases phase : state.phase with
  | idle =>
      obtain ⟨command, queue, waiting⟩ := List.exists_cons_of_ne_nil (armed.begun phase)
      exact ⟨.get, by simp [AlarmThread.next, waiting, phase]⟩
  | armed =>
      cases waiting : state.queue with
      | nil => exact ⟨.wait, by simp [AlarmThread.next, waiting, phase]⟩
      | cons command queue => exact ⟨.get, by simp [AlarmThread.next, waiting, phase]⟩
  | waiting =>
      obtain ⟨messagebox, rung⟩ := Option.isSome_iff_exists.mp (ring_ready armed.written)
      exact ⟨.timeout, by simp [AlarmThread.next, phase, rung]⟩
  | finished => exact absurd phase armed.going

/-- An armed thread never comes to a halt, and soon gives an alarm that can be acknowledged. -/
theorem Armed.rings (armed : Armed state) (run : events.foldlM AlarmThread.next state = some after) :
    (∃ event, (AlarmThread.next after event).isSome) ∧
      (distance state ≤ events.length → (AlarmDispatcher.acknowledgeAlarm after).isSome) := by
  have kept := armed.run run
  refine ⟨kept.ready, fun enough => ?_⟩
  obtain ⟨message, left, read⟩ := Channel.get_ready (run_pending run (.inr enough)) kept.written
  simp [AlarmDispatcher.acknowledgeAlarm, read]

theorem Stopping.ready (stopping : Stopping state) :
    state.phase = .finished ∨ ∃ event, (AlarmThread.next state event).isSome := by
  refine or_iff_not_imp_left.mpr fun going => ?_
  obtain ⟨command, queue, waiting⟩ :=
    List.exists_cons_of_ne_nil (List.ne_nil_of_mem (stopping.told.resolve_left going))
  exact ⟨.get, by simp [AlarmThread.next, waiting, going]⟩

/-- A thread that was told to stop takes a limited number of steps, and does not come to a halt before. -/
theorem Stopping.finishes (stopping : Stopping state) (run : events.foldlM AlarmThread.next state = some after) :
    events.length ≤ remaining state ∧ (after.phase = .finished ∨ ∃ event, (AlarmThread.next after event).isSome) := by
  induction events generalizing state with
  | nil =>
      cases run
      exact ⟨Nat.zero_le _, stopping.ready⟩
  | cons event rest ih =>
      rw [List.foldlM_cons] at run
      obtain ⟨middle, stepped, run⟩ := Option.bind_eq_some_iff.mp run
      obtain ⟨few, ends⟩ := ih (stopping.next stepped) run
      refine ⟨?_, ends⟩
      have fewer : remaining middle < remaining state := by
        obtain ⟨command, queue, waiting, _, rfl⟩ | ⟨phase, empty, rfl⟩ | ⟨phase, _, _, rfl⟩ := next_cases stepped
        · simp only [remaining, waiting, List.length_cons]
          cases command <;> simp [obey] <;> omega
        · have told := stopping.told.resolve_left (by simp [phase])
          rw [empty] at told
          cases told
        · simp [remaining, phase]
      rw [List.length_cons]
      omega

end AlarmThread

end ExaProxy.Util
