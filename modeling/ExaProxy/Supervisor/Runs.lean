import ExaProxy.Supervisor.Sound

namespace ExaProxy.Supervisor

open Data Redirector Util

variable {δ μ ν : Type} [DecidableEq ν] {commandCodec : Codec UInt8 ControlBox.Command}
  {responseCodec : Codec UInt8 ControlBox.Response} {alarmCodec : Codec UInt8 Str}
  {closed : δ} {low high : Nat} {state : State δ μ ν commandCodec responseCodec alarmCodec}

/-- Wherever the main process waits for its alarm thread, the thread does not leave it
waiting: it can always go on, and gives an alarm, or ends, after a limited number of steps. -/
theorem alarm_rings (reached : Reachable (Start low high) (Step closed) state) {events : List AlarmThread.Event}
    {scheduler : AlarmThread.State alarmCodec}
    (run : events.foldlM AlarmThread.next state.scheduler = some scheduler) :
    (state.phase = .acknowledging → (∃ event, (AlarmThread.next scheduler event).isSome) ∧
      (AlarmThread.distance state.scheduler ≤ events.length →
        (AlarmDispatcher.acknowledgeAlarm scheduler).isSome)) ∧
    (state.phase = .joining → events.length ≤ AlarmThread.remaining state.scheduler ∧
      (scheduler.phase = .finished ∨ ∃ event, (AlarmThread.next scheduler event).isSome)) := by
  have alarmed := (reachable_sound reached).alarmed
  constructor
  · intro phase
    rw [Alarmed, phase] at alarmed
    exact AlarmThread.Armed.rings alarmed run
  · intro phase
    rw [Alarmed, phase] at alarmed
    exact AlarmThread.Stopping.finishes alarmed run

/-- In every interleaving, each `SIGUSR1` and `SIGUSR2` is in the count of one command that was sent,
or still to be sent, unless it came while such a command was being sent: then it is lost. -/
theorem limits_signalled (reached : Reachable (Start low high) (Step closed) state) :
    state.decrease.signalled = total decreases state.redirector.commands.sent + state.decrease.late +
      (if state.phase = .decreased then 0 else state.decrease.limit) ∧
    state.increase.signalled = total increases state.redirector.commands.sent + state.increase.late +
      (if state.phase = .increased then 0 else state.increase.limit) :=
  ⟨(reachable_sound reached).decreased, (reachable_sound reached).increased⟩

/-- Of the statistics, all of which are read, the monitor has the last sixty of the first ones
followed by those that were read in every tenth iteration of the loop, and in every six hundredth. -/
theorem statistics_recorded (reached : Reachable (Start low high) (Step closed) state) :
    state.monitor.seconds = (state.zero ++ recorded 10 state.readings).rtake 60 ∧
    state.monitor.minutes = (state.zero ++ recorded 600 state.readings).rtake 60 ∧
    state.redirector.replies = state.zero.length + state.readings.length := by
  obtain ⟨_, _, _, _, _, _, _, replies, seconds, minutes⟩ := reachable_sound reached
  exact ⟨seconds, minutes, replies⟩

/-- The program comes to its end when the redirector process had answered all requests for statistics,
or was gone.  If `shutdown` is left with an error, some had not been answered, and the alarm thread then
goes on for ever. -/
theorem shutdown_outcome (reached : Reachable (Start low high) (Step closed) state) :
    (state.phase = .returned → state.scheduler.phase = .finished ∧
      (state.redirector.supervisor.phase ≠ .gone →
        ControlBox.asked state.redirector.commands.sent ≤ state.redirector.replies)) ∧
    (state.phase = .raised → state.redirector.replies < ControlBox.asked state.redirector.commands.sent ∧
      .STOP ∉ state.scheduler.queue ∧ ∃ event, (AlarmThread.next state.scheduler event).isSome) := by
  obtain ⟨control, stage, alarmed, _⟩ := reachable_sound reached
  have answered := ControlBox.reachable_sound control
  constructor
  · intro phase
    simp only [Stage, Alarmed, phase] at stage alarmed
    refine ⟨alarmed, fun running => Nat.le_of_not_lt fun fewer => ?_⟩
    have raised := (answered.raised_iff_owed running (.inl stage)).mpr fewer
    rw [stage] at raised
    cases raised
  · intro phase
    simp only [Stage, Alarmed, phase] at stage alarmed
    have unread := ((answered.raised_iff (.inr stage)).mp stage).2
    refine ⟨Nat.lt_of_lt_of_le unread answered.responses_sent.1, fun told => ?_, alarmed.ready⟩
    cases alarmed.alarms _ told

section Sample

open Util.MessageReader

/-- One frame, in place of the pickle of a string. -/
def textPickle : Pickle Str where
  dumps := MessageBox.frame
  loads text :=
    match reads 1 text with
    | some ([some text], []) => some text
    | _ => none
  inverts text := by
    have read := MessageBox.reads_written [text]
    rw [List.flatMap_cons, List.flatMap_nil, List.append_nil] at read
    rw [show 1 = [text].length from rfl, read]
    rfl
  eof := rfl

abbrev Sample := State Unit Unit Unit (MessageBox.codec ControlBox.commandPickle)
  (MessageBox.codec ControlBox.responsePickle) (MessageBox.codec textPickle)

/-- The program at the end of its initialisation, with or without the intention to stop at once. -/
def opened (phase : Phase) (shutdown : Bool) : Sample :=
  { phase
    shutdown
    proxy := { readName := (), maxClients := 2, serving := true }
    logWriter := { identifier := ascii "ExaProxy", pid := 7, active := true, level := 20 }
    redirector := ControlBox.opened }

def follow (state : Sample) (event : Event) : Option Sample :=
  let env := RedirectorReactor.answering
  next () (env, env, env) state event

theorem follow_reached {state after : Sample} (reached : Reachable (Start 1 2) (Step ()) state) {events : List Event}
    (followed : events.foldlM follow state = some after) : Reachable (Start 1 2) (Step ()) after :=
  reached.foldlM (fun _ event _ stepped => ⟨_, event, stepped⟩) followed

theorem started_reached : Reachable (Start 1 2) (Step ()) (opened .starting false) :=
  .start ⟨_, _, _, ⟨_, ⟨by decide, RedirectorReactor.deferring, rfl⟩, rfl⟩, .inl rfl⟩

theorem stopped_reached : Reachable (Start 1 2) (Step ()) (opened .looping true) :=
  .start ⟨_, _, _, ⟨_, ⟨by decide, RedirectorReactor.deferring, rfl⟩, rfl⟩, .inr rfl⟩

def onwards : Event := .proceed {}

/-- The first request for statistics is answered, and the second is sent. -/
def starts : List Event :=
  [onwards, .redirector (.writeCommand 90)] ++ ControlBox.wakes.map .redirector ++
    [.redirector .control, .redirector (.writeResponse 90), onwards, onwards, .redirector (.writeCommand 90)]

/-- The alarm rings and is acknowledged. -/
def passes : List Event :=
  [onwards, .ring .get, .ring .wait, .ring .timeout, .react true { interrupt := true }, onwards]

theorem alarm_rings_once : ∃ state : Sample, ∃ scheduler, state.phase = .acknowledging ∧
    [AlarmThread.Event.get, .wait, .timeout].foldlM AlarmThread.next state.scheduler = some scheduler ∧
    ∃ event, (AlarmThread.next scheduler event).isSome := by
  have run : ∃ state ∈ [onwards, .redirector (.supervise .interrupt), .react false {}].foldlM follow
        (opened .looping true), state.phase = .acknowledging ∧
      ∃ scheduler ∈ [AlarmThread.Event.get, .wait, .timeout].foldlM AlarmThread.next state.scheduler, True := by
    decide +kernel
  obtain ⟨state, followed, phase, scheduler, rung, _⟩ := run
  exact ⟨state, scheduler, phase, rung,
    ((alarm_rings (follow_reached stopped_reached followed) rung).1 phase).1⟩

/-- A signal comes while the command for the one before it is being written. -/
def late : List Event :=
  [.signal .USR1] ++ starts ++ passes ++ [onwards, .redirector (.writeCommand 90)] ++ List.replicate 4 onwards ++
    [.signal .USR1, .redirector (.writeCommand 90), onwards]

theorem limits_signalled_late : ∃ state : Sample, state.decrease.late = 1 ∧
    state.decrease.signalled = total decreases state.redirector.commands.sent + state.decrease.late +
      (if state.phase = .decreased then 0 else state.decrease.limit) := by
  have run : ∃ state ∈ late.foldlM follow (opened .starting false), state.decrease.late = 1 := by
    decide +kernel
  obtain ⟨state, followed, once⟩ := run
  exact ⟨state, once, (limits_signalled (follow_reached started_reached followed)).1⟩

/-- The second statistics are read in the tenth iteration, after nine that failed. -/
def tenth : List Event :=
  starts ++ (List.replicate 9 [onwards, .fail]).flatten ++
    [onwards, .redirector .control, .redirector (.writeResponse 90), .react true { control := true }, onwards]

theorem statistics_recorded_tenth : ∃ state : Sample, state.monitor.seconds.length = 2 ∧
    state.monitor.seconds = (state.zero ++ recorded 10 state.readings).rtake 60 := by
  have run : ∃ state ∈ tenth.foldlM follow (opened .starting false), state.monitor.seconds.length = 2 := by
    decide +kernel
  obtain ⟨state, followed, two⟩ := run
  exact ⟨state, two, (statistics_recorded (follow_reached started_reached followed)).1⟩

/-- The program is terminated before the second statistics have come. -/
def owed : List Event :=
  starts ++ [.signal .TERM] ++ passes ++
    [onwards, .redirector (.writeCommand 90), .redirector .control, .redirector (.writeResponse 90), onwards]

theorem shutdown_outcome_owed : ∃ state : Sample, state.phase = .raised ∧
    ∃ event, (AlarmThread.next state.scheduler event).isSome := by
  have run : ∃ state ∈ owed.foldlM follow (opened .starting false), state.phase = .raised := by
    decide +kernel
  obtain ⟨state, followed, raised⟩ := run
  exact ⟨state, raised, ((shutdown_outcome (follow_reached started_reached followed)).2 raised).2.2⟩

-- the redirector process is interrupted, and shut down before the second statistics have come
example : ∃ state ∈ (starts ++ [.redirector (.supervise .interrupt), onwards, .react false {}, .ring .get, .ring .wait,
      .ring .timeout, onwards, onwards, onwards, .ring .get, onwards]).foldlM follow (opened .starting false),
    state.phase = .returned ∧ state.redirector.replies < ControlBox.asked state.redirector.commands.sent := by
  decide +kernel

end Sample

end ExaProxy.Supervisor
