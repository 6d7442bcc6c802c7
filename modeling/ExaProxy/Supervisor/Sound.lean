import ExaProxy.Supervisor.Main

namespace ExaProxy.Supervisor

open Data Redirector Util

variable {δ μ ν : Type} {commandCodec : Codec UInt8 ControlBox.Command}
  {responseCodec : Codec UInt8 ControlBox.Response} {alarmCodec : Codec UInt8 Str}
  {state after : State δ μ ν commandCodec responseCodec alarmCodec}

/-- The sum of what some commands ask for. -/
def total (amount : Control → Nat) : List ControlBox.Command → Nat
  | [] => 0
  | command :: rest => amount command.2 + total amount rest

def decreases : Control → Nat
  | .DECREASE count => count
  | _ => 0

def increases : Control → Nat
  | .INCREASE count => count
  | _ => 0

/-- Every signal is in a command that was sent, or still in the counter, unless it came when the
command was already being sent: the counter is then reset. -/
def Requests.Counted (requests : Requests) (sent : Nat) (sending : Prop) [Decidable sending] : Prop :=
  requests.signalled = sent + requests.late + if sending then 0 else requests.limit

/-- No alarm was ever set. -/
structure Fresh (scheduler : AlarmThread.State alarmCodec) : Prop where
  queue : scheduler.queue = []
  phase : scheduler.phase = .idle
  written : scheduler.messagebox.unsent = []

/-- From the first iteration to the end of `shutdown` the alarm is set. -/
def Alarmed (state : State δ μ ν commandCodec responseCodec alarmCodec) : Prop :=
  match state.phase with
  | .starting | .primed | .started => Fresh state.scheduler ∧ state.events.interrupt = true
  | .looping => Fresh state.scheduler ∧ state.events.interrupt = true ∨ AlarmThread.Armed state.scheduler
  | .joining => AlarmThread.Stopping state.scheduler
  | .returned => state.scheduler.phase = .finished
  | _ => AlarmThread.Armed state.scheduler

/-- How far the redirector process has been stopped. -/
def Stage (state : State δ μ ν commandCodec responseCodec alarmCodec) : Prop :=
  match state.phase with
  | .stopping => state.redirector.stopping = .waiting ∨ state.redirector.stopping = .returned
  | .joining | .returned => state.redirector.stopping = .returned
  | .raised => state.redirector.stopping = .raised
  | _ => state.redirector.stopping = .no

/-- Nothing is recorded before the first statistics. -/
def Blank (state : State δ μ ν commandCodec responseCodec alarmCodec) : Prop :=
  match state.phase with
  | .starting | .primed => state.zero = [] ∧ state.readings = []
  | _ => True

structure Sound (closed : δ) (low high : Nat) (state : State δ μ ν commandCodec responseCodec alarmCodec) :
    Prop where
  control : Reachable (ControlBox.Start low high) (ControlBox.Step closed) state.redirector
  stage : Stage state
  alarmed : Alarmed state
  blank : Blank state
  decreased : state.decrease.Counted (total decreases state.redirector.commands.sent) (state.phase = .decreased)
  increased : state.increase.Counted (total increases state.redirector.commands.sent) (state.phase = .increased)
  counts : state.counts = .after state.iterations
  replies : state.redirector.replies = state.zero.length + state.readings.length
  records : Records state.zero state.readings state.monitor

/-- The phases in which the loop is under way and no counter about to be reset. -/
def Phase.ordinary : Phase → Bool
  | .reacting | .responding | .acknowledging | .deciding | .listening | .softening | .changing | .accepted _
  | .clearing _ | .emptying | .toggling | .decreasing | .increasing | .tidying => true
  | _ => false

/-- What holds in all ordinary phases, of what most of them leave as it is. -/
structure Kept (closed : δ) (low high : Nat) (redirector : ControlBox.State δ μ commandCodec responseCodec)
    (scheduler : AlarmThread.State alarmCodec) (decrease increase : Requests) (counts : Counts) (iterations : Nat)
    (zero : List Statistics) (readings : List Reading) (monitor : Monitor) : Prop where
  control : Reachable (ControlBox.Start low high) (ControlBox.Step closed) redirector
  going : redirector.stopping = .no
  armed : AlarmThread.Armed scheduler
  decreased : decrease.Counted (total decreases redirector.commands.sent) False
  increased : increase.Counted (total increases redirector.commands.sent) False
  counts : counts = .after iterations
  replies : redirector.replies = zero.length + readings.length
  records : Records zero readings monitor

abbrev Core (closed : δ) (low high : Nat) (state : State δ μ ν commandCodec responseCodec alarmCodec) : Prop :=
  Kept closed low high state.redirector state.scheduler state.decrease state.increase state.counts
    state.iterations state.zero state.readings state.monitor

theorem total_append {amount : Control → Nat} {commands : List ControlBox.Command} (command : ControlBox.Command) :
    total amount (commands ++ [command]) = total amount commands + amount command.2 := by
  induction commands with
  | nil => simp [total]
  | cons first rest ih => rw [List.cons_append, total, total, ih, Nat.add_assoc]

theorem Requests.Counted.add {requests : Requests} {sent : Nat} {sending : Prop} [Decidable sending]
    (counted : requests.Counted sent sending) : (requests.add sending).Counted sent sending := by
  unfold Counted at counted ⊢
  by_cases during : sending
  · simp only [Requests.add, during, decide_true, if_true] at counted ⊢
    omega
  · simp only [Requests.add, during, decide_false, if_false, Bool.false_eq_true] at counted ⊢
    omega

theorem Fresh.quiet {scheduler : AlarmThread.State alarmCodec} (fresh : Fresh scheduler)
    (event : AlarmThread.Event) : AlarmThread.next scheduler event = none := by
  cases event with
  | get => simp [AlarmThread.next, fresh.queue]
  | wait => simp [AlarmThread.next, fresh.phase]
  | timeout => simp [AlarmThread.next, fresh.phase]

theorem Fresh.setAlarm {scheduler : AlarmThread.State alarmCodec} (fresh : Fresh scheduler) :
    AlarmThread.Armed (AlarmDispatcher.setAlarm scheduler) where
  written := fresh.written
  alarms := by simp [AlarmDispatcher.setAlarm, fresh.queue]
  going := by simp [AlarmDispatcher.setAlarm, fresh.phase]
  begun _ := by simp [AlarmDispatcher.setAlarm]

/-- What the thread does does not change whether the alarm is set. -/
theorem Alarmed.ring (alarmed : Alarmed state) {event : AlarmThread.Event} {scheduler : AlarmThread.State alarmCodec}
    (rung : AlarmThread.next state.scheduler event = some scheduler) : Alarmed { state with scheduler } := by
  have silent (fresh : Fresh state.scheduler) : False := by
    rw [fresh.quiet] at rung
    cases rung
  unfold Alarmed at alarmed ⊢
  dsimp only
  split at alarmed
  · exact absurd alarmed.1 silent
  · exact absurd alarmed.1 silent
  · exact absurd alarmed.1 silent
  · exact .inr ((alarmed.resolve_left fun fresh => silent fresh.1).next rung)
  · exact alarmed.next rung
  · rw [AlarmThread.next_finished alarmed] at rung
    cases rung
  · exact alarmed.next rung

variable [DecidableEq ν] {closed : δ} {envs : Env δ μ × Env δ μ × Env δ μ} {low high : Nat}

omit [DecidableEq ν] in
theorem Sound.core (sound : Sound closed low high state) (ordinary : state.phase.ordinary = true) :
    Core closed low high state := by
  obtain ⟨control, stage, alarmed, blank, decreased, increased, counts, replies, records⟩ := sound
  cases phase : state.phase <;> rw [phase] at ordinary <;> first
    | exact absurd ordinary Bool.false_ne_true
    | simp only [Stage, Alarmed, phase, reduceCtorEq] at stage alarmed decreased increased
      exact ⟨control, stage, alarmed, decreased, increased, counts, replies, records⟩

omit [DecidableEq ν] in
theorem Core.sound (core : Core closed low high state) (ordinary : state.phase.ordinary = true) :
    Sound closed low high state := by
  obtain ⟨control, going, armed, decreased, increased, counts, replies, records⟩ := core
  cases phase : state.phase <;> rw [phase] at ordinary <;> first
    | exact absurd ordinary Bool.false_ne_true
    | refine ⟨control, ?_, ?_, ?_, ?_, ?_, counts, replies, records⟩ <;>
        simp only [Stage, Alarmed, Blank, phase, reduceCtorEq] <;> assumption

omit [DecidableEq ν] in
/-- Sending a command changes the redirector process alone. -/
theorem send_cases {command : Control} {phase : Phase} (sent : send closed envs state command phase = some after)
    (control : Reachable (ControlBox.Start low high) (ControlBox.Step closed) state.redirector) :
    ∃ redirector, after = { state with redirector, phase } ∧
      Reachable (ControlBox.Start low high) (ControlBox.Step closed) redirector ∧
      (if command = .STOP then redirector.stopping = .waiting ∨ redirector.stopping = .returned
        else redirector.stopping = .no) ∧
      redirector.replies = state.redirector.replies ∧
      ∀ amount, amount .STOP = 0 → total amount redirector.commands.sent =
        total amount state.redirector.commands.sent + amount command := by
  obtain ⟨redirector, moved, rfl⟩ := Option.map_eq_some_iff.mp sent
  obtain ⟨_, read, _, ⟨commands, stopping⟩ | ⟨stop, commands, stopping⟩⟩ := ControlBox.next_send moved
  · refine ⟨redirector, rfl, control.next ⟨envs, _, moved⟩, ?_, read, fun amount _ => ?_⟩
    · by_cases stop : command = .STOP
      · rw [if_pos stop] at stopping ⊢
        exact .inl stopping
      · rw [if_neg stop] at stopping ⊢
        exact stopping
    · rw [commands, total_append]
  · refine ⟨redirector, rfl, control.next ⟨envs, _, moved⟩, ?_, read, fun amount none => ?_⟩
    · rw [if_pos stop]
      exact .inr stopping
    · rw [commands, stop, none, Nat.add_zero]

omit [DecidableEq ν] in
theorem readResponse_cases {redirector read : ControlBox.State δ μ commandCodec responseCodec} {stats : Stats}
    (response : readResponse closed envs redirector = some (stats, read))
    (control : Reachable (ControlBox.Start low high) (ControlBox.Step closed) redirector) :
    Reachable (ControlBox.Start low high) (ControlBox.Step closed) read ∧ read.stopping = redirector.stopping ∧
      read.commands = redirector.commands ∧ read.replies = redirector.replies + 1 := by
  obtain ⟨after, moved, response⟩ := Option.bind_eq_some_iff.mp response
  obtain ⟨found, _, same⟩ := Option.bind_eq_some_iff.mp response
  cases same
  obtain ⟨commands, stopping, replies, _⟩ := ControlBox.next_readResponse moved
  exact ⟨control.next ⟨envs, _, moved⟩, stopping, commands, replies⟩

/-! ### The phases of the loop -/

omit [DecidableEq ν] in
theorem Sound.primed (sound : Sound closed low high state) (phase : state.phase = .primed) {gauges : Gauges}
    (moved : Supervisor.primed closed envs state gauges = some after) : Sound closed low high after := by
  obtain ⟨⟨stats, redirector⟩, response, rfl⟩ := Option.map_eq_some_iff.mp moved
  obtain ⟨control, stage, alarmed, blank, decreased, increased, counts, replies, records⟩ := sound
  obtain ⟨reached, stopping, commands, read⟩ := readResponse_cases response control
  simp only [Stage, Alarmed, Blank, phase, reduceCtorEq] at stage alarmed blank decreased increased
  obtain ⟨nothing, unread⟩ := blank
  rw [nothing, unread] at records replies
  refine ⟨reached, stopping.trans stage, alarmed, trivial, ?_, ?_, counts, ?_, ?_⟩
  · rw [commands]
    exact decreased
  · rw [commands]
    exact increased
  · rw [read, replies, unread]
    rfl
  · obtain ⟨seconds, minutes⟩ := records
    rw [unread]
    exact ⟨by simp [Monitor.zero, seconds, recorded, Monitor.nbRecorded, List.rtake],
      by simp [Monitor.zero, minutes, recorded, Monitor.nbRecorded, List.rtake]⟩

omit [DecidableEq ν] in
theorem Sound.loop (sound : Sound closed low high state) (phase : state.phase = .looping) :
    Sound closed low high (loop state) := by
  obtain ⟨control, stage, alarmed, _, decreased, increased, counts, replies, records⟩ := sound
  simp only [Stage, Alarmed, phase, reduceCtorEq] at stage alarmed decreased increased
  refine Core.sound ⟨control, stage, ?_, decreased, increased, ?_, replies, records⟩ rfl
  · simp only [Supervisor.loop]
    rcases alarmed with ⟨fresh, first⟩ | armed
    · rw [if_pos first]
      exact fresh.setAlarm
    · split
      · exact armed.setAlarm
      · exact armed
  · simp only [Supervisor.loop, counts]
    exact Counts.next_after _

omit [DecidableEq ν] in
theorem Core.respond (core : Core closed low high state) {gauges : Gauges}
    (moved : respond closed envs state gauges = some after) : Sound closed low high after := by
  obtain ⟨⟨stats, redirector⟩, response, same⟩ := Option.map_eq_some_iff.mp moved
  obtain ⟨control, going, armed, decreased, increased, counts, replies, records⟩ := core
  obtain ⟨reached, stopping, commands, read⟩ := readResponse_cases response control
  have later : redirector.replies = state.zero.length + (state.readings ++
      [(state.iterations, Monitor.statistics gauges (some stats))]).length := by
    rw [read, replies, List.length_append, List.length_singleton, Nat.add_assoc]
  have recorded := records.doStats state.iterations (Monitor.statistics gauges (some stats))
  rw [← counts] at recorded
  subst same
  cases interrupt : state.events.interrupt with
  | true =>
      refine Core.sound ⟨reached, stopping.trans going, armed, ?_, ?_, counts, later, recorded⟩ rfl
      · rw [commands]; exact decreased
      · rw [commands]; exact increased
  | false =>
      refine ⟨reached, stopping.trans going, .inr armed, trivial, ?_, ?_, counts, later, recorded⟩
      · rw [commands]; exact decreased
      · rw [commands]; exact increased

omit [DecidableEq ν] in
theorem Core.acknowledge (core : Core closed low high state) (moved : acknowledge state = some after) :
    Sound closed low high after := by
  obtain ⟨scheduler, acknowledged, rfl⟩ := Option.map_eq_some_iff.mp moved
  obtain ⟨control, going, armed, decreased, increased, counts, replies, records⟩ := core
  have kept := armed.acknowledgeAlarm acknowledged
  exact Core.sound ⟨control, going, kept, decreased, increased, counts, replies, records⟩ rfl

theorem Core.decide (core : Core closed low high state) (moved : decide closed envs state = some after) :
    Sound closed low high after := by
  obtain ⟨control, going, armed, decreased, increased, counts, replies, records⟩ := core
  rw [Supervisor.decide] at moved
  split at moved
  · obtain ⟨redirector, rfl, reached, stopping, read, same⟩ := send_cases moved control
    refine ⟨reached, stopping, armed, trivial, ?_, ?_, counts, read.trans replies, records⟩
    · rw [same _ rfl]; exact decreased
    · rw [same _ rfl]; exact increased
  · obtain ⟨redirector, rfl, reached, stopping, read, same⟩ := send_cases moved control
    refine Core.sound ⟨reached, stopping, armed, ?_, ?_, counts, read.trans replies, records⟩ rfl
    · rw [same _ rfl]; exact decreased
    · rw [same _ rfl]; exact increased

omit [DecidableEq ν] in
theorem Core.sendDecrease (core : Core closed low high state)
    (moved : send closed envs state (.DECREASE state.decrease.limit) .decreased = some after) :
    Sound closed low high after := by
  obtain ⟨control, going, armed, decreased, increased, counts, replies, records⟩ := core
  obtain ⟨redirector, rfl, reached, stopping, read, same⟩ := send_cases moved control
  refine ⟨reached, stopping, armed, trivial, ?_, ?_, counts, read.trans replies, records⟩
  · rw [same _ rfl]
    simp only [Requests.Counted, if_false, if_true, decreases] at decreased ⊢
    omega
  · rw [same _ rfl]; exact increased

omit [DecidableEq ν] in
theorem Core.sendIncrease (core : Core closed low high state)
    (moved : send closed envs state (.INCREASE state.increase.limit) .increased = some after) :
    Sound closed low high after := by
  obtain ⟨control, going, armed, decreased, increased, counts, replies, records⟩ := core
  obtain ⟨redirector, rfl, reached, stopping, read, same⟩ := send_cases moved control
  refine ⟨reached, stopping, armed, trivial, ?_, ?_, counts, read.trans replies, records⟩
  · rw [same _ rfl]; exact decreased
  · rw [same _ rfl]
    simp only [Requests.Counted, if_false, if_true, increases] at increased ⊢
    omega

omit [DecidableEq ν] in
theorem waitStop_cases {redirector waited : ControlBox.State δ μ commandCodec responseCodec}
    (moved : waitStop closed envs redirector = some waited)
    (control : Reachable (ControlBox.Start low high) (ControlBox.Step closed) redirector) :
    Reachable (ControlBox.Start low high) (ControlBox.Step closed) waited ∧
      waited.commands = redirector.commands ∧ waited.replies = redirector.replies ∧
      (waited.stopping = .returned ∨ waited.stopping = .raised) := by
  rw [waitStop] at moved
  split at moved
  · next returned =>
      cases moved
      exact ⟨control, rfl, rfl, .inl returned⟩
  · obtain ⟨commands, read, _, outcome⟩ := ControlBox.next_waitStop moved
    exact ⟨control.next ⟨envs, _, moved⟩, commands, read, outcome⟩

omit [DecidableEq ν] in
theorem stop_cases (moved : stop closed envs state = some after)
    (control : Reachable (ControlBox.Start low high) (ControlBox.Step closed) state.redirector) :
    ∃ redirector, Reachable (ControlBox.Start low high) (ControlBox.Step closed) redirector ∧
      redirector.commands = state.redirector.commands ∧ redirector.replies = state.redirector.replies ∧
      (redirector.stopping = .raised ∧ after = { state with redirector, phase := .raised } ∨
        redirector.stopping = .returned ∧ after = { state with
          redirector, scheduler := AlarmDispatcher.putStop state.scheduler, phase := .joining }) := by
  obtain ⟨redirector, waited, same⟩ := Option.map_eq_some_iff.mp moved
  obtain ⟨reached, commands, read, outcome⟩ := waitStop_cases waited control
  refine ⟨redirector, reached, commands, read, ?_⟩
  split at same
  · next raised => exact .inl ⟨raised, same.symm⟩
  · next other => exact .inr ⟨outcome.resolve_right other, same.symm⟩

omit [DecidableEq ν] in
theorem Sound.stop (sound : Sound closed low high state) (phase : state.phase = .stopping)
    (moved : stop closed envs state = some after) : Sound closed low high after := by
  obtain ⟨control, stage, alarmed, _, decreased, increased, counts, replies, records⟩ := sound
  simp only [Alarmed, phase, reduceCtorEq] at alarmed decreased increased
  obtain ⟨redirector, reached, commands, read, ⟨raised, rfl⟩ | ⟨returned, rfl⟩⟩ := stop_cases moved control
  · refine ⟨reached, raised, alarmed, trivial, ?_, ?_, counts, read.trans replies, records⟩
    · rw [commands]; exact decreased
    · rw [commands]; exact increased
  · refine ⟨reached, returned, alarmed.putStop, trivial, ?_, ?_, counts, read.trans replies, records⟩
    · rw [commands]; exact decreased
    · rw [commands]; exact increased

theorem Core.next (core : Core closed low high state) (ordinary : state.phase.ordinary = true)
    {surroundings : Surroundings} (moved : proceed closed envs state surroundings = some after) :
    Sound closed low high after := by
  cases phase : state.phase with
  | reacting =>
      rw [proceed, phase] at moved
      cases moved
  | responding =>
      rw [proceed, phase] at moved
      exact Core.respond core moved
  | acknowledging =>
      rw [proceed, phase] at moved
      exact Core.acknowledge core moved
  | deciding =>
      rw [proceed, phase] at moved
      exact Core.decide core moved
  | listening =>
      rw [proceed, phase] at moved
      cases moved
      refine Core.sound core ?_
      cases state.softstop <;> rfl
  | softening =>
      simp only [proceed, phase, soften] at moved
      split at moved
      · cases moved
        exact Core.sound core rfl
      · cases moved
        exact Core.sound core rfl
  | changing =>
      simp only [proceed, phase, change] at moved
      split at moved
      · cases moved
        exact Core.sound core rfl
      · cases moved
        exact Core.sound core rfl
      · cases moved
        exact Core.sound core rfl
  | accepted ok =>
      rw [proceed, phase] at moved
      cases moved
      exact Core.sound core rfl
  | clearing soft =>
      rw [proceed, phase] at moved
      cases moved
      refine Core.sound core ?_
      cases soft <;> rfl
  | emptying =>
      rw [proceed, phase] at moved
      cases moved
      exact Core.sound core rfl
  | toggling =>
      simp only [proceed, phase, toggle] at moved
      split at moved
      · cases moved
        exact Core.sound core rfl
      · cases moved
        exact Core.sound core rfl
  | decreasing =>
      simp only [proceed, phase] at moved
      split at moved
      · cases moved
        exact Core.sound core rfl
      · exact Core.sendDecrease core moved
  | increasing =>
      simp only [proceed, phase] at moved
      split at moved
      · cases moved
        exact Core.sound core rfl
      · exact Core.sendIncrease core moved
  | tidying =>
      rw [proceed, phase] at moved
      cases moved
      exact ⟨core.control, core.going, .inr core.armed, trivial, core.decreased, core.increased, core.counts,
        core.replies, core.records⟩
  | _ =>
      rw [phase] at ordinary
      exact absurd ordinary Bool.false_ne_true

omit [DecidableEq ν] in
theorem Sound.started (sound : Sound closed low high state) (phase : state.phase = .started)
    (moved : send closed envs state .STATS .looping = some after) : Sound closed low high after := by
  obtain ⟨control, stage, alarmed, _, decreased, increased, counts, replies, records⟩ := sound
  simp only [Alarmed, phase, reduceCtorEq] at alarmed decreased increased
  obtain ⟨redirector, rfl, reached, stopping, read, same⟩ := send_cases moved control
  refine ⟨reached, stopping, .inl alarmed, trivial, ?_, ?_, counts, read.trans replies, records⟩
  · rw [same _ rfl]; exact decreased
  · rw [same _ rfl]; exact increased

omit [DecidableEq ν] in
theorem Sound.starting (sound : Sound closed low high state) (phase : state.phase = .starting)
    (moved : send closed envs state .STATS .primed = some after) : Sound closed low high after := by
  obtain ⟨control, stage, alarmed, blank, decreased, increased, counts, replies, records⟩ := sound
  simp only [Alarmed, Blank, phase, reduceCtorEq] at alarmed blank decreased increased
  obtain ⟨redirector, rfl, reached, stopping, read, same⟩ := send_cases moved control
  refine ⟨reached, stopping, alarmed, blank, ?_, ?_, counts, read.trans replies, records⟩
  · rw [same _ rfl]; exact decreased
  · rw [same _ rfl]; exact increased

theorem Sound.proceed (sound : Sound closed low high state) {surroundings : Surroundings}
    (moved : proceed closed envs state surroundings = some after) : Sound closed low high after := by
  cases phase : state.phase with
  | starting =>
      rw [Supervisor.proceed, phase] at moved
      exact sound.starting phase moved
  | primed =>
      rw [Supervisor.proceed, phase] at moved
      exact sound.primed phase moved
  | started =>
      rw [Supervisor.proceed, phase] at moved
      exact sound.started phase moved
  | looping =>
      rw [Supervisor.proceed, phase] at moved
      cases moved
      exact sound.loop phase
  | decreased =>
      rw [Supervisor.proceed, phase] at moved
      cases moved
      obtain ⟨control, stage, alarmed, _, decreased, increased, counts, replies, records⟩ := sound
      simp only [Stage, Alarmed, phase, reduceCtorEq] at stage alarmed decreased increased
      refine Core.sound ⟨control, stage, alarmed, ?_, increased, counts, replies, records⟩ rfl
      simpa [Requests.Counted] using decreased
  | increased =>
      rw [Supervisor.proceed, phase] at moved
      cases moved
      obtain ⟨control, stage, alarmed, _, decreased, increased, counts, replies, records⟩ := sound
      simp only [Stage, Alarmed, phase, reduceCtorEq] at stage alarmed decreased increased
      refine Core.sound ⟨control, stage, alarmed, decreased, ?_, counts, replies, records⟩ rfl
      simpa [Requests.Counted] using increased
  | stopping =>
      rw [Supervisor.proceed, phase] at moved
      exact sound.stop phase moved
  | joining =>
      simp only [Supervisor.proceed, phase] at moved
      rw [Option.ite_none_right_eq_some] at moved
      obtain ⟨joined, ⟨⟩⟩ := moved
      obtain ⟨control, stage, _, _, decreased, increased, counts, replies, records⟩ := sound
      simp only [Stage, phase, reduceCtorEq] at stage decreased increased
      have finished : state.scheduler.phase = .finished := of_decide_eq_true joined
      exact ⟨control, stage, finished, trivial, decreased, increased, counts, replies, records⟩
  | returned =>
      rw [Supervisor.proceed, phase] at moved
      cases moved
  | raised =>
      rw [Supervisor.proceed, phase] at moved
      cases moved
  | _ => exact (sound.core (by rw [phase]; rfl)).next (by rw [phase]; rfl) moved

omit [DecidableEq ν] in
theorem Sound.handle (sound : Sound closed low high state) (signal : Signal) :
    Sound closed low high (handle state signal) := by
  obtain ⟨control, stage, alarmed, blank, decreased, increased, counts, replies, records⟩ := sound
  cases signal with
  | QUIT =>
      simp only [Supervisor.handle]
      split
      · exact ⟨control, stage, alarmed, blank, decreased, increased, counts, replies, records⟩
      · exact ⟨control, stage, alarmed, blank, decreased, increased, counts, replies, records⟩
  | USR1 => exact ⟨control, stage, alarmed, blank, decreased.add, increased, counts, replies, records⟩
  | USR2 => exact ⟨control, stage, alarmed, blank, decreased, increased.add, counts, replies, records⟩
  | _ => exact ⟨control, stage, alarmed, blank, decreased, increased, counts, replies, records⟩

theorem Sound.next {event : Event} (sound : Sound closed low high state)
    (stepped : next closed envs state event = some after) : Sound closed low high after := by
  cases event with
  | signal signal =>
      cases stepped
      exact sound.handle signal
  | ring event =>
      obtain ⟨scheduler, rung, rfl⟩ := Option.map_eq_some_iff.mp stepped
      obtain ⟨control, stage, alarmed, blank, decreased, increased, counts, replies, records⟩ := sound
      exact ⟨control, stage, alarmed.ring rung, blank, decreased, increased, counts, replies, records⟩
  | redirector event =>
      rw [Supervisor.next, Option.ite_none_right_eq_some] at stepped
      obtain ⟨foreign, stepped⟩ := stepped
      obtain ⟨redirector, moved, rfl⟩ := Option.map_eq_some_iff.mp stepped
      obtain ⟨sent, stopping, read⟩ := ControlBox.next_foreign foreign moved
      obtain ⟨control, stage, alarmed, blank, decreased, increased, counts, replies, records⟩ := sound
      refine ⟨control.next ⟨envs, event, moved⟩, ?_, alarmed, blank, ?_, ?_, counts,
        read.trans replies, records⟩
      · simp only [Stage, stopping] at stage ⊢
        exact stage
      · rw [sent]; exact decreased
      · rw [sent]; exact increased
  | accept accepted =>
      rw [Supervisor.next, Option.ite_none_right_eq_some] at stepped
      obtain ⟨_, ⟨⟩⟩ := stepped
      obtain ⟨control, stage, alarmed, blank, decreased, increased, counts, replies, records⟩ := sound
      exact ⟨control, stage, alarmed, blank, decreased, increased, counts, replies, records⟩
  | notifyClose count =>
      rw [Supervisor.next, Option.ite_none_right_eq_some] at stepped
      obtain ⟨_, ⟨⟩⟩ := stepped
      obtain ⟨control, stage, alarmed, blank, decreased, increased, counts, replies, records⟩ := sound
      exact ⟨control, stage, alarmed, blank, decreased, increased, counts, replies, records⟩
  | react status events =>
      rw [Supervisor.next, Option.ite_none_right_eq_some] at stepped
      obtain ⟨⟨reacting, _⟩, ⟨⟩⟩ := stepped
      have core := sound.core (by rw [reacting]; rfl)
      refine Core.sound core ?_
      simp only [react]
      cases events.control <;> rfl
  | fail =>
      rw [Supervisor.next, Option.ite_none_right_eq_some] at stepped
      obtain ⟨phase, ⟨⟩⟩ := stepped
      have core := sound.core (by rcases phase with phase | phase <;> rw [phase] <;> rfl)
      exact ⟨core.control, core.going, .inr core.armed, trivial, core.decreased, core.increased, core.counts,
        core.replies, core.records⟩
  | proceed surroundings =>
      rw [Supervisor.next, Option.ite_none_right_eq_some] at stepped
      exact sound.proceed stepped.2

omit [DecidableEq ν] in
theorem Start.sound (start : Start low high state) : Sound closed low high state := by
  obtain ⟨proxy, logWriter, redirector, begun, same⟩ := start
  have fresh : Fresh ({} : AlarmThread.State alarmCodec) := ⟨rfl, rfl, rfl⟩
  have sent : redirector.commands.sent = [] := by
    obtain ⟨reactor, _, rfl⟩ := begun
    rfl
  have going : redirector.stopping = .no := by
    obtain ⟨reactor, _, rfl⟩ := begun
    rfl
  have replies : redirector.replies = 0 := by
    obtain ⟨reactor, _, rfl⟩ := begun
    rfl
  rcases same with rfl | rfl
  · exact ⟨.start begun, going, ⟨fresh, rfl⟩, ⟨rfl, rfl⟩, by simp [Requests.Counted, sent, total],
      by simp [Requests.Counted, sent, total], rfl, replies, rfl, rfl⟩
  · exact ⟨.start begun, going, .inl ⟨fresh, rfl⟩, trivial, by simp [Requests.Counted, sent, total],
      by simp [Requests.Counted, sent, total], rfl, replies, rfl, rfl⟩

theorem reachable_sound (reached : Reachable (Start low high) (Step closed) state) : Sound closed low high state :=
  reached.invariant (Sound closed low high) (fun _ start => start.sound) fun _ _ _ sound stepped => by
    obtain ⟨envs, event, stepped⟩ := stepped
    exact sound.next stepped

end ExaProxy.Supervisor
