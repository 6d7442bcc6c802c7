import ExaProxy.Supervisor.Runs

namespace ExaProxy.Supervisor

open Data Redirector Util

variable {δ μ ν : Type} {commandCodec : Codec UInt8 ControlBox.Command}
  {responseCodec : Codec UInt8 ControlBox.Response} {alarmCodec : Codec UInt8 Str}
  {closed : δ} {envs : Env δ μ × Env δ μ × Env δ μ} {low high : Nat}
  {state after : State δ μ ν commandCodec responseCodec alarmCodec}

/-- The redirector process owes the answers to some requests for statistics. -/
def Owes (redirector : ControlBox.State δ μ commandCodec responseCodec) (count : Nat) : Prop :=
  ControlBox.asked redirector.commands.sent = redirector.replies + count

/-- The reactor returns for each response before the next alarm, and without errors. -/
def Expected (state : State δ μ ν commandCodec responseCodec alarmCodec) : Event → Prop
  | .react status events =>
      status = true ∧ (Owes state.redirector 0 → events = { interrupt := true }) ∧
        (Owes state.redirector 1 → events = { control := true })
  | .fail => False
  | _ => True

/-- The loop is gone through in turns: for an alarm, and for the response to what is then asked. -/
def Turns (state : State δ μ ν commandCodec responseCodec alarmCodec) : Prop :=
  match state.phase with
  | .starting => state.iterations = 0 ∧ Owes state.redirector 0
  | .primed => state.iterations = 0 ∧ Owes state.redirector 1
  | .started => state.iterations = 0 ∧ Owes state.redirector 0
  | .looping => Owes state.redirector ((state.iterations + 1) % 2)
  | .reacting => Owes state.redirector (state.iterations % 2)
  | .responding => state.iterations % 2 = 1 ∧ Owes state.redirector 1 ∧ state.events.interrupt = false
  | .acknowledging | .deciding => state.iterations % 2 = 0 ∧ Owes state.redirector 0
  | .stopping | .joining | .returned | .raised => True
  | _ => state.iterations % 2 = 0 ∧ Owes state.redirector 1

structure Alternates (state : State δ μ ν commandCodec responseCodec alarmCodec) : Prop where
  turns : Turns state
  zero : state.zero.length ≤ 1
  odd : ∀ reading ∈ state.readings, reading.1 % 2 = 1

theorem asked_append (commands : List ControlBox.Command) (identifier : Nat) (command : Control) :
    ControlBox.asked (commands ++ [(identifier, command)]) =
      ControlBox.asked commands + if command = .STATS then 1 else 0 := by
  rw [ControlBox.asked, List.countP_append, List.countP_singleton]
  simp [ControlBox.asked]

theorem send_owes {command : Control} {phase : Phase} {count : Nat} (owes : Owes state.redirector count)
    (sent : send closed envs state command phase = some after) :
    ∃ redirector, after = { state with redirector, phase } ∧
      Owes redirector (count + if command = .STATS then 1 else 0) := by
  obtain ⟨redirector, moved, rfl⟩ := Option.map_eq_some_iff.mp sent
  obtain ⟨_, replies, _, ⟨commands, _⟩ | ⟨stop, commands, _⟩⟩ := ControlBox.next_send moved
  · refine ⟨redirector, rfl, ?_⟩
    rw [Owes, commands, asked_append, replies, owes, Nat.add_assoc]
  · refine ⟨redirector, rfl, ?_⟩
    rw [Owes, commands, replies, stop]
    exact owes

theorem readResponse_owes {redirector read : ControlBox.State δ μ commandCodec responseCodec} {stats : Stats}
    {count : Nat} (owes : Owes redirector (count + 1))
    (response : readResponse closed envs redirector = some (stats, read)) : Owes read count := by
  obtain ⟨after, moved, response⟩ := Option.bind_eq_some_iff.mp response
  obtain ⟨found, _, same⟩ := Option.bind_eq_some_iff.mp response
  cases same
  obtain ⟨commands, _, replies, _⟩ := ControlBox.next_readResponse moved
  rw [Owes] at owes ⊢
  rw [commands, replies, owes]
  omega

variable [DecidableEq ν]

theorem Alternates.proceed (alternates : Alternates state) {surroundings : Surroundings}
    (moved : proceed closed envs state surroundings = some after) : Alternates after := by
  obtain ⟨turns, zero, odd⟩ := alternates
  cases phase : state.phase with
  | starting =>
      rw [Turns, phase] at turns
      rw [Supervisor.proceed, phase] at moved
      obtain ⟨redirector, rfl, owes⟩ := send_owes turns.2 moved
      exact ⟨⟨turns.1, owes⟩, zero, odd⟩
  | primed =>
      rw [Turns, phase] at turns
      rw [Supervisor.proceed, phase] at moved
      obtain ⟨⟨stats, redirector⟩, response, rfl⟩ := Option.map_eq_some_iff.mp moved
      exact ⟨⟨turns.1, readResponse_owes turns.2 response⟩, Nat.le_refl 1, odd⟩
  | started =>
      rw [Turns, phase] at turns
      rw [Supervisor.proceed, phase] at moved
      obtain ⟨redirector, rfl, owes⟩ := send_owes turns.2 moved
      refine ⟨?_, zero, odd⟩
      rw [Turns]
      simpa [turns.1] using owes
  | looping =>
      rw [Turns, phase] at turns
      rw [Supervisor.proceed, phase] at moved
      cases moved
      exact ⟨turns, zero, odd⟩
  | reacting =>
      rw [Supervisor.proceed, phase] at moved
      cases moved
  | responding =>
      rw [Turns, phase] at turns
      rw [Supervisor.proceed, phase] at moved
      obtain ⟨⟨stats, redirector⟩, response, rfl⟩ := Option.map_eq_some_iff.mp moved
      obtain ⟨parity, owes, quiet⟩ := turns
      refine ⟨?_, zero, ?_⟩
      · have later := readResponse_owes owes response
        simp only [Turns, quiet, Bool.false_eq_true, if_false]
        rwa [show (state.iterations + 1) % 2 = 0 by omega]
      · simpa [or_imp, forall_and, parity] using odd
  | acknowledging =>
      rw [Turns, phase] at turns
      rw [Supervisor.proceed, phase] at moved
      obtain ⟨_, _, rfl⟩ := Option.map_eq_some_iff.mp moved
      exact ⟨turns, zero, odd⟩
  | deciding =>
      rw [Turns, phase] at turns
      simp only [Supervisor.proceed, phase, decide] at moved
      split at moved
      · obtain ⟨_, _, rfl⟩ := Option.map_eq_some_iff.mp moved
        exact ⟨trivial, zero, odd⟩
      · obtain ⟨redirector, rfl, owes⟩ := send_owes turns.2 moved
        exact ⟨⟨turns.1, owes⟩, zero, odd⟩
  | listening =>
      rw [Turns, phase] at turns
      rw [Supervisor.proceed, phase] at moved
      cases moved
      refine ⟨?_, zero, odd⟩
      cases state.softstop <;> exact turns
  | softening =>
      rw [Turns, phase] at turns
      simp only [Supervisor.proceed, phase, soften] at moved
      split at moved
      · cases moved
        exact ⟨turns, zero, odd⟩
      · cases moved
        exact ⟨turns, zero, odd⟩
  | changing =>
      rw [Turns, phase] at turns
      simp only [Supervisor.proceed, phase, change] at moved
      split at moved
      · cases moved
        exact ⟨turns, zero, odd⟩
      · cases moved
        exact ⟨turns, zero, odd⟩
      · cases moved
        exact ⟨turns, zero, odd⟩
  | clearing soft =>
      rw [Turns, phase] at turns
      rw [Supervisor.proceed, phase] at moved
      cases moved
      refine ⟨?_, zero, odd⟩
      cases soft <;> exact turns
  | toggling =>
      rw [Turns, phase] at turns
      simp only [Supervisor.proceed, phase, toggle] at moved
      split at moved
      · cases moved
        exact ⟨turns, zero, odd⟩
      · cases moved
        exact ⟨turns, zero, odd⟩
  | decreasing =>
      rw [Turns, phase] at turns
      simp only [Supervisor.proceed, phase] at moved
      split at moved
      · cases moved
        exact ⟨turns, zero, odd⟩
      · obtain ⟨redirector, rfl, owes⟩ := send_owes turns.2 moved
        exact ⟨⟨turns.1, owes⟩, zero, odd⟩
  | increasing =>
      rw [Turns, phase] at turns
      simp only [Supervisor.proceed, phase] at moved
      split at moved
      · cases moved
        exact ⟨turns, zero, odd⟩
      · obtain ⟨redirector, rfl, owes⟩ := send_owes turns.2 moved
        exact ⟨⟨turns.1, owes⟩, zero, odd⟩
  | tidying =>
      rw [Turns, phase] at turns
      rw [Supervisor.proceed, phase] at moved
      cases moved
      refine ⟨?_, zero, odd⟩
      simp only [Turns, tidy]
      rw [show (state.iterations + 1) % 2 = 1 by omega]
      exact turns.2
  | stopping =>
      rw [Supervisor.proceed, phase] at moved
      obtain ⟨redirector, _, same⟩ := Option.map_eq_some_iff.mp moved
      split at same
      · subst same
        exact ⟨trivial, zero, odd⟩
      · subst same
        exact ⟨trivial, zero, odd⟩
  | joining =>
      simp only [Supervisor.proceed, phase] at moved
      rw [Option.ite_none_right_eq_some] at moved
      obtain ⟨_, ⟨⟩⟩ := moved
      exact ⟨trivial, zero, odd⟩
  | returned =>
      rw [Supervisor.proceed, phase] at moved
      cases moved
  | raised =>
      rw [Supervisor.proceed, phase] at moved
      cases moved
  | _ =>
      rw [Turns, phase] at turns
      rw [Supervisor.proceed, phase] at moved
      cases moved
      exact ⟨turns, zero, odd⟩

omit [DecidableEq ν] in
theorem Alternates.kept (alternates : Alternates state)
    (same : after.phase = state.phase ∧ after.iterations = state.iterations ∧ after.events = state.events)
    (owed : ∀ count, Owes state.redirector count → Owes after.redirector count)
    (read : after.zero = state.zero ∧ after.readings = state.readings) : Alternates after := by
  obtain ⟨turns, zero, odd⟩ := alternates
  refine ⟨?_, by rwa [read.1], by rwa [read.2]⟩
  rw [Turns, same.1, same.2.1, same.2.2]
  unfold Turns at turns
  split <;> simp_all

theorem Alternates.next (alternates : Alternates state) {event : Event} (expected : Expected state event)
    (stepped : next closed envs state event = some after) : Alternates after := by
  cases event with
  | signal signal =>
      cases stepped
      cases signal with
      | QUIT =>
          rw [handle]
          split
          · exact alternates.kept ⟨rfl, rfl, rfl⟩ (fun _ owed => owed) ⟨rfl, rfl⟩
          · exact alternates.kept ⟨rfl, rfl, rfl⟩ (fun _ owed => owed) ⟨rfl, rfl⟩
      | _ => exact alternates.kept ⟨rfl, rfl, rfl⟩ (fun _ owed => owed) ⟨rfl, rfl⟩
  | ring event =>
      obtain ⟨scheduler, _, rfl⟩ := Option.map_eq_some_iff.mp stepped
      exact alternates.kept ⟨rfl, rfl, rfl⟩ (fun _ owed => owed) ⟨rfl, rfl⟩
  | redirector event =>
      rw [Supervisor.next, Option.ite_none_right_eq_some] at stepped
      obtain ⟨foreign, stepped⟩ := stepped
      obtain ⟨redirector, moved, rfl⟩ := Option.map_eq_some_iff.mp stepped
      obtain ⟨sent, _, replies⟩ := ControlBox.next_foreign foreign moved
      refine alternates.kept ⟨rfl, rfl, rfl⟩ (fun count owed => ?_) ⟨rfl, rfl⟩
      rwa [Owes, sent, replies]
  | accept accepted =>
      rw [Supervisor.next, Option.ite_none_right_eq_some] at stepped
      obtain ⟨_, ⟨⟩⟩ := stepped
      exact alternates.kept ⟨rfl, rfl, rfl⟩ (fun _ owed => owed) ⟨rfl, rfl⟩
  | notifyClose count =>
      rw [Supervisor.next, Option.ite_none_right_eq_some] at stepped
      obtain ⟨_, ⟨⟩⟩ := stepped
      exact alternates.kept ⟨rfl, rfl, rfl⟩ (fun _ owed => owed) ⟨rfl, rfl⟩
  | react status events =>
      rw [Supervisor.next, Option.ite_none_right_eq_some] at stepped
      obtain ⟨⟨reacting, _⟩, ⟨⟩⟩ := stepped
      obtain ⟨turns, zero, odd⟩ := alternates
      rw [Turns, reacting] at turns
      dsimp only at turns
      rcases Nat.mod_two_eq_zero_or_one state.iterations with parity | parity
      · rw [parity] at turns
        rw [expected.2.1 turns]
        exact ⟨⟨parity, turns⟩, zero, odd⟩
      · rw [parity] at turns
        rw [expected.2.2 turns]
        exact ⟨⟨parity, turns, rfl⟩, zero, odd⟩
  | fail => cases expected
  | proceed surroundings =>
      rw [Supervisor.next, Option.ite_none_right_eq_some] at stepped
      exact alternates.proceed stepped.2

/-- A step of the program while the redirector process answers promptly. -/
def Prompt (closed : δ) (before after : State δ μ ν commandCodec responseCodec alarmCodec) : Prop :=
  ∃ envs event, Expected before event ∧ next closed envs before event = some after

/-- The program starts, and does not stop at once. -/
def Begins (low high : Nat) (state : State δ μ ν commandCodec responseCodec alarmCodec) : Prop :=
  Start low high state ∧ state.shutdown = false

theorem Prompt.reached (reached : Reachable (Begins low high) (Prompt closed) state) :
    Reachable (Start low high) (Step closed) state := by
  refine reached.invariant (Reachable (Start low high) (Step closed)) (fun _ begun => .start begun.1) ?_
  intro before after _ reached stepped
  obtain ⟨envs, event, _, stepped⟩ := stepped
  exact reached.next ⟨envs, event, stepped⟩

theorem prompt_alternates (reached : Reachable (Begins low high) (Prompt closed) state) : Alternates state := by
  refine reached.invariant Alternates ?_ ?_
  · intro start begun
    obtain ⟨⟨proxy, logWriter, redirector, ⟨reactor, _, rfl⟩, rfl | rfl⟩, running⟩ := begun
    · exact ⟨⟨rfl, rfl⟩, Nat.zero_le 1, by simp⟩
    · cases running
  · intro before after _ alternates stepped
    obtain ⟨envs, event, expected, stepped⟩ := stepped
    exact alternates.next expected stepped

theorem recorded_odd {frequency : Nat} (even : 2 ∣ frequency) {readings : List Reading}
    (odd : ∀ reading ∈ readings, reading.1 % 2 = 1) : recorded frequency readings = [] := by
  rw [recorded, List.map_eq_nil_iff, List.filter_eq_nil_iff]
  intro reading member due
  have divides := even.trans (Nat.dvd_of_mod_eq_zero (of_decide_eq_true due))
  have parity := odd reading member
  omega

/-- As long as the redirector process runs and answers each request for statistics before the next
alarm, and no iteration of the loop is left with an error, its answers are read in every other one,
which are not those that are multiples of ten: the monitor records nothing after the first
statistics, however long the program runs. -/
theorem prompt_unrecorded (reached : Reachable (Begins low high) (Prompt closed) state) :
    (∀ reading ∈ state.readings, reading.1 % 2 = 1) ∧
      state.monitor.seconds = state.zero ∧ state.monitor.minutes = state.zero := by
  obtain ⟨_, zero, odd⟩ := prompt_alternates reached
  obtain ⟨_, _, _, _, _, _, _, _, seconds, minutes⟩ := reachable_sound (Prompt.reached reached)
  have short : state.zero.rtake Monitor.nbRecorded = state.zero := by
    rw [List.rtake, Nat.sub_eq_zero_of_le (by rw [Monitor.nbRecorded]; omega), List.drop_zero]
  rw [recorded_odd (by decide) odd, List.append_nil, short] at seconds minutes
  exact ⟨odd, seconds, minutes⟩

instance (redirector : ControlBox.State δ μ commandCodec responseCodec) (count : Nat) :
    Decidable (Owes redirector count) :=
  inferInstanceAs (Decidable (_ = _))

instance (state : State δ μ ν commandCodec responseCodec alarmCodec) :
    (event : Event) → Decidable (Expected state event)
  | .react _ _ => inferInstanceAs (Decidable (_ ∧ _ ∧ _))
  | .fail => inferInstanceAs (Decidable False)
  | .signal _ | .ring _ | .redirector _ | .accept _ | .notifyClose _ | .proceed _ => inferInstanceAs (Decidable True)

/-- The steps that `Prompt` allows. -/
def promptly (state : Sample) (event : Event) : Option Sample :=
  if Expected state event then follow state event else none

/-- The redirector process answers, and the loop is gone through for its response. -/
def answers : List Event :=
  [.redirector .control, .redirector (.writeResponse 90), onwards, .react true { control := true }, onwards]

/-- Two turns of the loop for responses, and one for an alarm between them. -/
def turns : List Event :=
  starts ++ answers ++ passes ++ [onwards, .redirector (.writeCommand 90)] ++ List.replicate 6 onwards ++ answers

theorem prompt_unrecorded_turns : ∃ state : Sample, state.readings.length = 2 ∧
    state.monitor.seconds = state.zero := by
  have run : ∃ state ∈ turns.foldlM promptly (opened .starting false), state.readings.length = 2 := by
    decide +kernel
  obtain ⟨state, followed, two⟩ := run
  have begun : Reachable (Begins 1 2) (Prompt ()) (opened .starting false) :=
    .start ⟨⟨_, _, _, ⟨_, ⟨by decide, RedirectorReactor.deferring, rfl⟩, rfl⟩, .inl rfl⟩, rfl⟩
  have reached : Reachable (Begins 1 2) (Prompt ()) state := by
    refine begun.foldlM (fun before event after stepped => ?_) followed
    rw [promptly, Option.ite_none_right_eq_some] at stepped
    exact ⟨_, event, stepped⟩
  exact ⟨state, two, (prompt_unrecorded reached).2.1⟩

end ExaProxy.Supervisor
