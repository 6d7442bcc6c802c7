import ExaProxy.Supervisor.Runs

namespace ExaProxy.Supervisor

open Data Redirector Util

variable {δ μ ν : Type} {commandCodec : Codec UInt8 ControlBox.Command}
  {responseCodec : Codec UInt8 ControlBox.Response} {alarmCodec : Codec UInt8 Str}
  {closed : δ} {envs : Env δ μ × Env δ μ × Env δ μ} {low high : Nat}
  {state after : State δ μ ν commandCodec responseCodec alarmCodec}

/-- The phases in which listening is changed. -/
def Phase.listens : Phase → Bool
  | .listening | .softening | .changing | .accepted _ | .clearing _ | .emptying => true
  | _ => false

/-- What decides whether the program listens, apart from all else. -/
structure Gate where
  phase : Phase
  softstop : Bool
  listen : Option Bool
  serving : Bool

def State.gate (state : State δ μ ν commandCodec responseCodec alarmCodec) : Gate :=
  ⟨state.phase, state.softstop, state.listen, state.proxy.serving⟩

/-- A step without a signal to listen or not to. -/
inductive Gate.Step : Gate → Gate → Prop where
  | same (gate : Gate) : Step gate gate
  | elsewhere (gate : Gate) (phase : Phase) (calm : gate.phase.listens = false)
      (next : phase.listens = true → phase = .listening) : Step gate { gate with phase }
  | listening (gate : Gate) (phase : gate.phase = .listening) :
      Step gate { gate with phase := if gate.softstop then .softening else .changing }
  | softReject (gate : Gate) (serving : Bool) (phase : gate.phase = .softening) (listen : gate.listen = some false)
      (closed : serving = false) : Step gate { gate with serving, phase := .clearing true }
  | softKeep (gate : Gate) (phase : gate.phase = .softening) (listen : gate.listen ≠ some false) :
      Step gate { gate with phase := .emptying }
  | keep (gate : Gate) (phase : gate.phase = .changing) (listen : gate.listen = none) :
      Step gate { gate with phase := .toggling }
  | accept (gate : Gate) (serving ok : Bool) (phase : gate.phase = .changing) (listen : gate.listen = some true)
      (kept : gate.serving = true → serving = true) : Step gate { gate with serving, phase := .accepted ok }
  | reject (gate : Gate) (serving : Bool) (phase : gate.phase = .changing) (listen : gate.listen = some false)
      (closed : serving = false) : Step gate { gate with serving, phase := .clearing false }
  | accepted (gate : Gate) (ok : Bool) (phase : gate.phase = .accepted ok) :
      Step gate { gate with phase := .clearing false }
  | clearing (gate : Gate) (soft : Bool) (phase : gate.phase = .clearing soft) :
      Step gate { gate with listen := none, phase := if soft then .emptying else .toggling }
  | emptying (gate : Gate) (phase : gate.phase = .emptying) : Step gate { gate with phase := .toggling }
  | quit (gate : Gate) (first : gate.softstop = false) : Step gate { gate with softstop := true, listen := some false }

theorem send_gate {command : Control} {phase : Phase} (sent : send closed envs state command phase = some after) :
    after.gate = { state.gate with phase } := by
  obtain ⟨redirector, _, rfl⟩ := Option.map_eq_some_iff.mp sent
  rfl

variable [DecidableEq ν]

theorem saturate_serving (server : Network.Server ν) : server.saturate.serving = server.serving := by
  rw [Network.Server.saturate]
  split <;> rfl

theorem accept_serving (server : Network.Server ν) (accepted : Bool) :
    (server.accept accepted).serving = server.serving := by
  rw [Network.Server.accept]
  split <;> rw [saturate_serving]

theorem rejecting_serving (server : Network.Server ν) : server.rejecting.serving = false := by
  rw [Network.Server.rejecting]
  split
  · rfl
  · next idle => simpa using idle

theorem accepting_serving {server : Network.Server ν} (attempts : List (Network.Binding × Network.Listened))
    (serving : server.serving = true) : (server.accepting attempts).1.serving = true := by
  rw [Network.Server.accepting, if_pos serving]
  exact serving

theorem tidy_gate (expired : Nat) : (tidy state expired).gate = { state.gate with phase := .looping } := by
  rw [tidy, State.gate]
  split <;> split <;> rfl

/-- A phase that does not change listening leads to another one, or to those that do. -/
theorem proceed_calm {surroundings : Surroundings} (calm : state.phase.listens = false)
    (moved : proceed closed envs state surroundings = some after) :
    ∃ phase, after.gate = { state.gate with phase } ∧ (phase.listens = true → phase = .listening) := by
  cases phase : state.phase with
  | starting =>
      rw [proceed, phase] at moved
      exact ⟨_, send_gate moved, by simp [Phase.listens]⟩
  | primed =>
      rw [proceed, phase] at moved
      obtain ⟨⟨_, _⟩, _, rfl⟩ := Option.map_eq_some_iff.mp moved
      exact ⟨.started, rfl, by simp [Phase.listens]⟩
  | started =>
      rw [proceed, phase] at moved
      exact ⟨_, send_gate moved, by simp [Phase.listens]⟩
  | looping =>
      rw [proceed, phase] at moved
      cases moved
      exact ⟨.reacting, rfl, by simp [Phase.listens]⟩
  | reacting =>
      rw [proceed, phase] at moved
      cases moved
  | responding =>
      rw [proceed, phase] at moved
      obtain ⟨⟨_, _⟩, _, rfl⟩ := Option.map_eq_some_iff.mp moved
      refine ⟨_, rfl, ?_⟩
      dsimp only
      cases state.events.interrupt <;> simp [Phase.listens]
  | acknowledging =>
      rw [proceed, phase] at moved
      obtain ⟨_, _, rfl⟩ := Option.map_eq_some_iff.mp moved
      exact ⟨.deciding, rfl, by simp [Phase.listens]⟩
  | deciding =>
      simp only [proceed, phase, decide] at moved
      split at moved
      · exact ⟨.stopping, (send_gate moved).trans rfl, by simp [Phase.listens]⟩
      · exact ⟨_, send_gate moved, fun _ => rfl⟩
  | toggling =>
      simp only [proceed, phase, toggle] at moved
      split at moved
      · cases moved
        exact ⟨.decreasing, rfl, by simp [Phase.listens]⟩
      · cases moved
        exact ⟨.decreasing, rfl, by simp [Phase.listens]⟩
  | decreasing =>
      simp only [proceed, phase] at moved
      split at moved
      · cases moved
        exact ⟨.increasing, rfl, by simp [Phase.listens]⟩
      · exact ⟨_, send_gate moved, by simp [Phase.listens]⟩
  | decreased =>
      rw [proceed, phase] at moved
      cases moved
      exact ⟨.increasing, rfl, by simp [Phase.listens]⟩
  | increasing =>
      simp only [proceed, phase] at moved
      split at moved
      · cases moved
        exact ⟨.tidying, rfl, by simp [Phase.listens]⟩
      · exact ⟨_, send_gate moved, by simp [Phase.listens]⟩
  | increased =>
      rw [proceed, phase] at moved
      cases moved
      exact ⟨.tidying, rfl, by simp [Phase.listens]⟩
  | tidying =>
      rw [proceed, phase] at moved
      cases moved
      exact ⟨_, tidy_gate _, by simp [Phase.listens]⟩
  | stopping =>
      rw [proceed, phase] at moved
      obtain ⟨redirector, _, same⟩ := Option.map_eq_some_iff.mp moved
      split at same
      · subst same
        exact ⟨.raised, rfl, by simp [Phase.listens]⟩
      · subst same
        exact ⟨.joining, rfl, by simp [Phase.listens]⟩
  | joining =>
      simp only [proceed, phase] at moved
      rw [Option.ite_none_right_eq_some] at moved
      obtain ⟨_, ⟨⟩⟩ := moved
      exact ⟨.returned, rfl, by simp [Phase.listens]⟩
  | returned =>
      rw [proceed, phase] at moved
      cases moved
  | raised =>
      rw [proceed, phase] at moved
      cases moved
  | _ =>
      rw [phase] at calm
      cases calm

/-- The phases that change listening do what the gate does. -/
theorem proceed_gate {surroundings : Surroundings} (moved : proceed closed envs state surroundings = some after) :
    Gate.Step state.gate after.gate := by
  cases calm : state.phase.listens with
  | false =>
      obtain ⟨phase, same, next⟩ := proceed_calm calm moved
      rw [same]
      exact .elsewhere _ phase calm next
  | true =>
      cases phase : state.phase with
      | listening =>
          rw [proceed, phase] at moved
          cases moved
          exact .listening state.gate phase
      | softening =>
          simp only [proceed, phase, soften] at moved
          split at moved
          · next listen =>
              cases moved
              exact .softReject state.gate _ phase listen (rejecting_serving _)
          · next listen =>
              cases moved
              exact .softKeep state.gate phase listen
      | changing =>
          simp only [proceed, phase, change] at moved
          split at moved
          · next listen =>
              cases moved
              exact .keep state.gate phase listen
          · next listen =>
              cases moved
              exact .accept state.gate _ _ phase listen (accepting_serving _)
          · next listen =>
              cases moved
              exact .reject state.gate _ phase listen (rejecting_serving _)
      | accepted ok =>
          rw [proceed, phase] at moved
          cases moved
          exact .accepted state.gate ok phase
      | clearing soft =>
          rw [proceed, phase] at moved
          cases moved
          exact .clearing state.gate soft phase
      | emptying =>
          rw [proceed, phase] at moved
          cases moved
          exact .emptying state.gate phase
      | _ =>
          rw [phase] at calm
          cases calm

/-- Every step is one of the gate, unless it is a signal to listen or not to. -/
theorem next_gate {event : Event} (stepped : next closed envs state event = some after)
    (quiet : event ≠ .signal .TTIN ∧ event ≠ .signal .TTOU) : Gate.Step state.gate after.gate := by
  cases event with
  | signal signal =>
      cases stepped
      cases signal with
      | QUIT =>
          rw [handle]
          split
          · exact .same state.gate
          · next first => exact .quit state.gate (Bool.eq_false_iff.mpr first)
      | TTIN => exact absurd rfl quiet.1
      | TTOU => exact absurd rfl quiet.2
      | _ => exact .same state.gate
  | ring event =>
      obtain ⟨scheduler, _, rfl⟩ := Option.map_eq_some_iff.mp stepped
      exact .same state.gate
  | redirector event =>
      rw [next, Option.ite_none_right_eq_some] at stepped
      obtain ⟨redirector, _, rfl⟩ := Option.map_eq_some_iff.mp stepped.2
      exact .same state.gate
  | accept accepted =>
      rw [next, Option.ite_none_right_eq_some] at stepped
      obtain ⟨_, ⟨⟩⟩ := stepped
      have kept := Gate.Step.same state.gate
      simp only [State.gate, accept_serving] at kept ⊢
      exact kept
  | notifyClose count =>
      rw [next, Option.ite_none_right_eq_some] at stepped
      obtain ⟨_, ⟨⟩⟩ := stepped
      exact .same state.gate
  | react status events =>
      rw [next, Option.ite_none_right_eq_some] at stepped
      obtain ⟨⟨reacting, _⟩, ⟨⟩⟩ := stepped
      refine .elsewhere state.gate _ (by rw [State.gate, reacting]; rfl) ?_
      rw [react]
      cases events.control <;> simp [Phase.listens]
  | fail =>
      rw [next, Option.ite_none_right_eq_some] at stepped
      obtain ⟨phase, ⟨⟩⟩ := stepped
      refine .elsewhere state.gate .looping ?_ (by simp [Phase.listens])
      rcases phase with phase | phase <;> rw [State.gate, phase] <;> rfl
  | proceed surroundings =>
      rw [next, Option.ite_none_right_eq_some] at stepped
      exact proceed_gate stepped.2

namespace Gate

variable {before gate : Gate}

/-- A soft stop was asked for where the sockets of the proxy are going to be closed, or were. -/
def Rejects (gate : Gate) : Prop :=
  gate.softstop = true ∧ gate.listen ≠ some true ∧
    match gate.phase with
    | .accepted _ => False
    | .clearing _ | .emptying => gate.serving = false
    | _ => gate.listen = some false ∨ gate.serving = false

/-- A soft stop was asked for where this is forgotten: the proxy keeps listening. -/
def Forgets (gate : Gate) : Prop :=
  gate.softstop = true ∧ gate.serving = true ∧
    match gate.phase with
    | .accepted _ | .clearing _ => True
    | _ => gate.listen = none

theorem Rejects.elsewhere (rejects : gate.Rejects) {phase : Phase} (calm : gate.phase.listens = false)
    (next : phase.listens = true → phase = .listening) : Rejects { gate with phase } := by
  obtain ⟨softstop, listen, known⟩ := rejects
  have either : gate.listen = some false ∨ gate.serving = false := by
    split at known
    · cases known
    · next same => rw [same] at calm; cases calm
    · next same => rw [same] at calm; cases calm
    · exact known
  refine ⟨softstop, listen, ?_⟩
  dsimp only
  split
  · cases next rfl
  · cases next rfl
  · cases next rfl
  · exact either

theorem Rejects.step (rejects : before.Rejects) (stepped : Step before gate) : gate.Rejects := by
  obtain ⟨softstop, listen, known⟩ := rejects
  cases stepped with
  | same => exact ⟨softstop, listen, known⟩
  | elsewhere phase calm next => exact Rejects.elsewhere ⟨softstop, listen, known⟩ calm next
  | listening phase =>
      rw [phase] at known
      refine ⟨softstop, listen, ?_⟩
      simp only [softstop, if_true]
      exact known
  | softReject serving phase asked closed => exact ⟨softstop, listen, closed⟩
  | softKeep phase asked =>
      rw [phase] at known
      exact ⟨softstop, listen, known.resolve_left asked⟩
  | keep phase asked =>
      rw [phase, asked] at known
      exact ⟨softstop, listen, .inr (known.resolve_left (by simp))⟩
  | accept serving ok phase asked kept => exact absurd asked listen
  | reject serving phase asked closed => exact ⟨softstop, listen, closed⟩
  | accepted ok phase =>
      rw [phase] at known
      cases known
  | clearing soft phase =>
      rw [phase] at known
      refine ⟨softstop, by simp, ?_⟩
      cases soft
      · exact .inr known
      · exact known
  | emptying phase =>
      rw [phase] at known
      exact ⟨softstop, listen, .inr known⟩
  | quit first =>
      rw [first] at softstop
      cases softstop

theorem Forgets.step (forgets : before.Forgets) (stepped : Step before gate) : gate.Forgets := by
  obtain ⟨softstop, serving, known⟩ := forgets
  cases stepped with
  | same => exact ⟨softstop, serving, known⟩
  | elsewhere phase calm next =>
      have idle : before.listen = none := by
        split at known
        · next same => rw [same] at calm; cases calm
        · next same => rw [same] at calm; cases calm
        · exact known
      refine ⟨softstop, serving, ?_⟩
      dsimp only
      split
      · trivial
      · trivial
      · exact idle
  | listening phase =>
      rw [phase] at known
      refine ⟨softstop, serving, ?_⟩
      simp only [softstop, if_true]
      exact known
  | softReject closed phase asked _ =>
      rw [phase, asked] at known
      cases known
  | softKeep phase asked =>
      rw [phase] at known
      exact ⟨softstop, serving, known⟩
  | keep phase asked => exact ⟨softstop, serving, asked⟩
  | accept _ ok phase asked kept =>
      rw [phase, asked] at known
      cases known
  | reject _ phase asked _ =>
      rw [phase, asked] at known
      cases known
  | accepted ok phase => exact ⟨softstop, serving, trivial⟩
  | clearing soft phase =>
      refine ⟨softstop, serving, ?_⟩
      cases soft <;> rfl
  | emptying phase =>
      rw [phase] at known
      exact ⟨softstop, serving, known⟩
  | quit first =>
      rw [first] at softstop
      cases softstop

/-- The phases of a soft stop are those of a program that was told to. -/
def Softly (gate : Gate) : Prop :=
  match gate.phase with
  | .softening | .clearing true | .emptying => gate.softstop = true
  | _ => True

theorem Softly.step (softly : before.Softly) (stepped : Step before gate) : gate.Softly := by
  cases stepped with
  | same => exact softly
  | elsewhere phase calm next =>
      unfold Softly
      dsimp only
      split
      · cases next rfl
      · cases next rfl
      · cases next rfl
      · trivial
  | listening phase =>
      cases soft : before.softstop
      · trivial
      · exact rfl
  | softReject serving phase asked closed =>
      rw [Softly, phase] at softly
      exact softly
  | softKeep phase asked =>
      rw [Softly, phase] at softly
      exact softly
  | clearing soft phase =>
      rw [Softly, phase] at softly
      cases soft
      · trivial
      · exact softly
  | quit first =>
      unfold Softly
      dsimp only
      split <;> trivial
  | _ => trivial

end Gate

/-- A step without a signal to listen or not to. -/
def Quiet (closed : δ) (before after : State δ μ ν commandCodec responseCodec alarmCodec) : Prop :=
  ∃ envs event, next closed envs before event = some after ∧ event ≠ .signal .TTIN ∧ event ≠ .signal .TTOU

theorem Quiet.run {inv : Gate → Prop} (step : ∀ before gate, inv before → Gate.Step before gate → inv gate)
    (run : Relation.ReflTransGen (Quiet closed) state after) (held : inv state.gate) : inv after.gate := by
  induction run with
  | refl => exact held
  | tail _ stepped ih =>
      obtain ⟨envs, event, stepped, quiet⟩ := stepped
      exact step _ _ ih (next_gate stepped quiet)

theorem reachable_softly (reached : Reachable (Start low high) (Step closed) state) : state.gate.Softly := by
  refine reached.invariant (fun state => state.gate.Softly) ?_ ?_
  · intro start begun
    obtain ⟨proxy, logWriter, redirector, _, rfl | rfl⟩ := begun
    · trivial
    · trivial
  · intro before after _ softly stepped
    obtain ⟨envs, event, stepped⟩ := stepped
    by_cases quiet : event ≠ .signal .TTIN ∧ event ≠ .signal .TTOU
    · exact softly.step (next_gate stepped quiet)
    · rw [not_and_or, not_not, not_not] at quiet
      rcases quiet with rfl | rfl
      · cases stepped
        exact softly
      · cases stepped
        exact softly

/-- A `SIGQUIT` that comes while the program listens makes it close the listening sockets of the
proxy, so that it no longer serves where it is asked whether the clients have gone; but for
one that comes between the call of `accepting` and the reset of `_listen`, which is forgotten.
One that comes between a test of `_listen` and the call behind it counts as behind the call. -/
theorem soft_stop_rejects (reached : Reachable (Start low high) (Step closed) state)
    (running : state.softstop = false) (serving : state.proxy.serving = true)
    (run : Relation.ReflTransGen (Quiet closed) (handle state .QUIT) after) (asked : after.phase = .emptying) :
    after.proxy.serving = true ↔ state.phase = .clearing false ∨ ∃ ok, state.phase = .accepted ok := by
  have softly := reachable_softly reached
  have quit : (handle state .QUIT).gate = ⟨state.phase, true, some false, true⟩ := by
    simp [handle, running, State.gate, serving]
  constructor
  · intro kept
    by_contra outside
    have rejects : (handle state .QUIT).gate.Rejects := by
      rw [quit]
      refine ⟨rfl, by simp, ?_⟩
      dsimp only
      split
      · next ok same => exact outside (.inr ⟨ok, same⟩)
      · next soft same =>
          cases soft
          · exact absurd (.inl same) outside
          · simp [Gate.Softly, State.gate, same, running] at softly
      · next same => simp [Gate.Softly, State.gate, same, running] at softly
      · exact .inl rfl
    have later := Quiet.run (fun _ _ => Gate.Rejects.step) run rejects
    simp [Gate.Rejects, State.gate, asked, kept] at later
  · intro inside
    have forgets : (handle state .QUIT).gate.Forgets := by
      rw [quit]
      refine ⟨rfl, rfl, ?_⟩
      rcases inside with phase | ⟨ok, phase⟩
      · rw [phase]; trivial
      · rw [phase]; trivial
    exact (Quiet.run (fun _ _ => Gate.Forgets.step) run forgets).2.1

/-- The steps that `Quiet` allows. -/
def quietly (state : Sample) (event : Event) : Option Sample :=
  if event = .signal .TTIN ∨ event = .signal .TTOU then none else follow state event

theorem quietly_run {state after : Sample} {events : List Event} (followed : events.foldlM quietly state = some after) :
    Relation.ReflTransGen (Quiet ()) state after := by
  have begun : Reachable (· = state) (Quiet ()) state := .start rfl
  obtain ⟨_, rfl, run⟩ := begun.foldlM (fun before event after stepped => by
    rw [quietly, Option.ite_none_left_eq_some, not_or] at stepped
    exact ⟨_, event, stepped.2, stepped.1⟩) followed
  exact run

/-- The soft stop up to the question whether the clients have gone. -/
def softly : List Event := [onwards, .redirector (.writeCommand 90), onwards, onwards, onwards]

theorem soft_stop_rejects_softly : ∃ before after : Sample, after.phase = .emptying ∧
    before.proxy.serving = true ∧ (after.proxy.serving = true ↔
      before.phase = .clearing false ∨ ∃ ok, before.phase = .accepted ok) := by
  have run : ∃ before ∈ (starts ++ passes).foldlM follow (opened .starting false), before.softstop = false ∧
      before.proxy.serving = true ∧
      ∃ after ∈ softly.foldlM quietly (handle before .QUIT), after.phase = .emptying := by
    decide +kernel
  obtain ⟨before, followed, running, serving, after, stopped, asked⟩ := run
  exact ⟨before, after, asked, serving,
    soft_stop_rejects (follow_reached started_reached followed) running serving (quietly_run stopped) asked⟩

/-- The program stops when it acknowledges its next alarm, or is stopping. -/
def Halting (state : State δ μ ν commandCodec responseCodec alarmCodec) : Prop :=
  match state.phase with
  | .stopping | .joining | .returned | .raised => True
  | .listening | .changing | .accepted _ => False
  | _ => state.shutdown = true

omit [DecidableEq ν] in
theorem Halting.grows (halting : Halting state) (phase : after.phase = state.phase)
    (held : state.shutdown = true → after.shutdown = true) : Halting after := by
  unfold Halting at halting ⊢
  rw [phase]
  split <;> simp_all

theorem Halting.proceed (halting : Halting state) {surroundings : Surroundings}
    (moved : proceed closed envs state surroundings = some after) : Halting after := by
  cases phase : state.phase with
  | starting =>
      rw [Halting, phase] at halting
      rw [Supervisor.proceed, phase] at moved
      obtain ⟨_, _, rfl⟩ := Option.map_eq_some_iff.mp moved
      exact halting
  | primed =>
      rw [Halting, phase] at halting
      rw [Supervisor.proceed, phase] at moved
      obtain ⟨⟨_, _⟩, _, rfl⟩ := Option.map_eq_some_iff.mp moved
      exact halting
  | started =>
      rw [Halting, phase] at halting
      rw [Supervisor.proceed, phase] at moved
      obtain ⟨_, _, rfl⟩ := Option.map_eq_some_iff.mp moved
      exact halting
  | responding =>
      rw [Halting, phase] at halting
      rw [Supervisor.proceed, phase] at moved
      obtain ⟨⟨_, _⟩, _, rfl⟩ := Option.map_eq_some_iff.mp moved
      dsimp only at halting ⊢
      cases state.events.interrupt <;> simp [Halting, halting]
  | acknowledging =>
      rw [Halting, phase] at halting
      rw [Supervisor.proceed, phase] at moved
      obtain ⟨_, _, rfl⟩ := Option.map_eq_some_iff.mp moved
      exact halting
  | deciding =>
      rw [Halting, phase] at halting
      dsimp only at halting
      simp only [Supervisor.proceed, phase, decide, halting, if_true] at moved
      obtain ⟨_, _, rfl⟩ := Option.map_eq_some_iff.mp moved
      trivial
  | softening =>
      rw [Halting, phase] at halting
      simp only [Supervisor.proceed, phase, soften] at moved
      split at moved
      · cases moved
        exact halting
      · cases moved
        exact halting
  | clearing soft =>
      rw [Halting, phase] at halting
      rw [Supervisor.proceed, phase] at moved
      cases moved
      cases soft <;> exact halting
  | emptying =>
      rw [Halting, phase] at halting
      rw [Supervisor.proceed, phase] at moved
      cases moved
      simp_all [Halting]
  | toggling =>
      rw [Halting, phase] at halting
      simp only [Supervisor.proceed, phase, toggle] at moved
      split at moved
      · cases moved
        exact halting
      · cases moved
        exact halting
  | decreasing =>
      rw [Halting, phase] at halting
      simp only [Supervisor.proceed, phase] at moved
      split at moved
      · cases moved
        exact halting
      · obtain ⟨_, _, rfl⟩ := Option.map_eq_some_iff.mp moved
        exact halting
  | increasing =>
      rw [Halting, phase] at halting
      simp only [Supervisor.proceed, phase] at moved
      split at moved
      · cases moved
        exact halting
      · obtain ⟨_, _, rfl⟩ := Option.map_eq_some_iff.mp moved
        exact halting
  | stopping =>
      rw [Supervisor.proceed, phase] at moved
      obtain ⟨redirector, _, same⟩ := Option.map_eq_some_iff.mp moved
      split at same
      · subst same
        trivial
      · subst same
        trivial
  | joining =>
      simp only [Supervisor.proceed, phase] at moved
      rw [Option.ite_none_right_eq_some] at moved
      obtain ⟨_, ⟨⟩⟩ := moved
      trivial
  | looping =>
      rw [Halting, phase] at halting
      rw [Supervisor.proceed, phase] at moved
      cases moved
      exact halting
  | decreased =>
      rw [Halting, phase] at halting
      rw [Supervisor.proceed, phase] at moved
      cases moved
      exact halting
  | increased =>
      rw [Halting, phase] at halting
      rw [Supervisor.proceed, phase] at moved
      cases moved
      exact halting
  | tidying =>
      rw [Halting, phase] at halting
      rw [Supervisor.proceed, phase] at moved
      cases moved
      exact halting
  | _ => simp_all [Halting, Supervisor.proceed]

theorem Halting.next (halting : Halting state) {event : Event} (stepped : next closed envs state event = some after) :
    Halting after := by
  cases event with
  | signal signal =>
      cases stepped
      cases signal with
      | QUIT =>
          cases soft : state.softstop
          · exact halting.grows (by simp [handle, soft]) fun held => by simpa [handle, soft] using held
          · exact halting.grows (by simp [handle, soft]) fun _ => by simp [handle, soft]
      | TERM => exact halting.grows rfl fun _ => rfl
      | _ => exact halting
  | ring event =>
      obtain ⟨scheduler, _, rfl⟩ := Option.map_eq_some_iff.mp stepped
      exact halting
  | redirector event =>
      rw [Supervisor.next, Option.ite_none_right_eq_some] at stepped
      obtain ⟨redirector, _, rfl⟩ := Option.map_eq_some_iff.mp stepped.2
      exact halting
  | accept accepted =>
      rw [Supervisor.next, Option.ite_none_right_eq_some] at stepped
      obtain ⟨_, ⟨⟩⟩ := stepped
      exact halting
  | notifyClose count =>
      rw [Supervisor.next, Option.ite_none_right_eq_some] at stepped
      obtain ⟨_, ⟨⟩⟩ := stepped
      exact halting
  | react status events =>
      rw [Supervisor.next, Option.ite_none_right_eq_some] at stepped
      obtain ⟨⟨reacting, _⟩, ⟨⟩⟩ := stepped
      rw [Halting, reacting] at halting
      dsimp only at halting
      cases control : events.control <;> simp [Halting, react, control, halting]
  | fail =>
      rw [Supervisor.next, Option.ite_none_right_eq_some] at stepped
      obtain ⟨_, ⟨⟩⟩ := stepped
      exact rfl
  | proceed surroundings =>
      rw [Supervisor.next, Option.ite_none_right_eq_some] at stepped
      exact halting.proceed stepped.2

/-- A request to stop is honoured, wherever it comes but between the request for statistics and what
is assigned to `_shutdown` behind `accepting`: the loop is not gone through again.  One that comes
between the test of `_shutdown` and the request for statistics counts as behind the request. -/
theorem shutdown_honoured (requested : state.shutdown = true)
    (outside : state.phase ≠ .listening ∧ state.phase ≠ .changing ∧ ∀ ok, state.phase ≠ .accepted ok)
    (run : Relation.ReflTransGen (Step closed) state after) : after.phase ≠ .listening ∧
      (after.shutdown = true ∨ after.phase = .stopping ∨ after.phase = .joining ∨ after.phase = .returned ∨
        after.phase = .raised) := by
  have halting : Halting after := by
    induction run with
    | refl =>
        unfold Halting
        split <;> simp_all
    | tail _ stepped ih =>
        obtain ⟨envs, event, stepped⟩ := stepped
        exact ih.next stepped
  unfold Halting at halting
  split at halting <;> simp_all

theorem shutdown_honoured_opened : ∃ after : Sample, after.iterations = 1 ∧ after.phase ≠ .listening := by
  have run : Relation.ReflTransGen (Step ()) (opened .looping true) (loop (opened .looping true)) :=
    .single ⟨(RedirectorReactor.answering, RedirectorReactor.answering, RedirectorReactor.answering), onwards, rfl⟩
  exact ⟨loop (opened .looping true), rfl, (shutdown_honoured rfl (by simp [opened]) run).1⟩

end ExaProxy.Supervisor
