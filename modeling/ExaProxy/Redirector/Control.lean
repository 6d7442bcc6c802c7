import ExaProxy.Redirector.Dispatch
import ExaProxy.Redirector.Limits

namespace ExaProxy.Redirector

open ExaProxy.Data

/-! The commands of the main process to the supervisor of the redirector process, and
the statistics it answers with.  The pipe with the requests stays open, and the process
runs until it is told to stop or is interrupted. -/

inductive Control where
  | STATS
  | INCREASE (count : Nat)
  | DECREASE (count : Nat)
  | RESPAWN
  | STOP
deriving DecidableEq, Repr

structure Stats where
  forked : Nat
  min : Nat
  max : Nat
  queue : Nat
deriving DecidableEq, Repr

namespace RedirectorSupervisor

/-- `looping` tests `self.running`, `reacting` is in `reactor.run`, `maintaining` behind it
and `polling` in the loop over the commands.  The process has `finished` when it was told to
stop, and is `gone` when it was not. -/
inductive Phase where
  | looping | reacting | maintaining | polling | finished | gone
deriving DecidableEq, Repr

/-- The process is there no more, and the pipes are closed at its end. -/
def Phase.ended : Phase → Bool
  | .finished | .gone => true
  | _ => false

def increaseFrequency : Nat := 5

def decreaseFrequency : Nat := 60

structure State (δ μ : Type) where
  reactor : RedirectorReactor.State δ μ
  phase : Phase := .looping
  countIncrease : Nat := 0
  countDecrease : Nat := 0
  respawn : Bool := false

inductive Event where
  | alarm
  | loop
  | react (event : RedirectorReactor.Event)
  | maintain
  | idle
  | interrupt
deriving DecidableEq, Repr

variable {δ μ : Type} (closed : δ) (env : Env δ μ)

def State.manager (state : State δ μ) : RedirectorManager μ := state.reactor.manager

def supervise (supervision : RedirectorReactor.Supervision) (state : State δ μ) : State δ μ :=
  { state with
    reactor := { state.reactor with
      session := RedirectorReactor.supervise closed env state.reactor.session supervision } }

def superviseIf (condition : Bool) (supervision : RedirectorReactor.Supervision) (state : State δ μ) : State δ μ :=
  if condition then supervise closed env supervision state else state

/-- What `run` does for the workers, with the surroundings of each of the three calls. -/
def maintain (envs : Env δ μ × Env δ μ × Env δ μ) (state : State δ μ) : State δ μ :=
  -- make sure we have enough workers
  let provisioned := superviseIf closed envs.1 (state.countIncrease = 0) .provision state
  -- and every so often remove useless workers
  let deprovisioned := superviseIf closed envs.2.1 (state.countDecrease = 0) .deprovision provisioned
  -- check to respawn command
  { superviseIf closed envs.2.2 state.respawn .respawn deprovisioned with respawn := false }

def sendStats (state : State δ μ) : Stats where
  forked := state.manager.size
  min := state.manager.low
  max := state.manager.high
  queue := state.manager.queue.length

/-- The end of `run`, in either way. -/
def leave (phase : Phase) (state : State δ μ) : State δ μ :=
  { supervise closed env .killWorkers state with phase }

/-- A step of `run` that reads no command.  The `KeyboardInterrupt` of an `interrupt` ends the
process, wherever it is. -/
def next (envs : Env δ μ × Env δ μ × Env δ μ) (state : State δ μ) : Event → Option (State δ μ)
  | .alarm => some { state with reactor := { state.reactor with running := false } }
  | .loop =>
      if state.phase = .looping then do
        let reactor ← RedirectorReactor.proceed closed envs.1 state.reactor
        return { state with
          reactor
          phase := .reacting
          countIncrease := (state.countIncrease + 1) % increaseFrequency
          countDecrease := (state.countDecrease + 1) % decreaseFrequency }
      else none
  | .react event =>
      match state.phase, event with
      | .reacting, .ready events => do
          let reactor ← RedirectorReactor.move closed envs.1 state.reactor (.ready events)
          if reactor.phase = .stopped then none -- the requests can be read
          else return { state with reactor, phase := if events.control then .maintaining else .reacting }
      | .reacting, .proceed => do
          let reactor ← RedirectorReactor.proceed closed envs.1 state.reactor
          return { state with reactor, phase := if reactor.phase = .returned then .maintaining else .reacting }
      | _, _ => none
  | .maintain =>
      if state.phase = .maintaining then some { maintain closed envs state with phase := .polling } else none
  | .idle => if state.phase = .polling then some { state with phase := .looping } else none
  | .interrupt => if state.phase.ended then none else some (leave closed envs.1 .gone state)

/-- `control`: the state after a command, and the statistics to respond with. -/
def control (state : State δ μ) : Control → State δ μ × Option Stats
  | .STATS => (state, some (sendStats state))
  | .INCREASE count => (supervise closed env (.increaseSpawnLimit count) state, none)
  | .DECREASE count => (supervise closed env (.decreaseSpawnLimit count) state, none)
  | .RESPAWN => ({ state with respawn := true }, none)
  | .STOP => (leave closed env .finished state, none)

variable {closed env} {envs : Env δ μ × Env δ μ × Env δ μ} {state after : State δ μ}

theorem supervise_limits (supervision : RedirectorReactor.Supervision) (state : State δ μ) :
    (supervise closed env supervision state).manager.limits = supervision.limits state.manager.limits :=
  RedirectorReactor.supervise_limits state.reactor.session supervision

theorem superviseIf_limits (condition : Bool) {supervision : RedirectorReactor.Supervision}
    (same : supervision.limits = id) (state : State δ μ) :
    (superviseIf closed env condition supervision state).manager.limits = state.manager.limits := by
  unfold superviseIf
  split
  · rw [supervise_limits, same, id]
  · rfl

theorem maintain_limits (state : State δ μ) : (maintain closed envs state).manager.limits = state.manager.limits :=
  (superviseIf_limits _ rfl _).trans ((superviseIf_limits _ rfl _).trans (superviseIf_limits _ rfl state))

/-- Nothing but a command changes the limits, or ends the process as a command does. -/
theorem next_keeps {event : Event} (stepped : next closed envs state event = some after) :
    after.manager.limits = state.manager.limits ∧ (after.phase = .finished ↔ state.phase = .finished) := by
  cases event with
  | alarm =>
      cases stepped
      exact ⟨rfl, Iff.rfl⟩
  | loop =>
      rw [next, Option.ite_none_right_eq_some] at stepped
      obtain ⟨looping, stepped⟩ := stepped
      obtain ⟨reactor, proceeded, same⟩ := Option.bind_eq_some_iff.mp stepped
      cases same
      have moved : RedirectorReactor.move closed envs.1 state.reactor .proceed = some reactor := proceeded
      exact ⟨RedirectorReactor.move_limits moved, by simp [looping]⟩
  | react event =>
      simp only [next] at stepped
      split at stepped
      · next events reacting =>
          obtain ⟨reactor, moved, stepped⟩ := Option.bind_eq_some_iff.mp stepped
          rw [Option.ite_none_left_eq_some] at stepped
          obtain ⟨_, same⟩ := stepped
          cases same
          refine ⟨RedirectorReactor.move_limits moved, ?_⟩
          dsimp only
          rw [reacting]
          split <;> simp
      · next reacting =>
          obtain ⟨reactor, proceeded, same⟩ := Option.bind_eq_some_iff.mp stepped
          cases same
          have moved : RedirectorReactor.move closed envs.1 state.reactor .proceed = some reactor := proceeded
          refine ⟨RedirectorReactor.move_limits moved, ?_⟩
          dsimp only
          rw [reacting]
          split <;> simp
      · cases stepped
  | maintain =>
      rw [next, Option.ite_none_right_eq_some] at stepped
      obtain ⟨maintaining, ⟨⟩⟩ := stepped
      exact ⟨maintain_limits state, by simp [maintaining]⟩
  | idle =>
      rw [next, Option.ite_none_right_eq_some] at stepped
      obtain ⟨polling, ⟨⟩⟩ := stepped
      exact ⟨rfl, by simp [polling]⟩
  | interrupt =>
      rw [next, Option.ite_none_left_eq_some] at stepped
      obtain ⟨running, ⟨⟩⟩ := stepped
      refine ⟨supervise_limits .killWorkers state, ?_⟩
      simp only [leave, reduceCtorEq, false_iff]
      intro finished
      rw [finished] at running
      exact running rfl

/-- A process that is there no more stays so. -/
theorem next_ended {event : Event} (stepped : next closed envs state event = some after)
    (ended : state.phase.ended = true) : after.phase = state.phase := by
  have other {phase : Phase} (same : state.phase = phase) : phase.ended = true := same ▸ ended
  cases event with
  | alarm =>
      cases stepped
      rfl
  | loop =>
      rw [next, Option.ite_none_right_eq_some] at stepped
      cases other stepped.1
  | react event =>
      simp only [next] at stepped
      split at stepped
      · next reacting => cases other reacting
      · next reacting => cases other reacting
      · cases stepped
  | maintain =>
      rw [next, Option.ite_none_right_eq_some] at stepped
      cases other stepped.1
  | idle =>
      rw [next, Option.ite_none_right_eq_some] at stepped
      cases other stepped.1
  | interrupt =>
      rw [next, Option.ite_none_left_eq_some] at stepped
      exact absurd ended stepped.1

end RedirectorSupervisor

namespace ControlBox

open RedirectorSupervisor

/-- What `cycler` gives after an identifier. -/
def following (identifier : Nat) : Nat := if identifier + 1 = 0xffff then 0 else identifier + 1

/-- Whether `stop` of the dispatcher was called, and what became of it: it returned, or was left
with the error of `wait_stop`. -/
inductive Stopping where
  | no | waiting | returned | raised
deriving DecidableEq, Repr

abbrev Command := Nat × Control
abbrev Response := Nat × Stats

variable {δ μ : Type} (commandCodec : Codec UInt8 Command) (responseCodec : Codec UInt8 Response)

/-- `replies` is the number of calls of `readResponse` that have returned. -/
structure State (δ μ : Type) (commandCodec : Codec UInt8 Command) (responseCodec : Codec UInt8 Response) where
  identifier : Nat
  commands : Channel commandCodec
  supervisor : RedirectorSupervisor.State δ μ
  responses : Channel responseCodec
  stopping : Stopping
  replies : Nat

inductive Event where
  | send (command : Control)
  | writeCommand (count : Nat)
  | supervise (event : RedirectorSupervisor.Event)
  | control
  | writeResponse (count : Nat)
  | readResponse
  | waitStop
deriving DecidableEq, Repr

/-- The steps of the pipes and of the redirector process, as opposed to those of the main process. -/
def Event.foreign : Event → Bool
  | .writeCommand _ | .supervise _ | .control | .writeResponse _ => true
  | .send _ | .readResponse | .waitStop => false

variable {commandCodec responseCodec} (closed : δ) (envs : Env δ μ × Env δ μ × Env δ μ)

/-- A call of `send`, which comes back when the command was written. -/
def send (command : Control) (state : State δ μ commandCodec responseCodec) :
    Option (State δ μ commandCodec responseCodec) := do
  let commands ← state.commands.put (state.identifier, command)
  return { state with commands, identifier := following state.identifier }

/-- The supervisor reads a command and responds. -/
def control (state : State δ μ commandCodec responseCodec) : Option (State δ μ commandCodec responseCodec) := do
  let (command, commands) ← state.commands.get
  match command with
  | none => return { state with commands, supervisor := leave closed envs.1 .finished state.supervisor }
  | some (identifier, command) =>
      let (supervisor, stats) := RedirectorSupervisor.control closed envs.1 state.supervisor command
      match stats with
      | none => return { state with commands, supervisor }
      | some stats =>
          let responses ← state.responses.put (identifier, stats)
          return { state with commands, supervisor, responses }

/-- The step of one of the two processes, or of one of the pipes.  To write a command to a process
that is gone is an `IOError`: `stop` of the dispatcher catches it and returns, and the other calls
have no state behind it.  When the process has ended `wait_stop` reads the end of the file. -/
def next (state : State δ μ commandCodec responseCodec) : Event → Option (State δ μ commandCodec responseCodec)
  | .send command =>
      if state.stopping = .no then
        if state.supervisor.phase = .gone then
          if command = .STOP then
            some { state with identifier := following state.identifier, stopping := .returned }
          else none
        else
          (send command state).map fun sent =>
            { sent with stopping := if command = .STOP then .waiting else .no }
      else none
  | .writeCommand count =>
      if state.supervisor.phase = .gone then none else some { state with commands := state.commands.write count }
  | .supervise event =>
      if state.responses.unsent = [] ∧ (event = .idle → state.commands.stream = []) then
        (RedirectorSupervisor.next closed envs state.supervisor event).map fun supervisor =>
          { state with supervisor }
      else none
  | .control =>
      if state.responses.unsent = [] ∧ state.supervisor.phase = .polling then control closed envs state
      else none
  | .writeResponse count => some { state with responses := state.responses.write count }
  | .readResponse =>
      if state.stopping = .no ∧ state.commands.unsent = [] then
        state.responses.get.map fun (_, responses) =>
          { state with responses, replies := state.replies + 1 }
      else none
  | .waitStop =>
      if state.stopping = .waiting then
        if state.commands.unsent = [] then
          match state.responses.get with
          | some (some _, responses) => some { state with responses, stopping := .raised }
          | some (none, responses) => some { state with responses, stopping := .returned }
          | none =>
              if state.supervisor.phase.ended ∧ state.responses.stream = [] ∧ state.responses.unsent = [] then
                some { state with stopping := .returned }
              else none
        -- the process went while `STOP` was being written
        else if state.supervisor.phase = .gone then some { state with stopping := .returned }
        else none
      else none

def Step (before after : State δ μ commandCodec responseCodec) : Prop :=
  ∃ envs event, next closed envs before event = some after

/-- The pool has its minimum of workers, and `run` is called. -/
def Start (low high : Nat) (state : State δ μ commandCodec responseCodec) : Prop :=
  ∃ reactor, RedirectorReactor.Start low high reactor ∧
    state = ⟨0, .empty, { reactor }, .empty, .no, 0⟩

/-- What a command makes of the limits of the pool. -/
def limits : Control → Nat × Nat → Nat × Nat
  | .INCREASE count => RedirectorManager.raised count
  | .DECREASE count => RedirectorManager.lowered count
  | _ => id

/-- The limits that a run of commands leads to. -/
def limitsAfter (start : Nat × Nat) (history : List Command) : Nat × Nat :=
  history.foldl (fun current command => limits command.2 current) start

/-- The identifiers and limits that the statistics asked for by some commands have. -/
def reports (start : Nat × Nat) : List Command → List (Nat × Nat × Nat)
  | [] => []
  | (identifier, command) :: rest =>
      (if command = .STATS then [(identifier, start)] else []) ++ reports (limits command start) rest

def report (response : Response) : Nat × Nat × Nat := (response.1, response.2.min, response.2.max)

def asked (history : List Command) : Nat := history.countP fun command => command.2 = .STATS

variable {start : Nat × Nat} {history : List Command}

theorem reports_append (later : List Command) :
    reports start (history ++ later) = reports start history ++ reports (limitsAfter start history) later := by
  induction history generalizing start with
  | nil => rfl
  | cons command rest ih =>
      rw [List.cons_append, reports, reports, ih, List.append_assoc]
      rfl

theorem limitsAfter_append (command : Command) :
    limitsAfter start (history ++ [command]) = limits command.2 (limitsAfter start history) := by
  simp [limitsAfter]

theorem reports_length : (reports start history).length = asked history := by
  induction history generalizing start with
  | nil => rfl
  | cons command rest ih =>
      rw [reports, List.length_append, ih, asked, asked, List.countP_cons]
      split <;> simp_all [Nat.add_comm]

theorem reports_ordered (history : List Command) (ordered : RedirectorManager.Ordered start) :
    RedirectorManager.Ordered (limitsAfter start history) ∧
      ∀ reported ∈ reports start history, RedirectorManager.Ordered reported.2 := by
  induction history generalizing start with
  | nil => exact ⟨ordered, by simp [reports]⟩
  | cons command rest ih =>
      have next : RedirectorManager.Ordered (limits command.2 start) := by
        cases command.2 with
        | INCREASE count => exact ordered.raised count
        | DECREASE count => exact ordered.lowered count
        | STATS => exact ordered
        | RESPAWN => exact ordered
        | STOP => exact ordered
      obtain ⟨later, others⟩ := ih next
      refine ⟨later, fun reported member => ?_⟩
      rw [reports, List.mem_append] at member
      rcases member with here | there
      · split at here
        · rw [List.mem_singleton] at here
          rwa [here]
        · cases here
      · exact others reported there

variable {closed : δ} {envs : Env δ μ × Env δ μ × Env δ μ} {state after : State δ μ commandCodec responseCodec}

/-- The commands that were sent have the identifiers of the cycler. -/
structure Numbered (identifier : Nat) (sent : List Command) (stopping : Stopping) : Prop where
  identifier : stopping = .no → identifier = sent.length % 0xffff
  numbers : sent.map Prod.fst = (List.range sent.length).map (· % 0xffff)

/-- What the supervisor has done about the commands it received. -/
structure Answered (start : Nat × Nat) (received : List Command) (supervisor : RedirectorSupervisor.State δ μ)
    (responses : List Response) : Prop where
  reported : responses.map report = reports start received
  limits : supervisor.manager.limits = limitsAfter start received
  finished : supervisor.phase = .finished ↔ .STOP ∈ received.map Prod.snd

/-- `STOP` is among the commands, and was written. -/
def Written (commands : Channel commandCodec) : Prop :=
  .STOP ∈ commands.sent.map Prod.snd ∧ commands.unsent = []

/-- `STOP` is the last command, and `wait_stop` has read one response or none after it. -/
structure Ended (state : State δ μ commandCodec responseCodec) : Prop where
  going : state.stopping = .no → .STOP ∉ state.commands.sent.map Prod.snd
  last : ∃ earlier, .STOP ∉ earlier ∧
    (state.commands.sent.map Prod.snd = earlier ∨ state.commands.sent.map Prod.snd = earlier ++ [.STOP])
  waiting : state.stopping = .waiting → .STOP ∈ state.commands.sent.map Prod.snd
  replies : state.responses.received.length = state.replies + if state.stopping = .raised then 1 else 0
  raised : state.stopping = .raised → Written state.commands
  returned : state.stopping = .returned →
    state.supervisor.phase.ended = true ∧ (Written state.commands → state.responses.pending = []) ∧
      (¬ Written state.commands → state.supervisor.phase = .gone)
  quiet : state.supervisor.phase.ended = true → state.responses.unsent = []

structure Sound (start : Nat × Nat) (state : State δ μ commandCodec responseCodec) : Prop where
  numbered : Numbered state.identifier state.commands.sent state.stopping
  answered : Answered start state.commands.received state.supervisor state.responses.sent
  ended : Ended state

theorem following_mod (count : Nat) : following (count % 0xffff) = (count + 1) % 0xffff := by
  unfold following
  split <;> omega

theorem Numbered.send {identifier : Nat} {sent : List Command} (numbered : Numbered identifier sent .no)
    (command : Control) (stopping : Stopping) :
    Numbered (following identifier) (sent ++ [(identifier, command)]) stopping where
  identifier _ := by rw [numbered.identifier rfl, following_mod, List.length_append, List.length_singleton]
  numbers := by
    rw [List.length_append, List.length_singleton, List.range_succ, List.map_append, List.map_append,
      ← numbered.numbers, numbered.identifier rfl]
    rfl

theorem Sound.send {command : Control} (sound : Sound start state) (going : state.stopping = .no)
    {sent : State δ μ commandCodec responseCodec} (written : send command state = some sent) :
    Sound start { sent with stopping := if command = .STOP then .waiting else .no } := by
  obtain ⟨commands, put, same⟩ := Option.bind_eq_some_iff.mp written
  cases same
  obtain ⟨_, received, _, whole⟩ := Channel.put_spec put
  obtain ⟨numbered, answered, ended⟩ := sound
  rw [going] at numbered
  have before := ended.going going
  have replies := ended.replies
  rw [going] at replies
  refine ⟨?_, ?_, ?_⟩
  · rw [whole]
    exact numbered.send command _
  · rw [received]
    exact answered
  · by_cases last : command = .STOP
    · simp only [last, if_true]
      refine ⟨by simp, ⟨_, before, .inr ?_⟩, fun _ => ?_, replies, by simp, by simp, ended.quiet⟩
      · simp [whole, last]
      · simp [whole, last]
    · simp only [last, if_false]
      have going : .STOP ∉ commands.sent.map Prod.snd := by simpa [whole, Ne.symm last] using before
      exact ⟨fun _ => going, ⟨_, going, .inl rfl⟩, by simp, replies, by simp, by simp, ended.quiet⟩

/-- The `IOError` of a write to a process that is gone, caught. -/
theorem Sound.refused (sound : Sound start state) (going : state.stopping = .no)
    (gone : state.supervisor.phase = .gone) :
    Sound start { state with identifier := following state.identifier, stopping := .returned } := by
  obtain ⟨numbered, answered, ended⟩ := sound
  have before := ended.going going
  have replies := ended.replies
  rw [going] at replies
  refine ⟨⟨by simp, numbered.numbers⟩, answered, by simp, ended.last, by simp, replies, by simp,
    fun _ => ?_, ended.quiet⟩
  exact ⟨by rw [gone]; rfl, fun written => absurd written.1 before, fun _ => gone⟩

theorem Answered.control (closed : δ) (envs : Env δ μ × Env δ μ × Env δ μ) {received : List Command}
    {supervisor : RedirectorSupervisor.State δ μ}
    {responses : List Response} (answered : Answered start received supervisor responses)
    (polling : supervisor.phase = .polling) (identifier : Nat) (command : Control) :
    Answered start (received ++ [(identifier, command)])
      (RedirectorSupervisor.control closed envs.1 supervisor command).1
      (responses ++ ((RedirectorSupervisor.control closed envs.1 supervisor command).2.map
        fun stats => (identifier, stats)).toList) := by
  obtain ⟨reported, limits, finished⟩ := answered
  have going : .STOP ∉ received.map Prod.snd := fun member => by
    have late := finished.mpr member
    rw [polling] at late
    cases late
  have changed (after : RedirectorSupervisor.State δ μ) (same : after.manager.limits =
      ControlBox.limits command supervisor.manager.limits) :
      after.manager.limits = limitsAfter start (received ++ [(identifier, command)]) := by
    rw [same, limitsAfter_append, limits]
  cases command with
  | STATS =>
      refine ⟨?_, changed _ rfl, ?_⟩
      · rw [List.map_append, reports_append, reported, ← limits]
        rfl
      · simpa [RedirectorSupervisor.control, polling] using going
  | INCREASE count =>
      refine ⟨?_, changed _ (supervise_limits _ supervisor), ?_⟩
      · simp [RedirectorSupervisor.control, reports_append, reported, reports]
      · simpa [RedirectorSupervisor.control, supervise, polling] using going
  | DECREASE count =>
      refine ⟨?_, changed _ (supervise_limits _ supervisor), ?_⟩
      · simp [RedirectorSupervisor.control, reports_append, reported, reports]
      · simpa [RedirectorSupervisor.control, supervise, polling] using going
  | RESPAWN =>
      refine ⟨?_, changed _ rfl, ?_⟩
      · simp [RedirectorSupervisor.control, reports_append, reported, reports]
      · simpa [RedirectorSupervisor.control, polling] using going
  | STOP =>
      refine ⟨?_, changed _ (supervise_limits .killWorkers supervisor), ?_⟩
      · simp [RedirectorSupervisor.control, reports_append, reported, reports]
      · simp [RedirectorSupervisor.control, leave]

/-- What becomes of a command: the response to it, if any, is sent. -/
theorem control_cases (controlled : control closed envs state = some after) :
    ∃ identifier command commands responses, commands.sent = state.commands.sent ∧
      commands.unsent = state.commands.unsent ∧
      commands.received = state.commands.received ++ [(identifier, command)] ∧
      responses.received = state.responses.received ∧
      responses.sent = state.responses.sent ++
        ((RedirectorSupervisor.control closed envs.1 state.supervisor command).2.map
          fun stats => (identifier, stats)).toList ∧
      (command = .STOP → responses = state.responses) ∧
      after = { state with
        commands
        supervisor := (RedirectorSupervisor.control closed envs.1 state.supervisor command).1
        responses } := by
  obtain ⟨⟨found, commands⟩, read, controlled⟩ := Option.bind_eq_some_iff.mp controlled
  obtain ⟨⟨identifier, command⟩, rfl, _, received, sent⟩ := Channel.get_spec read
  refine ⟨identifier, command, commands, ?_⟩
  dsimp only at controlled
  cases stats : (RedirectorSupervisor.control closed envs.1 state.supervisor command).2 with
  | none =>
      rw [stats] at controlled
      cases controlled
      exact ⟨state.responses, sent, Channel.get_unsent read, received, rfl, by simp, fun _ => rfl, rfl⟩
  | some stats' =>
      rw [stats] at controlled
      obtain ⟨responses, put, same⟩ := Option.bind_eq_some_iff.mp controlled
      cases same
      obtain ⟨_, kept, _, whole⟩ := Channel.put_spec put
      refine ⟨responses, sent, Channel.get_unsent read, received, kept, whole, fun stop => ?_, rfl⟩
      rw [stop] at stats
      cases stats

theorem control_ended {supervisor : RedirectorSupervisor.State δ μ} {command : Control}
    (polling : supervisor.phase = .polling)
    (ended : (RedirectorSupervisor.control closed envs.1 supervisor command).1.phase.ended = true) :
    command = .STOP := by
  cases command with
  | STOP => rfl
  | _ =>
      simp only [RedirectorSupervisor.control, supervise, polling] at ended
      cases ended

theorem Sound.control (sound : Sound start state) (polling : state.supervisor.phase = .polling)
    (written : state.responses.unsent = []) (controlled : control closed envs state = some after) :
    Sound start after := by
  obtain ⟨identifier, command, commands, responses, sent, unsent, received, read, whole, unanswered, rfl⟩ :=
    control_cases controlled
  obtain ⟨numbered, answered, going, last, waiting, replies, raised, returned, quiet⟩ := sound
  have told : Written commands ↔ Written state.commands := by rw [Written, Written, sent, unsent]
  refine ⟨by rwa [← sent] at numbered, ?_, ?_, ?_, ?_, ?_, fun stopped => told.mpr (raised stopped), ?_, ?_⟩
  · have controlled := answered.control closed envs polling identifier command
    rwa [← received, ← whole] at controlled
  · rwa [← sent] at going
  · rwa [← sent] at last
  · rwa [← sent] at waiting
  · rwa [← read] at replies
  · intro ended
    have late := (returned ended).1
    rw [polling] at late
    cases late
  · intro ended
    rw [unanswered (control_ended polling ended)]
    exact written

/-- A command is sent, or refused since the process is gone. -/
theorem next_send {command : Control} (sent : next closed envs state (.send command) = some after) :
    state.stopping = .no ∧ after.replies = state.replies ∧ after.supervisor = state.supervisor ∧
      (after.commands.sent = state.commands.sent ++ [(state.identifier, command)] ∧
          after.stopping = (if command = .STOP then .waiting else .no) ∨
        command = .STOP ∧ after.commands.sent = state.commands.sent ∧ after.stopping = .returned) := by
  rw [next, Option.ite_none_right_eq_some] at sent
  obtain ⟨going, sent⟩ := sent
  split at sent
  · next gone =>
      rw [Option.ite_none_right_eq_some] at sent
      obtain ⟨stop, ⟨⟩⟩ := sent
      exact ⟨going, rfl, rfl, .inr ⟨stop, rfl, rfl⟩⟩
  · obtain ⟨middle, written, rfl⟩ := Option.map_eq_some_iff.mp sent
    obtain ⟨commands, put, same⟩ := Option.bind_eq_some_iff.mp written
    cases same
    exact ⟨going, rfl, rfl, .inl ⟨(Channel.put_spec put).2.2.2, rfl⟩⟩

theorem next_readResponse (read : next closed envs state .readResponse = some after) :
    after.commands = state.commands ∧ after.stopping = state.stopping ∧ after.replies = state.replies + 1 ∧
      after.supervisor = state.supervisor := by
  rw [next, Option.ite_none_right_eq_some] at read
  obtain ⟨⟨found, responses⟩, _, rfl⟩ := Option.map_eq_some_iff.mp read.2
  exact ⟨rfl, rfl, rfl, rfl⟩

/-- The other process neither sends commands nor stops the main process. -/
theorem next_foreign {event : Event} (foreign : event.foreign = true)
    (stepped : next closed envs state event = some after) :
    after.commands.sent = state.commands.sent ∧ after.stopping = state.stopping ∧ after.replies = state.replies := by
  cases event with
  | send command => cases foreign
  | readResponse => cases foreign
  | waitStop => cases foreign
  | writeCommand count =>
      rw [next, Option.ite_none_left_eq_some] at stepped
      obtain ⟨_, ⟨⟩⟩ := stepped
      exact ⟨rfl, rfl, rfl⟩
  | writeResponse count =>
      cases stepped
      exact ⟨rfl, rfl, rfl⟩
  | supervise event =>
      rw [next, Option.ite_none_right_eq_some] at stepped
      obtain ⟨supervisor, _, rfl⟩ := Option.map_eq_some_iff.mp stepped.2
      exact ⟨rfl, rfl, rfl⟩
  | control =>
      rw [next, Option.ite_none_right_eq_some] at stepped
      obtain ⟨_, _, commands, _, sent, _, _, _, _, _, rfl⟩ := control_cases stepped.2
      exact ⟨sent, rfl, rfl⟩

/-- `wait_stop` comes back, or raises. -/
theorem next_waitStop (waited : next closed envs state .waitStop = some after) :
    after.commands = state.commands ∧ after.replies = state.replies ∧ after.supervisor = state.supervisor ∧
      (after.stopping = .returned ∨ after.stopping = .raised) := by
  rw [next, Option.ite_none_right_eq_some] at waited
  obtain ⟨_, waited⟩ := waited
  split at waited
  · split at waited
    · cases waited
      exact ⟨rfl, rfl, rfl, .inr rfl⟩
    · cases waited
      exact ⟨rfl, rfl, rfl, .inl rfl⟩
    · rw [Option.ite_none_right_eq_some] at waited
      obtain ⟨_, ⟨⟩⟩ := waited
      exact ⟨rfl, rfl, rfl, .inl rfl⟩
  · rw [Option.ite_none_right_eq_some] at waited
    obtain ⟨_, ⟨⟩⟩ := waited
    exact ⟨rfl, rfl, rfl, .inl rfl⟩

theorem Sound.waitStop (sound : Sound start state) (waited : next closed envs state .waitStop = some after) :
    Sound start after := by
  obtain ⟨numbered, answered, going, last, waiting, replies, raised, returned, quiet⟩ := sound
  rw [next, Option.ite_none_right_eq_some] at waited
  obtain ⟨waits, waited⟩ := waited
  have sent := waiting waits
  have numbered : ∀ stopping, stopping ≠ .no → Numbered state.identifier state.commands.sent stopping :=
    fun stopping late => ⟨fun early => absurd early late, numbered.numbers⟩
  rw [waits] at replies
  simp only [reduceCtorEq, if_false, Nat.add_zero] at replies
  split at waited
  · next written =>
      split at waited
      · next read =>
          cases waited
          obtain ⟨message, _, _, received, same⟩ := Channel.get_spec read
          refine ⟨numbered _ (by simp), by rwa [← same] at answered, by simp, last, by simp, ?_, fun _ => ⟨sent, written⟩,
            by simp, fun ended => (Channel.get_unsent read).trans (quiet ended)⟩
          simp [received, replies]
      · next read =>
          obtain ⟨message, none, _⟩ := Channel.get_spec read
          cases none
      · rw [Option.ite_none_right_eq_some] at waited
        obtain ⟨⟨ended, empty, complete⟩, ⟨⟩⟩ := waited
        refine ⟨numbered _ (by simp), answered, by simp, last, by simp, by simpa using replies, by simp,
          fun _ => ?_, quiet⟩
        exact ⟨ended, fun _ => Channel.pending_empty empty complete, fun unwritten => absurd ⟨sent, written⟩ unwritten⟩
  · next unwritten =>
      rw [Option.ite_none_right_eq_some] at waited
      obtain ⟨gone, ⟨⟩⟩ := waited
      refine ⟨numbered _ (by simp), answered, by simp, last, by simp, by simpa using replies, by simp,
        fun _ => ?_, quiet⟩
      exact ⟨by rw [gone]; rfl, fun written => absurd written.2 unwritten, fun _ => gone⟩

theorem Written.write {commands : Channel commandCodec} (written : Written commands) (count : Nat) :
    Written (commands.write count) :=
  ⟨written.1, by simp [Channel.write, written.2]⟩

theorem Sound.next {event : Event} (sound : Sound start state)
    (stepped : next closed envs state event = some after) : Sound start after := by
  obtain ⟨numbered, answered, ended⟩ := sound
  cases event with
  | send command =>
      rw [ControlBox.next, Option.ite_none_right_eq_some] at stepped
      obtain ⟨going, stepped⟩ := stepped
      split at stepped
      · next gone =>
          rw [Option.ite_none_right_eq_some] at stepped
          obtain ⟨_, ⟨⟩⟩ := stepped
          exact Sound.refused ⟨numbered, answered, ended⟩ going gone
      · obtain ⟨sent, written, rfl⟩ := Option.map_eq_some_iff.mp stepped
        exact Sound.send ⟨numbered, answered, ended⟩ going written
  | writeCommand count =>
      rw [ControlBox.next, Option.ite_none_left_eq_some] at stepped
      obtain ⟨running, ⟨⟩⟩ := stepped
      refine ⟨numbered, answered, ended.going, ended.last, ended.waiting, ended.replies,
        fun raised => (ended.raised raised).write count, fun returned => ?_, ended.quiet⟩
      obtain ⟨late, read, refused⟩ := ended.returned returned
      have written : Written state.commands := by
        by_contra unwritten
        exact running (refused unwritten)
      exact ⟨late, fun _ => read written, fun unwritten => absurd (written.write count) unwritten⟩
  | supervise event =>
      rw [ControlBox.next, Option.ite_none_right_eq_some] at stepped
      obtain ⟨⟨complete, _⟩, stepped⟩ := stepped
      obtain ⟨supervisor, moved, rfl⟩ := Option.map_eq_some_iff.mp stepped
      obtain ⟨limits, finished⟩ := next_keeps moved
      refine ⟨numbered, ⟨answered.reported, limits.trans answered.limits, finished.trans answered.finished⟩,
        ended.going, ended.last, ended.waiting, ended.replies, ended.raised, fun returned => ?_, fun _ => complete⟩
      obtain ⟨late, read, refused⟩ := ended.returned returned
      have same := next_ended moved late
      exact ⟨same ▸ late, read, fun unwritten => same.trans (refused unwritten)⟩
  | control =>
      rw [ControlBox.next, Option.ite_none_right_eq_some] at stepped
      obtain ⟨⟨complete, polling⟩, controlled⟩ := stepped
      exact Sound.control ⟨numbered, answered, ended⟩ polling complete controlled
  | writeResponse count =>
      cases stepped
      refine ⟨numbered, answered, ended.going, ended.last, ended.waiting, ended.replies, ended.raised, ended.returned,
        fun late => ?_⟩
      simp [Channel.write, ended.quiet late]
  | readResponse =>
      rw [ControlBox.next, Option.ite_none_right_eq_some] at stepped
      obtain ⟨⟨going, _⟩, stepped⟩ := stepped
      obtain ⟨⟨found, responses⟩, read, rfl⟩ := Option.map_eq_some_iff.mp stepped
      obtain ⟨message, _, _, received, sent⟩ := Channel.get_spec read
      refine ⟨numbered, by rwa [← sent] at answered, ended.going, ended.last, ended.waiting, ?_, ended.raised, ?_,
        fun late => (Channel.get_unsent read).trans (ended.quiet late)⟩
      · have replies := ended.replies
        rw [going] at replies ⊢
        simp [received, replies]
      · intro returned
        rw [going] at returned
        cases returned
  | waitStop => exact Sound.waitStop ⟨numbered, answered, ended⟩ stepped

theorem Start.sound {low high : Nat} (begun : Start low high state) : Sound (low, high) state := by
  obtain ⟨reactor, ⟨few, env, rfl⟩, rfl⟩ := begun
  refine ⟨⟨fun _ => rfl, rfl⟩, ⟨rfl, ?_, by simp [Channel.empty]⟩, by simp [Channel.sent, Channel.empty],
    ⟨[], by simp, .inl rfl⟩, by simp, rfl, by simp, by simp, fun _ => rfl⟩
  exact RedirectorManager.spawn_limits' env _ low

theorem reachable_sound {low high : Nat} (reached : Reachable (Start low high) (Step closed) state) :
    Sound (low, high) state :=
  reached.invariant (Sound (low, high)) (fun _ begun => begun.sound)
    fun _ _ _ sound stepped => by
      obtain ⟨_, _, stepped⟩ := stepped
      exact sound.next stepped

/-- In every interleaving, the statistics that the main process reads are those it asked for,
in that order and with the identifiers it gave: each has the limits as the commands sent before
it have made them, whatever the redirector process does besides.  Limits that are in order
stay so. -/
theorem statistics_in_order {low high : Nat} (reached : Reachable (Start low high) (Step closed) state) :
    state.responses.received.map report <+: reports (low, high) state.commands.sent ∧
    (state.commands.pending = [] → state.responses.pending = [] →
      state.responses.received.map report = reports (low, high) state.commands.sent) ∧
    state.commands.sent.map Prod.fst = (List.range state.commands.sent.length).map (· % 0xffff) ∧
    (1 ≤ low → low ≤ high → 1 ≤ state.supervisor.manager.low ∧
      state.supervisor.manager.low ≤ state.supervisor.manager.high ∧
      ∀ response ∈ state.responses.received, 1 ≤ response.2.min ∧ response.2.min ≤ response.2.max) := by
  obtain ⟨numbered, answered, _⟩ := reachable_sound reached
  have reported := answered.reported
  rw [Channel.sent, List.map_append] at reported
  have received : state.responses.received.map report <+: reports (low, high) state.commands.received :=
    ⟨_, reported⟩
  refine ⟨?_, fun read answers => ?_, numbered.numbers, fun positive ordered => ?_⟩
  · rw [Channel.sent, reports_append]
    exact received.trans (List.prefix_append _ _)
  · rw [answers, List.map_nil, List.append_nil] at reported
    rw [reported, Channel.sent, read, List.append_nil]
  · obtain ⟨limits, each⟩ := reports_ordered state.commands.received
      (⟨positive, ordered⟩ : RedirectorManager.Ordered (low, high))
    rw [← answered.limits] at limits
    refine ⟨limits.1, limits.2, fun response member => ?_⟩
    exact each (report response) (received.subset (List.mem_map_of_mem member))

/-- The last command has been read when the process has done what it says. -/
theorem Sound.drained (sound : Sound start state) (finished : state.supervisor.phase = .finished) :
    state.commands.pending = [] := by
  obtain ⟨earlier, before, commands⟩ := sound.ended.last
  have read := sound.answered.finished.mp finished
  rw [Channel.sent, List.map_append] at commands
  rcases commands with none | commands
  · exact absurd (none ▸ List.mem_append_left _ read) before
  · cases unread : state.commands.pending.map Prod.snd using List.reverseRecOn with
    | nil => exact List.map_eq_nil_iff.mp unread
    | append_singleton others last =>
        rw [unread, ← List.append_assoc] at commands
        have same := (List.append_inj' commands rfl).1
        exact absurd (same ▸ List.mem_append_left others read) before

/-- The process has answered some of the requests for statistics, and all of them when it has read
the last command. -/
theorem Sound.responses_sent (sound : Sound start state) :
    state.responses.sent.length ≤ asked state.commands.sent ∧
      (state.commands.pending = [] → state.responses.sent.length = asked state.commands.sent) := by
  have count := congrArg List.length sound.answered.reported
  have more : asked state.commands.sent = asked state.commands.received + asked state.commands.pending := by
    rw [asked, Channel.sent, List.countP_append]
    rfl
  rw [List.length_map, reports_length] at count
  refine ⟨by omega, fun read => ?_⟩
  rw [more, read, count]
  rfl

theorem Sound.replies_length (sound : Sound start state) : state.responses.sent.length =
    state.replies + (if state.stopping = .raised then 1 else 0) + state.responses.pending.length := by
  rw [Channel.sent, List.length_append, sound.ended.replies]

/-- `wait_stop` takes what is left of the responses for an answer to `STOP`. -/
theorem Sound.raised_iff (sound : Sound start state) (ended : state.stopping = .returned ∨ state.stopping = .raised) :
    state.stopping = .raised ↔ Written state.commands ∧ state.replies < state.responses.sent.length := by
  have count := sound.replies_length
  constructor
  · intro raised
    rw [if_pos raised] at count
    exact ⟨sound.ended.raised raised, by omega⟩
  · intro given
    obtain ⟨written, unread⟩ := given
    refine ended.resolve_left fun returned => ?_
    rw [(sound.ended.returned returned).2.1 written, returned] at count
    simp only [reduceCtorEq, if_false, Nat.add_zero, List.length_nil] at count
    omega

/-- Unless the process is gone, these are the statistics that were asked for. -/
theorem Sound.raised_iff_owed (sound : Sound start state) (running : state.supervisor.phase ≠ .gone)
    (ended : state.stopping = .returned ∨ state.stopping = .raised) :
    state.stopping = .raised ↔ state.replies < asked state.commands.sent := by
  obtain ⟨few, all⟩ := sound.responses_sent
  rw [sound.raised_iff ended]
  constructor
  · intro given
    exact Nat.lt_of_lt_of_le given.2 few
  · intro owed
    rcases ended with returned | raised
    · obtain ⟨late, _, refused⟩ := sound.ended.returned returned
      have written : Written state.commands := by
        by_contra unwritten
        exact running (refused unwritten)
      have finished : state.supervisor.phase = .finished := by
        cases phase : state.supervisor.phase <;> rw [phase] at late running <;> first
          | rfl
          | exact absurd rfl running
          | cases late
      rw [all (sound.drained finished)]
      exact ⟨written, owed⟩
    · exact (sound.raised_iff (.inr raised)).mp raised

/-- `stop` comes to an end when the process has. -/
theorem Sound.stops (sound : Sound start state) (waiting : state.stopping = .waiting)
    (ended : state.supervisor.phase.ended = true) (envs : Env δ μ × Env δ μ × Env δ μ) :
    (ControlBox.next closed envs state .waitStop).isSome := by
  simp only [ControlBox.next, waiting, if_true]
  split
  · split
    · rfl
    · rfl
    · next unread =>
        have complete := sound.ended.quiet ended
        have read : state.responses.pending = [] := by
          by_contra left
          obtain ⟨message, after, read⟩ := Channel.get_ready left complete
          rw [unread] at read
          cases read
        have empty := state.responses.carries
        rw [read, complete, List.append_nil, List.flatMap_nil] at empty
        simp [ended, empty, complete]
  · next unwritten =>
      have gone : state.supervisor.phase = .gone := by
        cases phase : state.supervisor.phase <;> rw [phase] at ended <;> first
          | rfl
          | cases ended
        have carried := state.commands.carries
        rw [sound.drained phase, List.flatMap_nil, List.append_eq_nil_iff] at carried
        exact absurd carried.2 unwritten
      simp [gone]

/-- In every interleaving, `stop` comes to an end once the redirector process has, and it raises when
`STOP` was written and the main process has not read all the responses it was given, and only then:
`wait_stop` takes what is left of them for an answer to `STOP`.  Unless the process was interrupted,
these are the statistics it was asked for.  When the process was gone before `STOP` was written,
`stop` returns: the `IOError` is caught. -/
theorem stop_raises_iff {low high : Nat} (reached : Reachable (Start low high) (Step closed) state) :
    (state.stopping = .waiting → state.supervisor.phase.ended = true → ∀ envs,
      (next closed envs state .waitStop).isSome) ∧
    (state.stopping = .returned ∨ state.stopping = .raised →
      (state.stopping = .raised ↔ Written state.commands ∧ state.replies < state.responses.sent.length) ∧
      (state.supervisor.phase ≠ .gone →
        (state.stopping = .raised ↔ state.replies < asked state.commands.sent))) := by
  have sound := reachable_sound reached
  refine ⟨fun waiting ended envs => sound.stops waiting ended envs, fun ended => ?_⟩
  refine ⟨sound.raised_iff ended, fun running => ?_⟩
  exact sound.raised_iff_owed running ended

section Sample

open Util Util.MessageReader

def word : Control → Str
  | .STATS => ascii "STATS"
  | .INCREASE _ => ascii "INCREASE"
  | .DECREASE _ => ascii "DECREASE"
  | .RESPAWN => ascii "RESPAWN"
  | .STOP => ascii "STOP"

def count : Control → Nat
  | .INCREASE count | .DECREASE count => count
  | _ => 0

/-- The parts of a command, one frame after another, in place of its pickle. -/
def commandPickle : Pickle Command where
  dumps command :=
    [Str.decimal command.1, word command.2, Str.decimal (count command.2)].flatMap MessageBox.frame
  loads text :=
    match reads 3 text with
    | some ([some identifier, some word, some count], []) => some (identifier.digitsValue,
        if word = ascii "STATS" then .STATS
        else if word = ascii "INCREASE" then .INCREASE count.digitsValue
        else if word = ascii "DECREASE" then .DECREASE count.digitsValue
        else if word = ascii "RESPAWN" then .RESPAWN
        else .STOP)
    | _ => none
  inverts command := by
    obtain ⟨identifier, command⟩ := command
    rw [show 3 = [Str.decimal identifier, word command, Str.decimal (count command)].length from rfl,
      MessageBox.reads_written]
    cases command <;> simp [word, count, Str.digitsValue_decimal, ascii]
  eof := rfl

def responsePickle : Pickle Response where
  dumps response :=
    ([response.1, response.2.forked, response.2.min, response.2.max, response.2.queue].map Str.decimal).flatMap
      MessageBox.frame
  loads text :=
    match reads 5 text with
    | some ([some identifier, some forked, some min, some max, some queue], []) =>
        some (identifier.digitsValue,
          ⟨forked.digitsValue, min.digitsValue, max.digitsValue, queue.digitsValue⟩)
    | _ => none
  inverts response := by
    obtain ⟨identifier, forked, min, max, queue⟩ := response
    rw [show 5 = ([identifier, forked, min, max, queue].map Str.decimal).length from rfl,
      MessageBox.reads_written]
    simp [Str.digitsValue_decimal]
  eof := rfl

abbrev Sample := State Unit Unit (MessageBox.codec commandPickle) (MessageBox.codec responsePickle)

def opened : Sample := ⟨0, .empty, { reactor := RedirectorReactor.started 1 2 }, .empty, .no, 0⟩

def follow (state : Sample) (event : Event) : Option Sample :=
  let env := RedirectorReactor.answering
  next () (env, env, env) state event

theorem follow_reached {state : Sample} {events : List Event} (followed : events.foldlM follow opened = some state) :
    Reachable (Start 1 2) (Step ()) state :=
  (Reachable.start ⟨_, ⟨by decide, RedirectorReactor.deferring, rfl⟩, rfl⟩).foldlM
    (fun _ event _ stepped => ⟨_, event, stepped⟩) followed

/-- The reactor of the redirector process starts, and leaves `run` for a command. -/
def wakes : List Event :=
  [.supervise .loop, .supervise (.react .proceed), .supervise (.react .proceed),
    .supervise (.react (.ready { control := true })), .supervise .maintain]

/-- The limits are raised, and asked for before that and afterwards. -/
def raising : List Event :=
  [.send .STATS, .writeCommand 90, .send (.INCREASE 2), .writeCommand 90, .send .STATS, .writeCommand 90] ++
    wakes ++ [.control, .writeResponse 90, .control, .control, .writeResponse 90, .readResponse, .readResponse]

/-- The redirector process has yet to answer when it is stopped. -/
def hasty : List Event :=
  [.send .STATS, .writeCommand 90, .send .STOP, .writeCommand 90] ++ wakes ++
    [.control, .writeResponse 90, .waitStop]

theorem statistics_in_order_raising : ∃ state : Sample,
    state.responses.received.map report = [(0, 1, 2), (2, 3, 3)] ∧
    state.responses.received.map report = reports (1, 2) state.commands.sent := by
  have run : ∃ state ∈ raising.foldlM follow opened,
      state.responses.received.map report = [(0, 1, 2), (2, 3, 3)] ∧
      state.commands.pending = [] ∧ state.responses.pending = [] := by
    decide +kernel
  obtain ⟨state, followed, received, commands, responses⟩ := run
  exact ⟨state, received, (statistics_in_order (follow_reached followed)).2.1 commands responses⟩

theorem stop_raises_hasty : ∃ state : Sample, state.stopping = .raised ∧
    state.replies < state.responses.sent.length := by
  have run : ∃ state ∈ hasty.foldlM follow opened, state.stopping = .raised := by
    decide +kernel
  obtain ⟨state, followed, raised⟩ := run
  exact ⟨state, raised, (((stop_raises_iff (follow_reached followed)).2 (.inr raised)).1.mp raised).2⟩

-- the redirector process is interrupted before it has answered: `stop` returns
example : ∃ state ∈ [.send .STATS, .writeCommand 90, .supervise .interrupt, .send .STOP].foldlM follow opened,
    state.stopping = .returned ∧ state.replies < asked state.commands.sent := by
  decide +kernel

end Sample

end ControlBox

end ExaProxy.Redirector
