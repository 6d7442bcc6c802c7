import ExaProxy.Network.Server
import ExaProxy.Supervisor.Monitor
import ExaProxy.Util.Alarm
import ExaProxy.Util.Log

namespace ExaProxy

open Data Redirector Util

namespace Network

variable {ν : Type} [DecidableEq ν]

/-- `clearRead` -/
def Poller.clear (poller : Poller ν) (name : ν) : Poller ν where
  interest other sock := if other = name then .absent else poller.interest other sock

/-- Without the report that `saturation` logs. -/
def Server.saturation (server : Server ν) : Server ν := { server with saturated := false }

def Server.stop (server : Server ν) : Server ν :=
  { server with socks := ∅, poller := server.poller.clear server.readName }

end Network

namespace Supervisor

/-! `run`, from the end of `__init__` on: the loop of the main process, the handlers of its
signals, the thread that gives the alarms and the redirector process, in any interleaving.
A handler may run between any two phases of the loop. -/

/-- Where the main process is.  It is about to do what the phase is named after, or is waiting
for it: `primed` and `started` are in `__init__`, behind the first request for statistics
and the response; `decreased` and `increased` are behind the command but have not reset the
counter, `accepted` has not assigned what `accepting` returned and `clearing` not reset
`_listen`; `stopping` waits in `redirector.stop` and `joining` in `interrupt_scheduler.stop`. -/
inductive Phase where
  | starting | primed | started
  | looping | reacting | responding | acknowledging | deciding
  | listening | softening | changing | accepted (ok : Bool) | clearing (soft : Bool) | emptying
  | toggling | decreasing | decreased | increasing | increased | tidying
  | stopping | joining | returned | raised
deriving DecidableEq, Repr

/-- Which of the two pipes `reactor.run` has returned for. -/
structure Interrupts where
  interrupt : Bool := false
  control : Bool := false
deriving DecidableEq, Repr

/-- `limit` is `_decrease_spawn_limit` or `_increase_spawn_limit`; `signalled` counts all
signals, and `late` those that came between the command and the reset. -/
structure Requests where
  limit : Nat := 0
  signalled : Nat := 0
  late : Nat := 0
deriving DecidableEq, Repr

inductive Signal where
  | QUIT | TERM | TRAP | USR1 | USR2 | TTOU | TTIN
deriving DecidableEq, Repr

/-- `scheduler` is the `interrupt_scheduler`.  `iterations` counts those of the loop; `zero`
and `readings` are the statistics that were read before it and in it. -/
structure State (δ μ ν : Type) (commandCodec : Codec UInt8 ControlBox.Command)
    (responseCodec : Codec UInt8 ControlBox.Response) (alarmCodec : Codec UInt8 Str) where
  phase : Phase
  shutdown : Bool
  softstop : Bool := false
  toggleDebug : Bool := false
  decrease : Requests := {}
  increase : Requests := {}
  listen : Option Bool := none
  counts : Counts := {}
  events : Interrupts := { interrupt := true }
  proxy : Network.Server ν
  logWriter : Log.SysLogWriter
  monitor : Monitor := {}
  redirector : ControlBox.State δ μ commandCodec responseCodec
  scheduler : AlarmThread.State alarmCodec := {}
  iterations : Nat := 0
  zero : List Statistics := []
  readings : List Reading := []

/-- What the rest of the program and the system return to the main process. -/
structure Surroundings where
  gauges : Gauges := {}
  attempts : List (Network.Binding × Network.Listened) := []
  idle : Bool := false
  expired : Nat := 0
deriving DecidableEq, Repr

inductive Event where
  | signal (signal : Signal)
  | ring (event : AlarmThread.Event)
  | redirector (event : ControlBox.Event)
  | accept (accepted : Bool)
  | notifyClose (count : Nat)
  | react (status : Bool) (events : Interrupts)
  | fail
  | proceed (surroundings : Surroundings)
deriving DecidableEq, Repr

variable {δ μ ν : Type} [DecidableEq ν] {commandCodec : Codec UInt8 ControlBox.Command}
  {responseCodec : Codec UInt8 ControlBox.Response} {alarmCodec : Codec UInt8 Str}

section Phases

variable (closed : δ) (envs : Env δ μ × Env δ μ × Env δ μ)
  (state : State δ μ ν commandCodec responseCodec alarmCodec)

def Requests.add (requests : Requests) (late : Bool) : Requests where
  limit := requests.limit + 1
  signalled := requests.signalled + 1
  late := requests.late + if late then 1 else 0

/-- The handlers of the signals; `SIGINT` has that of `SIGTERM`. -/
def handle : Signal → State δ μ ν commandCodec responseCodec alarmCodec
  | .QUIT =>
      if state.softstop then { state with shutdown := true }
      else { state with softstop := true, listen := some false }
  | .TERM => { state with shutdown := true }
  | .TRAP => { state with toggleDebug := true }
  | .USR1 => { state with decrease := state.decrease.add (state.phase = .decreased) }
  | .USR2 => { state with increase := state.increase.add (state.phase = .increased) }
  | .TTOU => { state with listen := some false }
  | .TTIN => { state with listen := some true }

/-- A command to the redirector process, which is written before the next phase begins.  Where the
process is gone, `run` is left with an `IOError` that nothing catches, but for `STOP`. -/
def send (command : Control) (phase : Phase) : Option (State δ μ ν commandCodec responseCodec alarmCodec) :=
  (ControlBox.next closed envs state.redirector (.send command)).map fun redirector =>
    { state with redirector, phase }

/-- `redirector.readResponse` -/
def readResponse (redirector : ControlBox.State δ μ commandCodec responseCodec) :
    Option (Stats × ControlBox.State δ μ commandCodec responseCodec) := do
  let after ← ControlBox.next closed envs redirector .readResponse
  let response ← after.responses.received.getLast?
  return (response.2, after)

/-- The first statistics, and `zero`. -/
def primed (gauges : Gauges) : Option (State δ μ ν commandCodec responseCodec alarmCodec) :=
  (readResponse closed envs state.redirector).map fun (stats, redirector) =>
    let statistics := Monitor.statistics gauges (some stats)
    { state with redirector, monitor := state.monitor.zero statistics, zero := [statistics], phase := .started }

/-- The loop up to the reactor: the alarm is primed. -/
def loop : State δ μ ν commandCodec responseCodec alarmCodec :=
  { state with
    counts := state.counts.next
    iterations := state.iterations + 1
    scheduler := if state.events.interrupt then AlarmDispatcher.setAlarm state.scheduler else state.scheduler
    phase := .reacting }

/-- What `reactor.run` can return: `False` when the redirector process is gone, else the pipes
which can be read.  A process that is gone has left no decision unread, so that the end of their
pipe is always what the reactor comes to first. -/
def Returns (status : Bool) (events : Interrupts) : Prop :=
  if status then
    (events.interrupt ∨ events.control) ∧
      (events.interrupt → state.scheduler.messagebox.stream ≠ []) ∧
      (events.control → state.redirector.responses.stream ≠ [])
  else state.redirector.supervisor.phase = .gone ∧ events = {}

instance (status : Bool) (events : Interrupts) : Decidable (Returns state status events) := by
  unfold Returns
  infer_instance

def react (status : Bool) (events : Interrupts) : State δ μ ν commandCodec responseCodec alarmCodec :=
  { state with
    events
    shutdown := state.shutdown || !status
    phase := if events.control then .responding else .acknowledging }

/-- Control responses are responded to immediately, with no way on when there was no interrupt. -/
def respond (gauges : Gauges) : Option (State δ μ ν commandCodec responseCodec alarmCodec) :=
  (readResponse closed envs state.redirector).map fun (stats, redirector) =>
    let statistics := Monitor.statistics gauges (some stats)
    let (ok, monitor) := doStats state.counts statistics state.monitor
    { state with
      redirector
      monitor
      readings := state.readings ++ [(state.iterations, statistics)]
      shutdown := state.shutdown || !ok
      phase := if state.events.interrupt then .acknowledging else .looping }

def acknowledge : Option (State δ μ ν commandCodec responseCodec alarmCodec) :=
  (AlarmDispatcher.acknowledgeAlarm state.scheduler).map fun scheduler =>
    { state with scheduler, phase := .deciding }

/-- `shutdown` up to the redirector, or the next request for statistics. -/
def decide : Option (State δ μ ν commandCodec responseCodec alarmCodec) :=
  if state.shutdown then
    send closed envs { state with shutdown := false, proxy := state.proxy.stop } .STOP .stopping
  else send closed envs state .STATS .listening

def soften : State δ μ ν commandCodec responseCodec alarmCodec :=
  if state.listen = some false then { state with proxy := state.proxy.rejecting, phase := .clearing true }
  else { state with phase := .emptying }

/-- Listening is only changed when the program is not about to stop. -/
def change (attempts : List (Network.Binding × Network.Listened)) :
    State δ μ ν commandCodec responseCodec alarmCodec :=
  match state.listen with
  | none => { state with phase := .toggling }
  | some true =>
      let (proxy, accepting) := state.proxy.accepting attempts
      { state with proxy, phase := .accepted accepting }
  | some false => { state with proxy := state.proxy.rejecting, phase := .clearing false }

def toggle : State δ μ ν commandCodec responseCodec alarmCodec :=
  if state.toggleDebug then
    { state with toggleDebug := false, logWriter := state.logWriter.toggleDebug, phase := .decreasing }
  else { state with phase := .decreasing }

/-- The connections that expired are closed, and saturation is reported. -/
def tidy (expired : Nat) : State δ μ ν commandCodec responseCodec alarmCodec :=
  let proxy := if expired = 0 then state.proxy else state.proxy.notifyClose expired
  { state with
    proxy := if state.counts.saturation = 0 then proxy.saturation else proxy
    phase := .looping }

/-- What is left of `redirector.stop`: nothing where `STOP` could not be written. -/
def waitStop (redirector : ControlBox.State δ μ commandCodec responseCodec) :
    Option (ControlBox.State δ μ commandCodec responseCodec) :=
  if redirector.stopping = .returned then some redirector else ControlBox.next closed envs redirector .waitStop

/-- The rest of `shutdown`, if `redirector.stop` returns. -/
def stop : Option (State δ μ ν commandCodec responseCodec alarmCodec) :=
  (waitStop closed envs state.redirector).map fun redirector =>
    if redirector.stopping = .raised then { state with redirector, phase := .raised }
    else { state with
      redirector
      scheduler := AlarmDispatcher.putStop state.scheduler
      phase := .joining }

/-- What the main process does next, unless the poller has it wait. -/
def proceed (surroundings : Surroundings) : Option (State δ μ ν commandCodec responseCodec alarmCodec) :=
  match state.phase with
  | .starting => send closed envs state .STATS .primed
  | .primed => primed closed envs state surroundings.gauges
  | .started => send closed envs state .STATS .looping
  | .looping => some (loop state)
  | .reacting => none
  | .responding => respond closed envs state surroundings.gauges
  | .acknowledging => acknowledge state
  | .deciding => decide closed envs state
  | .listening => some { state with phase := if state.softstop then .softening else .changing }
  | .softening => some (soften state)
  | .changing => some (change state surroundings.attempts)
  | .accepted ok => some { state with shutdown := !ok, phase := .clearing false }
  | .clearing soft => some { state with listen := none, phase := if soft then .emptying else .toggling }
  | .emptying => some { state with shutdown := state.shutdown || surroundings.idle, phase := .toggling }
  | .toggling => some (toggle state)
  | .decreasing =>
      if state.decrease.limit = 0 then some { state with phase := .increasing }
      else send closed envs state (.DECREASE state.decrease.limit) .decreased
  | .decreased => some { state with decrease := { state.decrease with limit := 0 }, phase := .increasing }
  | .increasing =>
      if state.increase.limit = 0 then some { state with phase := .tidying }
      else send closed envs state (.INCREASE state.increase.limit) .increased
  | .increased => some { state with increase := { state.increase with limit := 0 }, phase := .tidying }
  | .tidying => some (tidy state surroundings.expired)
  | .stopping => stop closed envs state
  | .joining => if AlarmDispatcher.joined state.scheduler then some { state with phase := .returned } else none
  | .returned | .raised => none

/-- One step.  `fail` is an `OSError`, which the reactor or `interfaces` can raise. -/
def next : Event → Option (State δ μ ν commandCodec responseCodec alarmCodec)
  | .signal signal => some (handle state signal)
  | .ring event => (AlarmThread.next state.scheduler event).map fun scheduler => { state with scheduler }
  | .redirector event =>
      if event.foreign then
        (ControlBox.next closed envs state.redirector event).map fun redirector => { state with redirector }
      else none
  | .accept accepted =>
      if state.phase = .reacting then some { state with proxy := state.proxy.accept accepted } else none
  | .notifyClose count =>
      if state.phase = .reacting then some { state with proxy := state.proxy.notifyClose count } else none
  | .react status events =>
      if state.phase = .reacting ∧ Returns state status events then some (react state status events) else none
  | .fail =>
      if state.phase = .reacting ∨ state.phase = .tidying then
        some { state with shutdown := true, phase := .looping }
      else none
  | .proceed surroundings =>
      if state.redirector.commands.unsent = [] ∨ state.phase = .stopping then proceed closed envs state surroundings
      else none

end Phases

def Step (closed : δ) (before after : State δ μ ν commandCodec responseCodec alarmCodec) : Prop :=
  ∃ envs event, next closed envs before event = some after

/-- The program is ready to run, or has found that it can not. -/
def Start (low high : Nat) (state : State δ μ ν commandCodec responseCodec alarmCodec) : Prop :=
  ∃ proxy logWriter redirector, ControlBox.Start low high redirector ∧
    (state = { phase := .starting, shutdown := false, proxy, logWriter, redirector } ∨
      state = { phase := .looping, shutdown := true, proxy, logWriter, redirector })

end Supervisor

end ExaProxy
