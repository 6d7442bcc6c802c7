import ExaProxy.Redirector.Conservation
import ExaProxy.Redirector.Reactor
import ExaProxy.Util.Pipes

namespace ExaProxy.Redirector

open ExaProxy.Data

/-! The way of a request to the redirector process and of its decision back.  The
main process puts requests into a queue, a thread of it writes them into a pipe,
the reactor of the redirector process reads them and writes decisions into another
pipe, and the main process reads these.  The writes of the redirector process are
not interrupted by its alarm. -/

namespace Session

variable {δ μ : Type} {closed : δ} {env : Env δ μ} {session before after : Session δ μ}

/-- A step that may take in the request `taken`, and gives at most one answer. -/
structure Serves (closed : δ) (taken : Option Request) (before after : Session δ μ) : Prop where
  wellFormed : after.manager.WellFormed ∅
  labelled : before.Labelled → after.Labelled
  ledger : Relation.ReflTransGen (Ledger.Step (.enact closed)) before.ledger after.ledger
  submitted : after.submitted =
    (taken.map fun request => { request with ticket := before.submitted.length }).toList ++ before.submitted
  answered : ∃ answer : Option (Answer δ μ), after.answered = answer.toList ++ before.answered

theorem record_answered (session : Session δ μ) (subject : Option Request)
    (result : RedirectorManager μ × Option Str × Option (Command δ μ)) :
    ∃ answer : Option (Answer δ μ), (session.record subject result).answered = answer.toList ++ session.answered := by
  obtain ⟨manager, clientId, command⟩ := result
  cases subject with
  | none => exact ⟨none, rfl⟩
  | some request =>
      cases clientId with
      | none => exact ⟨none, rfl⟩
      | some clientId =>
          cases command with
          | none => exact ⟨none, rfl⟩
          | some command => exact ⟨some ⟨request, clientId, command⟩, rfl⟩

/-- The request an operation takes in. -/
def taken : Operation → Option Request
  | .request request => some request
  | _ => none

theorem apply_history (closed : δ) (env : Env δ μ) (session : Session δ μ) (operation : Operation) :
    (session.apply closed env operation).submitted =
      ((taken operation).map fun request => { request with ticket := session.submitted.length }).toList ++
        session.submitted ∧
    ∃ answer : Option (Answer δ μ),
      (session.apply closed env operation).answered = answer.toList ++ session.answered := by
  cases operation with
  | request request => exact ⟨rfl, record_answered { session with submitted := _ } _ _⟩
  | doqueue => exact ⟨rfl, record_answered _ _ _⟩
  | getDecision pipe => exact ⟨rfl, record_answered _ _ _⟩
  | _ => exact ⟨rfl, none, rfl⟩

theorem Step.serves {operation : Operation} (wellFormed : before.manager.WellFormed ∅)
    (serving : operation.serving = true)
    (few : (before.apply closed env operation).manager.spawned < maxint) :
    Serves closed (taken operation) before (before.apply closed env operation) := by
  have stepped : Step closed Operation.serving before (before.apply closed env operation) :=
    ⟨env, operation, serving, rfl, few⟩
  obtain ⟨submitted, answered⟩ := apply_history closed env before operation
  exact ⟨stepped.wellFormed wellFormed, fun labelled => stepped.labelled labelled,
    stepped.ledger wellFormed, submitted, answered⟩

theorem serves_undisturbed {manager : RedirectorManager μ} (wellFormed : manager.WellFormed ∅)
    (undisturbed : before.manager.Undisturbed manager) : Serves closed none before { before with manager } where
  wellFormed := wellFormed
  labelled labelled := ⟨labelled.tickets, labelled.distinct, labelled.addressed⟩
  ledger := by rw [ledger_undisturbed undisturbed]
  submitted := rfl
  answered := ⟨none, rfl⟩

end Session

namespace RedirectorReactor

variable {δ μ : Type} {closed : δ} {env : Env δ μ} {before after : State δ μ}

/-- The request that an event brings. -/
def Event.brings : Event → Option Request
  | .ready events => if events.control then none else events.readRequest.join
  | _ => none

/-- The event makes the reactor read a request. -/
def Event.reads : Event → Bool
  | .ready events => !events.control && events.readRequest.isSome
  | _ => false

theorem Event.brings_of_reads {event : Event} (quiet : event.reads = false) : event.brings = none := by
  cases event with
  | ready events =>
      simp only [reads, Bool.and_eq_false_iff, Bool.not_eq_false', Option.isSome_eq_false_iff,
        Option.isNone_iff_eq_none] at quiet
      rcases quiet with control | none
      · exact if_pos control
      · simp [brings, none]
  | _ => rfl

theorem supervise_serves {supervision : Supervision} {session : Session δ μ}
    (wellFormed : session.manager.WellFormed ∅) (living : supervision ≠ .killWorkers)
    (few : (supervise closed env session supervision).manager.spawned < maxint) :
    Session.Serves closed none session (supervise closed env session supervision) := by
  have formed := supervise_wellFormed wellFormed few
  cases supervision with
  | provision => exact Session.Step.serves wellFormed rfl few
  | deprovision => exact Session.Step.serves wellFormed rfl few
  | respawn => exact Session.Step.serves wellFormed rfl few
  | killWorkers => exact absurd rfl living
  | increaseSpawnLimit count =>
      apply Session.serves_undisturbed formed
      exact RedirectorManager.iterate_undisturbed (fun _ => RedirectorManager.increaseOne_undisturbed) count
        { session.manager with low := _, high := _ }
  | decreaseSpawnLimit count =>
      apply Session.serves_undisturbed formed
      exact RedirectorManager.iterate_undisturbed (fun _ => RedirectorManager.decreaseOne_undisturbed) count
        { session.manager with low := _, high := _ }

theorem proceed_serves (wellFormed : before.manager.WellFormed ∅)
    (proceeded : proceed closed env before = some after) (few : after.manager.spawned < maxint) :
    Session.Serves closed none before.session after.session := by
  have kept : Session.Serves closed none before.session before.session :=
    Session.serves_undisturbed wellFormed (RedirectorManager.undisturbed_refl _)
  rw [proceed] at proceeded
  split at proceeded <;> cases proceeded
  · exact kept
  · exact Session.Step.serves wellFormed rfl few
  · exact kept
  · exact Session.Step.serves wellFormed rfl few
  · exact kept
  · exact Session.Step.serves wellFormed rfl few
  · exact kept

theorem move_serves {event : Event} (wellFormed : before.manager.WellFormed ∅)
    (living : event ≠ .supervise .killWorkers) (moved : move closed env before event = some after)
    (few : after.manager.spawned < maxint) :
    Session.Serves closed event.brings before.session after.session := by
  have kept : Session.Serves closed none before.session before.session :=
    Session.serves_undisturbed wellFormed (RedirectorManager.undisturbed_refl _)
  cases event with
  | alarm =>
      cases moved
      exact kept
  | supervise supervision =>
      rw [move, Option.ite_none_right_eq_some] at moved
      obtain ⟨_, ⟨⟩⟩ := moved
      exact supervise_serves wellFormed (fun same => living (congrArg Event.supervise same)) few
  | ready events =>
      rw [move, Option.ite_none_right_eq_some] at moved
      obtain ⟨_, ⟨⟩⟩ := moved
      rw [Event.brings]
      unfold receive at few ⊢
      split
      · exact kept
      · next quiet =>
          rw [if_neg quiet] at few
          cases read : events.readRequest with
          | none => exact kept
          | some message =>
              rw [read] at few
              cases message with
              | none => exact kept
              | some request => exact Session.Step.serves wellFormed rfl few
  | proceed => exact proceed_serves wellFormed moved few

end RedirectorReactor

/-- The decision that the redirector process came to in a step. -/
def Session.answer {δ μ : Type} (before after : Session δ μ) : Option (Answer δ μ) :=
  if before.answered.length < after.answered.length then after.answered.head? else none

theorem Session.answer_eq {δ μ : Type} {before after : Session δ μ} {answer : Option (Answer δ μ)}
    (answered : after.answered = answer.toList ++ before.answered) : before.answer after = answer := by
  cases answer <;> simp [Session.answer, answered]

namespace RedirectorDispatcher

inductive Entry where
  | REQUEST (message : Request)
  | STOP
deriving DecidableEq, Repr

/-- The request of an entry of the queue. -/
def Entry.request : Entry → Option Request
  | .REQUEST message => some message
  | .STOP => none

@[simp] theorem requests_REQUEST (message : Request) (queue : List Entry) :
    (Entry.REQUEST message :: queue).filterMap Entry.request = message :: queue.filterMap Entry.request := rfl

@[simp] theorem requests_STOP (queue : List Entry) :
    (Entry.STOP :: queue).filterMap Entry.request = queue.filterMap Entry.request := rfl

/-- The thread waits for an entry, or has left its loop. -/
inductive Thread where
  | waiting | finished
deriving DecidableEq, Repr

/-- What `sendResponse` sends and `getDecision` returns. -/
abbrev Response (δ μ : Type) := Str × Command δ μ

def response {δ μ : Type} (answer : Answer δ μ) : Response δ μ := (answer.clientId, answer.command)

variable {δ μ : Type} (requestCodec : Codec UInt8 Request) (responseCodec : Codec UInt8 (Response δ μ))

/-- `accepted` are the requests of all calls of `sendRequest`, and `stopping` says that
`stop` was called. -/
structure State where
  queue : List Entry
  thread : Thread
  requests : Channel requestCodec
  redirector : RedirectorReactor.State δ μ
  responses : Channel responseCodec
  accepted : List Request
  stopping : Bool

inductive Event where
  | sendRequest (message : Request)
  | stop
  | shift
  | writeRequest (count : Nat)
  | getRequest (workers : List Handle)
  | redirect (event : RedirectorReactor.Event)
  | writeResponse (count : Nat)
  | getDecision
deriving DecidableEq, Repr

variable {requestCodec responseCodec} (closed : δ) (env : Env δ μ)

/-- A step of the redirector process, with the writing of its decision. -/
def redirect (event : RedirectorReactor.Event) (state : State requestCodec responseCodec) :
    Option (State requestCodec responseCodec) := do
  if state.responses.unsent = [] then
    let redirector ← RedirectorReactor.move closed env state.redirector event
    match state.redirector.session.answer redirector.session with
    | none => return { state with redirector }
    | some answer =>
        let responses ← state.responses.put (response answer)
        return { state with redirector, responses }
  else none

/-- The step of one of the three parties, or of one of the pipes. -/
def next (state : State requestCodec responseCodec) : Event → Option (State requestCodec responseCodec)
  | .sendRequest message =>
      if state.stopping then none
      else some { state with queue := state.queue ++ [.REQUEST message], accepted := state.accepted ++ [message] }
  | .stop =>
      if state.stopping then none else some { state with queue := state.queue ++ [.STOP], stopping := true }
  | .shift =>
      match state.thread, state.queue with
      | .waiting, .REQUEST message :: queue =>
          (state.requests.put message).map fun requests => { state with queue, requests }
      | .waiting, .STOP :: queue =>
          if state.requests.unsent = [] then some { state with queue, thread := .finished } else none
      | _, _ => none
  | .writeRequest count => some { state with requests := state.requests.write count }
  | .getRequest workers => do
      let (message, requests) ← state.requests.get
      redirect closed env (.ready { readRequest := some message, readWorkers := workers })
        { state with requests }
  | .redirect event => if event.reads then none else redirect closed env event state
  | .writeResponse count => some { state with responses := state.responses.write count }
  | .getDecision => state.responses.get.map fun (_, responses) => { state with responses }

/-- The workers are not killed while the redirector process is running. -/
def Step (before after : State requestCodec responseCodec) : Prop :=
  ∃ env event, event ≠ .redirect (.supervise .killWorkers) ∧ next closed env before event = some after ∧
    after.redirector.manager.spawned < maxint

def Start (low high : Nat) (state : State requestCodec responseCodec) : Prop :=
  ∃ redirector, RedirectorReactor.Start low high redirector ∧
    state = ⟨[], .waiting, .empty, redirector, .empty, [], false⟩

/-- Requests with the numbers of the calls that bring them to the manager. -/
def ticketed (requests : List Request) : List Request :=
  requests.mapIdx fun ticket request => { request with ticket }

/-- What holds of the session of the redirector process. -/
structure Served (requests : List Request) (responses : List (Response δ μ)) (session : Session δ μ) : Prop where
  wellFormed : session.manager.WellFormed ∅
  labelled : session.Labelled
  balanced : session.ledger.Balanced
  submitted : session.submitted.reverse = ticketed requests
  answered : responses = (session.answered.map response).reverse

/-- The queue of the thread ends with `STOP` once `stop` was called, and is empty when the
thread has finished. -/
structure Sound (state : State requestCodec responseCodec) : Prop where
  served : Served state.requests.received state.responses.sent state.redirector.session
  queued : state.accepted = state.requests.sent ++ state.queue.filterMap Entry.request
  entries : state.queue = if state.thread = .finished then []
    else (state.queue.filterMap Entry.request).map Entry.REQUEST ++ if state.stopping then [.STOP] else []
  finished : state.thread = .finished → state.stopping = true ∧ state.requests.unsent = []

variable {closed env} {requests : List Request} {responses : List (Response δ μ)} {before after : Session δ μ}
  {taken : Option Request}

theorem ticketed_append (requests : List Request) (request : Request) :
    ticketed (requests ++ [request]) = ticketed requests ++ [{ request with ticket := requests.length }] := by
  simp [ticketed, List.mapIdx_append]

@[simp] theorem length_ticketed (requests : List Request) : (ticketed requests).length = requests.length :=
  List.length_mapIdx

theorem clients_ticketed (requests : List Request) :
    (ticketed requests).map Request.clientId = requests.map Request.clientId := by
  induction requests using List.reverseRecOn with
  | nil => rfl
  | append_singleton earlier request ih => simp [ticketed_append, ih]

theorem Served.serves (served : Served requests responses before)
    (serves : Session.Serves closed taken before after) :
    Served (requests ++ taken.toList) (responses ++ ((before.answer after).map response).toList) after where
  wellFormed := serves.wellFormed
  labelled := serves.labelled served.labelled
  balanced := served.balanced.run serves.ledger
  submitted := by
    have taken_before := served.submitted
    have count : before.submitted.length = requests.length := by
      rw [← List.length_reverse, taken_before, length_ticketed]
    rw [serves.submitted, List.reverse_append, taken_before, count]
    cases taken with
    | none => simp
    | some request => simp [ticketed_append]
  answered := by
    obtain ⟨answer, answered⟩ := serves.answered
    rw [Session.answer_eq answered, answered, served.answered]
    cases answer <;> simp

variable {state moved : State requestCodec responseCodec}

/-- The redirector process sends the decision it came to, and touches nothing else. -/
theorem redirect_cases {event : RedirectorReactor.Event} (redirected : redirect closed env event state = some moved) :
    ∃ redirector responses, RedirectorReactor.move closed env state.redirector event = some redirector ∧
      responses.sent = state.responses.sent ++
        ((state.redirector.session.answer redirector.session).map response).toList ∧
      moved = { state with redirector, responses } := by
  rw [redirect] at redirected
  split at redirected
  · obtain ⟨redirector, followed, sent⟩ := Option.bind_eq_some_iff.mp redirected
    refine ⟨redirector, ?_⟩
    cases answer : state.redirector.session.answer redirector.session with
    | none =>
        rw [answer] at sent
        cases sent
        exact ⟨state.responses, followed, by simp, rfl⟩
    | some answer' =>
        simp only [answer, Option.bind_eq_bind, Option.bind_eq_some_iff] at sent
        obtain ⟨responses, put, same⟩ := sent
        cases same
        exact ⟨responses, followed, (Channel.put_spec put).2.2.2, rfl⟩
  · cases redirected

theorem Sound.redirect {event : RedirectorReactor.Event} (sound : Sound state)
    (living : event ≠ .supervise .killWorkers) {received : List Request}
    (read : received = state.requests.received ++ event.brings.toList)
    {requests : Channel requestCodec} (same : requests.received = received) (sent : requests.sent = state.requests.sent)
    (unsent : requests.unsent = state.requests.unsent)
    (redirected : redirect closed env event { state with requests } = some moved)
    (few : moved.redirector.manager.spawned < maxint) : Sound moved := by
  obtain ⟨redirector, responses, followed, answers, rfl⟩ := redirect_cases redirected
  have serves := RedirectorReactor.move_serves sound.served.wellFormed living followed few
  refine ⟨?_, ?_, sound.entries, ?_⟩
  · have served := sound.served.serves serves
    simp only [same, read, answers]
    exact served
  · simp only [sent]
    exact sound.queued
  · simp only [unsent]
    exact sound.finished

theorem Sound.move {event : Event} (sound : Sound state) (living : event ≠ .redirect (.supervise .killWorkers))
    (stepped : next closed env state event = some moved) (few : moved.redirector.manager.spawned < maxint) :
    Sound moved := by
  obtain ⟨served, queued, entries, finished⟩ := sound
  cases event with
  | sendRequest message =>
      rw [next, Option.ite_none_left_eq_some] at stepped
      obtain ⟨going, ⟨⟩⟩ := stepped
      have waiting : state.thread ≠ .finished := fun left => going (finished left).1
      rw [if_neg waiting, if_neg going, List.append_nil] at entries
      refine ⟨served, ?_, ?_, fun left => absurd left waiting⟩
      · simp [queued, Entry.request]
      · simp only [if_neg waiting, if_neg going]
        rw [entries]
        simp [Entry.request, Function.comp_def]
  | stop =>
      rw [next, Option.ite_none_left_eq_some] at stepped
      obtain ⟨going, ⟨⟩⟩ := stepped
      have waiting : state.thread ≠ .finished := fun left => going (finished left).1
      rw [if_neg waiting, if_neg going, List.append_nil] at entries
      refine ⟨served, ?_, ?_, fun left => absurd left waiting⟩
      · simp [queued, Entry.request]
      · simp only [if_neg waiting, if_true]
        rw [entries]
        simp [Entry.request, Function.comp_def]
  | shift =>
      rw [next] at stepped
      split at stepped
      · next message queue waiting first =>
          obtain ⟨requests, put, rfl⟩ := Option.map_eq_some_iff.mp stepped
          obtain ⟨idle, received, _, sent⟩ := Channel.put_spec put
          rw [first, waiting] at entries
          rw [first, requests_REQUEST] at queued
          simp only [requests_REQUEST, List.map_cons, List.cons_append, reduceCtorEq, if_false, List.cons.injEq,
            true_and] at entries
          refine ⟨by rwa [received], ?_, ?_, fun left => by simp [waiting] at left⟩
          · rw [queued, sent, List.append_assoc, List.singleton_append]
          · simpa [waiting] using entries
      · next queue waiting first =>
          rw [Option.ite_none_right_eq_some] at stepped
          obtain ⟨idle, ⟨⟩⟩ := stepped
          rw [first, waiting] at entries
          rw [first, requests_STOP] at queued
          simp only [requests_STOP, reduceCtorEq, if_false] at entries
          have last : state.stopping = true ∧ queue = [] := by
            cases remaining : queue.filterMap Entry.request with
            | nil =>
                rw [remaining, List.map_nil, List.nil_append] at entries
                split at entries
                · next stopping => exact ⟨stopping, (List.cons.inj entries).2⟩
                · cases entries
            | cons message rest =>
                rw [remaining] at entries
                cases entries
          refine ⟨served, queued, last.2, fun _ => ⟨last.1, idle⟩⟩
      · cases stepped
  | writeRequest count =>
      cases stepped
      refine ⟨served, queued, entries, fun left => ?_⟩
      obtain ⟨stopping, idle⟩ := finished left
      exact ⟨stopping, by simp [Channel.write, idle]⟩
  | getRequest workers =>
      obtain ⟨⟨found, requests⟩, read, redirected⟩ := Option.bind_eq_some_iff.mp stepped
      obtain ⟨message, rfl, _, received, sent⟩ := Channel.get_spec read
      exact Sound.redirect ⟨served, queued, entries, finished⟩ (by simp) received rfl sent
        (Channel.get_unsent read) redirected few
  | redirect event =>
      rw [next, Option.ite_none_left_eq_some] at stepped
      obtain ⟨quiet, redirected⟩ := stepped
      have brings := RedirectorReactor.Event.brings_of_reads (Bool.eq_false_iff.mpr quiet)
      exact Sound.redirect ⟨served, queued, entries, finished⟩ (fun same => living (congrArg Event.redirect same))
        rfl (by simp [brings]) rfl rfl redirected few
  | writeResponse count =>
      cases stepped
      exact ⟨served, queued, entries, finished⟩
  | getDecision =>
      obtain ⟨⟨message, responses⟩, read, rfl⟩ := Option.map_eq_some_iff.mp stepped
      obtain ⟨_, _, _, _, sent⟩ := Channel.get_spec read
      refine ⟨?_, queued, entries, finished⟩
      simpa only [sent] using served

theorem Start.sound {low high : Nat} (start : Start low high state) : Sound state := by
  obtain ⟨redirector, begun, rfl⟩ := start
  obtain ⟨few, env, rfl⟩ := begun
  refine ⟨⟨?_, ⟨by simp, by simp, by simp⟩, ?_, rfl, rfl⟩, rfl, rfl, by simp⟩
  · exact (RedirectorManager.wellFormed_initial low high).spawn (by simpa using few)
  · have quiet : ({ low, high } : RedirectorManager μ).Undisturbed (.spawn env low { low, high }) :=
      RedirectorManager.spawn_undisturbed low { low, high }
    simp only [Ledger.Balanced, Session.ledger, quiet.1]
    rfl

theorem reachable_sound {low high : Nat} (reached : Reachable (Start low high) (Step closed) state) : Sound state :=
  reached.invariant Sound (fun _ start => start.sound)
    fun _ _ _ sound ⟨_, _, living, stepped, few⟩ => sound.move living stepped few

/-- Where the manager has the requests that were handed to it. -/
theorem balanced_count [DecidableEq Request] {session : Session δ μ} (balanced : session.ledger.Balanced)
    (request : Request) : session.submitted.count request =
      (session.manager.queue.map Prod.fst).count request + (session.manager.deferrals.map Prod.fst).count request +
        (session.answered.map Answer.request).count request := by
  have counts := congrArg (Multiset.count request) balanced
  simpa only [Session.ledger, RedirectorManager.tasks, Multiset.map_add, Multiset.map_coe, Multiset.count_add,
    Multiset.coe_count, List.map_map, Function.comp_def] using counts

/-- No request and no decision is under way. -/
structure State.Drained (state : State requestCodec responseCodec) : Prop where
  queue : state.queue.filterMap Entry.request = []
  requests : state.requests.pending = []
  tasks : state.redirector.manager.tasks = 0
  responses : state.responses.pending = []

theorem Sound.drained (sound : Sound state) (drained : state.Drained) :
    (state.responses.received.map Prod.fst).Perm (state.accepted.map Request.clientId) := by
  obtain ⟨⟨_, labelled, balanced, submitted, answered⟩, queued, _, _⟩ := sound
  rw [Channel.sent, drained.responses, List.append_nil] at answered
  rw [drained.queue, Channel.sent, drained.requests, List.append_nil, List.append_nil] at queued
  have settled : state.redirector.session.submitted.Perm
      (state.redirector.session.answered.map Answer.request) := by
    have tasks : state.redirector.session.manager.tasks = 0 := drained.tasks
    simp only [Ledger.Balanced, Session.ledger, tasks, Multiset.map_zero, zero_add, Multiset.map_coe,
      List.map_map] at balanced
    exact Multiset.coe_eq_coe.mp balanced
  have addressed : state.redirector.session.answered.map Answer.clientId =
      (state.redirector.session.answered.map Answer.request).map Request.clientId := by
    rw [List.map_map]
    exact List.map_congr_left labelled.addressed
  rw [queued, ← clients_ticketed, ← submitted, answered, List.map_reverse, List.map_map, List.map_reverse]
  apply (List.reverse_perm _).trans
  apply List.Perm.trans _ (List.reverse_perm _).symm
  have given := settled.symm.map Request.clientId
  rwa [← addressed] at given

/-- In every interleaving of the main process, its thread, the redirector process and the
pipes between them, as long as that process runs and no write is interrupted or fails: it
reads the requests in the order they were sent, each once; one that was read is queued,
deferred or answered, one of the three, once; the decisions come back in the order they were
made, each for its own client; once nothing is under way each request has had its decision;
and when the thread has finished all requests were written. -/
theorem decisions_conserved {low high : Nat} (reached : Reachable (Start low high) (Step closed) state) :
    state.accepted =
      state.requests.received ++ state.requests.pending ++ state.queue.filterMap Entry.request ∧
    (∀ request ∈ ticketed state.requests.received,
      (state.redirector.manager.queue.map Prod.fst).count request +
        (state.redirector.manager.deferrals.map Prod.fst).count request +
        (state.redirector.session.answered.map Answer.request).count request = 1) ∧
    state.responses.received ++ state.responses.pending =
      (state.redirector.session.answered.map response).reverse ∧
    (∀ answer ∈ state.redirector.session.answered, answer.request ∈ ticketed state.requests.received ∧
      answer.clientId = answer.request.clientId) ∧
    (state.Drained → (state.responses.received.map Prod.fst).Perm (state.accepted.map Request.clientId)) ∧
    (state.thread = .finished → state.requests.sent = state.accepted ∧ state.requests.unsent = []) := by
  have sound := reachable_sound reached
  have counted := balanced_count sound.served.balanced
  have once : ∀ request, request ∈ ticketed state.requests.received ↔
      request ∈ state.redirector.session.submitted := fun request => by
    rw [← sound.served.submitted, List.mem_reverse]
  refine ⟨sound.queued, fun request read => ?_, sound.served.answered, fun answer given => ?_, sound.drained,
    fun left => ?_⟩
  · have member := (once request).mp read
    have places := counted request
    rw [sound.served.labelled.distinct.count, if_pos member] at places
    exact places.symm
  · refine ⟨?_, sound.served.labelled.addressed answer given⟩
    have places := counted answer.request
    have present : 0 < (state.redirector.session.answered.map Answer.request).count answer.request :=
      List.count_pos_iff.mpr (List.mem_map_of_mem given)
    exact (once _).mpr (List.count_pos_iff.mp (by omega))
  · have entries := sound.entries
    rw [if_pos left] at entries
    have queued := sound.queued
    rw [entries, List.filterMap_nil, List.append_nil] at queued
    exact ⟨queued.symm, (sound.finished left).2⟩

section Sample

open Util Util.MessageReader

/-- A text in place of the pickle of a request: its fields, one frame after another. -/
def requestPickle : Pickle Request where
  dumps request :=
    [request.clientId, request.acceptAddr, Str.decimal request.acceptPort, request.peer, request.header,
      request.subheader, request.source, Str.decimal request.ticket].flatMap MessageBox.frame
  loads text :=
    match reads 8 text with
    | some ([some clientId, some acceptAddr, some acceptPort, some peer, some header, some subheader,
        some source, some ticket], []) =>
        some ⟨clientId, acceptAddr, acceptPort.digitsValue, peer, header, subheader, source, ticket.digitsValue⟩
    | _ => none
  inverts request := by
    rw [show 8 = [request.clientId, request.acceptAddr, Str.decimal request.acceptPort, request.peer,
      request.header, request.subheader, request.source, Str.decimal request.ticket].length from rfl,
      MessageBox.reads_written]
    simp [Str.digitsValue_decimal]
  eof := rfl

def responsePickle : Pickle (Response Unit Unit) where
  dumps response :=
    [response.1, if response.2 = .enact () then ascii "enact" else ascii "defer"].flatMap MessageBox.frame
  loads text :=
    match reads 2 text with
    | some ([some clientId, some command], []) =>
        some (clientId, if command = ascii "enact" then .enact () else .defer ())
    | _ => none
  inverts response := by
    obtain ⟨clientId, command⟩ := response
    rw [show 2 = [clientId, if command = .enact () then ascii "enact" else ascii "defer"].length from rfl,
      MessageBox.reads_written]
    cases command <;> simp [ascii]
  eof := rfl

abbrev Sample := State (MessageBox.codec requestPickle) (MessageBox.codec responsePickle)

def follow (state : Sample) (move : Env Unit Unit × Event) : Option Sample :=
  if move.2 = .redirect (.supervise .killWorkers) then none
  else (next () move.1 state move.2).filter fun after => after.redirector.manager.spawned < maxint

theorem follow_step {state after : Sample} {move : Env Unit Unit × Event}
    (followed : follow state move = some after) : Step () state after := by
  rw [follow, Option.ite_none_left_eq_some] at followed
  obtain ⟨living, followed⟩ := followed
  obtain ⟨moved, few⟩ := Option.filter_eq_some_iff.mp followed
  exact ⟨move.1, move.2, living, moved, of_decide_eq_true few⟩

/-- Two requests are sent, one decision is made at once and read, and one is left to a child. -/
def exchange : List (Env Unit Unit × Event) :=
  let answering := RedirectorReactor.answering
  let deferring := RedirectorReactor.deferring
  [(answering, .sendRequest Session.sampleRequest), (answering, .shift), (answering, .writeRequest 10),
    (answering, .sendRequest Session.sampleRequest), (answering, .writeRequest 90), (answering, .shift),
    (answering, .redirect .proceed), (answering, .redirect .proceed), (answering, .redirect .proceed),
    (answering, .getRequest []), (answering, .writeRequest 90), (answering, .writeResponse 90),
    (answering, .getDecision), (deferring, .redirect .proceed), (deferring, .redirect .proceed),
    (deferring, .redirect .proceed), (deferring, .getRequest [])]

def opened : Sample := ⟨[], .waiting, .empty, RedirectorReactor.started 1 1, .empty, [], false⟩

theorem decisions_conserved_exchange : ∃ state : Sample,
    state.responses.received = [(Session.sampleRequest.clientId, .enact ())] ∧
    state.accepted = [Session.sampleRequest, Session.sampleRequest] ∧
    ∀ request ∈ ticketed state.requests.received,
      (state.redirector.manager.queue.map Prod.fst).count request +
        (state.redirector.manager.deferrals.map Prod.fst).count request +
        (state.redirector.session.answered.map Answer.request).count request = 1 := by
  have run : ∃ state ∈ exchange.foldlM follow opened,
      state.responses.received = [(Session.sampleRequest.clientId, .enact ())] ∧
      state.accepted = [Session.sampleRequest, Session.sampleRequest] := by
    decide +kernel
  obtain ⟨state, followed, received, accepted⟩ := run
  have reached : Reachable (Start 1 1) (Step ()) state :=
    (Reachable.start ⟨_, ⟨by decide, RedirectorReactor.deferring, rfl⟩, rfl⟩).foldlM
      (fun _ _ _ => follow_step) followed
  exact ⟨state, received, accepted, (decisions_conserved reached).2.1⟩

end Sample

end RedirectorDispatcher

end ExaProxy.Redirector
