import ExaProxy.Redirector.Operations

namespace ExaProxy.Redirector

open ExaProxy.Data

/-! `RedirectorReactor.run` and the supervisor around it.  One state says where
the redirector process is, one event lets it take its next step: the process
proceeds, the poller returns, or the alarm of the supervisor rings. -/

namespace RedirectorManager

variable {δ μ : Type} (env : Env δ μ)

def increaseSpawnLimit (count : Nat) (manager : RedirectorManager μ) : RedirectorManager μ :=
  let low := manager.low + count
  increase env count { manager with
    low
    high := max low manager.high }

def decreaseSpawnLimit (count : Nat) (manager : RedirectorManager μ) : RedirectorManager μ :=
  let high := max 1 (manager.high - count)
  decrease env count { manager with
    high
    low := min high manager.low }

end RedirectorManager

namespace RedirectorReactor

/-- `returned` is with the supervisor, which leaves for good when `run` was false
(`stopped`).  `looping` tests `self.running`, `polling` is about to call
`poller.poll()`.  The readable workers of a turn are walked twice, once for their decisions and
once for the queue; `left` are those the loop has yet to visit. -/
inductive Phase where
  | returned
  | stopped
  | draining
  | looping
  | polling
  | deciding (left workers : List Handle)
  | queueing (left : List Handle)
deriving DecidableEq, Repr

inductive Supervision where
  | provision
  | deprovision
  | respawn
  | killWorkers
  | increaseSpawnLimit (count : Nat)
  | decreaseSpawnLimit (count : Nat)
deriving DecidableEq, Repr

/-- What `poller.poll()` reports.  A `read_request` whose message cannot be read
is a request of `none`. -/
structure Ready where
  control : Bool := false
  readRequest : Option (Option Request) := none
  readWorkers : List Handle := []
deriving DecidableEq, Repr

inductive Event where
  | alarm
  | supervise (supervision : Supervision)
  | ready (events : Ready)
  | proceed
deriving DecidableEq, Repr

structure State (δ μ : Type) where
  session : Session δ μ
  phase : Phase := .returned
  running : Bool := true

variable {δ μ : Type} (closed : δ) (env : Env δ μ)

def State.manager (state : State δ μ) : RedirectorManager μ := state.session.manager

def supervise (session : Session δ μ) : Supervision → Session δ μ
  | .provision => session.apply closed env .provision
  | .deprovision => session.apply closed env .deprovision
  | .respawn => session.apply closed env .respawn
  | .killWorkers => session.apply closed env .killWorkers
  | .increaseSpawnLimit count =>
      { session with manager := session.manager.increaseSpawnLimit env count }
  | .decreaseSpawnLimit count =>
      { session with manager := session.manager.decreaseSpawnLimit env count }

/-- The events of one poll, up to the loop over the readable workers. -/
def receive (events : Ready) (state : State δ μ) : State δ μ :=
  if events.control then { state with phase := .returned }
  else
    match events.readRequest with
    | some none => { state with phase := .stopped }
    | some (some request) =>
        { state with
          session := state.session.apply closed env (.request request)
          phase := .deciding events.readWorkers events.readWorkers }
    | none => { state with phase := .deciding events.readWorkers events.readWorkers }

def proceed (state : State δ μ) : Option (State δ μ) :=
  match state.phase with
  | .returned => some { state with running := true, phase := .draining }
  | .draining => some
      { state with
        session := state.session.apply closed env .doqueue
        phase := if (state.manager.doqueue env closed).2.2.isSome then .draining else .looping }
  | .looping => some { state with phase := if state.running then .polling else .returned }
  | .polling | .stopped => none
  | .deciding (worker :: left) workers => some
      { state with
        session := state.session.apply closed env (.getDecision worker)
        phase := .deciding left workers }
  | .deciding [] workers => some { state with phase := .queueing workers }
  | .queueing (_ :: left) => some
      { state with
        session := state.session.apply closed env .doqueue
        phase := .queueing left }
  | .queueing [] => some { state with phase := .looping }

def move (state : State δ μ) : Event → Option (State δ μ)
  | .alarm => some { state with running := false }
  | .supervise supervision =>
      if state.phase = .returned then
        some { state with session := supervise closed env state.session supervision }
      else none
  | .ready events => if state.phase = .polling then some (receive closed env events state) else none
  | .proceed => proceed closed env state

def Step (before after : State δ μ) : Prop :=
  ∃ env event, move closed env before event = some after ∧ after.manager.spawned < maxint

/-- The supervisor has started its minimum of workers. -/
def Start (low high : Nat) (state : State δ μ) : Prop :=
  low < maxint ∧ ∃ env : Env δ μ,
    state = { session := { manager := RedirectorManager.spawn env low { low, high } } }

end RedirectorReactor

namespace RedirectorManager

variable {δ μ : Type} {env : Env δ μ} {closed : δ} {held : Finset Wid} {manager : RedirectorManager μ}

theorem WellFormed.limit (low high : Nat) (wellFormed : WellFormed held manager) :
    WellFormed held { manager with low := low, high := high } :=
  ⟨⟨wellFormed.partition, wellFormed.idle, wellFormed.heldIdle, wellFormed.stopping,
    wellFormed.nextid, wellFormed.ids⟩,
    ⟨wellFormed.processes, wellFormed.polled, wellFormed.handles⟩⟩

/-- What becomes of a request put to the first of the available workers, with
`retry` for the second try. -/
inductive Attempted (env : Env δ μ) (request : Request) (manager : RedirectorManager μ)
    (retry : RedirectorManager μ → RedirectorManager μ × Option (Command δ μ)) :
    RedirectorManager μ × Option (Command δ μ) → Prop where
  | queued {after : RedirectorManager μ} (none : manager.available = ∅)
      (still : after.available = ∅) : Attempted env request manager retry (after, .none)
  | answered {after : RedirectorManager μ} (wid : Wid) (decision : δ)
      (first : (env.order.walk manager.available).head? = some wid)
      (decided : env.decide wid request = some (.enact decision))
      (available : after.available = manager.available) (queue : after.queue = manager.queue) :
      Attempted env request manager retry (after, some (.enact decision))
  | deferred {after : RedirectorManager μ} (wid : Wid) (message : μ)
      (first : (env.order.walk manager.available).head? = some wid)
      (decided : env.decide wid request = some (.defer message)) (free : wid ∈ manager.available)
      (available : after.available = manager.available.erase wid)
      (queue : after.queue = manager.queue) : Attempted env request manager retry (after, .none)
  | failed {reaped : RedirectorManager μ} (wid : Wid)
      (first : (env.order.walk manager.available).head? = some wid)
      (decided : env.decide wid request = .none) (free : wid ∈ manager.available)
      (wellFormed : WellFormed ∅ reaped) (available : reaped.available = manager.available.erase wid)
      (queue : reaped.queue = manager.queue) : Attempted env request manager retry (retry reaped)

section Attempt

variable {request : Request} {tainted : Bool}
  {retry : RedirectorManager μ → RedirectorManager μ × Option (Command δ μ)}

theorem WellFormed.attempted (wellFormed : WellFormed ∅ manager)
    (shrinks : ∀ reaped, WellFormed ∅ reaped → reaped.Shrinks (retry reaped).1) :
    Attempted env request manager retry (manager.attempt env request tainted retry) := by
  unfold RedirectorManager.attempt
  rcases wellFormed.acquire env with ⟨empty, found⟩ | ⟨wid, free, first, found⟩
  · rw [found]
    exact .queued empty empty
  · rw [found]
    have holding := wellFormed.hold free
    have known : wid ∈ manager.worker := (wellFormed.partition wid).mpr (.inl free)
    cases decided : env.decide wid request with
    | some command =>
        cases command with
        | enact decision =>
            have idle : wid ∉ manager.stopping := fun stopping =>
              (wellFormed.stopping wid stopping).elim (wellFormed.idle wid free) (Finset.notMem_empty wid)
            dsimp only
            rw [decided, RedirectorManager.release, if_pos known, if_neg idle]
            exact .answered wid decision first decided (Finset.insert_erase free) rfl
        | defer message =>
            dsimp only
            rw [decided]
            exact .deferred wid message first decided free rfl rfl
    | none =>
        have reaped := (holding.logFailure request).reap wid
        rw [Finset.erase_singleton] at reaped
        dsimp only
        rw [decided]
        dsimp only
        rw [release_absent (shrinks _ reaped).absent]
        refine .failed wid first decided free reaped ?_ (reap_queue _ _)
        have listed : wid ∈ (RedirectorManager.logFailure request
            { manager with available := manager.available.erase wid }).worker := known
        rw [reap_available, if_pos listed]
        exact Finset.erase_eq_of_notMem (Finset.notMem_erase wid _)

/-- No worker becomes free, and the queue only grows when none is left. -/
def Keeps (before after : RedirectorManager μ) : Prop :=
  after.available = ∅ ∨ after.available ⊆ before.available ∧ after.queue = before.queue

theorem Attempted.keeps {result : RedirectorManager μ × Option (Command δ μ)}
    (attempted : Attempted env request manager retry result)
    (retried : ∀ reaped, WellFormed ∅ reaped → reaped.Keeps (retry reaped).1) :
    manager.Keeps result.1 := by
  cases attempted with
  | queued _ still => exact .inl still
  | answered _ _ _ _ available queue => exact .inr ⟨available.subset, queue⟩
  | deferred wid _ _ _ _ available queue =>
      exact .inr ⟨available.subset.trans (Finset.erase_subset wid _), queue⟩
  | @failed reaped wid _ _ _ wellFormed available queue =>
      rcases retried reaped wellFormed with empty | ⟨fewer, same⟩
      · exact .inl empty
      · rw [available] at fewer
        exact .inr ⟨fewer.trans (Finset.erase_subset wid _), same.trans queue⟩

theorem WellFormed.request_tainted (wellFormed : WellFormed ∅ manager) :
    Attempted env request manager (fun manager => (manager, some (.enact closed)))
      (manager.request env closed request true) :=
  wellFormed.attempted fun _ _ _ member => member

theorem WellFormed.request_untainted (wellFormed : WellFormed ∅ manager) :
    Attempted env request manager (fun reaped => reaped.request env closed request true)
      (manager.request env closed request false) :=
  wellFormed.attempted fun _ formed => (formed.request request true).2

theorem WellFormed.request_keeps (env : Env δ μ) (closed : δ) (request : Request) (tainted : Bool)
    (wellFormed : WellFormed ∅ manager) :
    manager.Keeps (manager.request env closed request tainted).1 := by
  have last : ∀ reaped : RedirectorManager μ, WellFormed ∅ reaped →
      reaped.Keeps (reaped.request env closed request true).1 := fun reaped formed =>
    formed.request_tainted.keeps fun _ _ => .inr ⟨subset_rfl, rfl⟩
  cases tainted with
  | true => exact last manager wellFormed
  | false => exact wellFormed.request_untainted.keeps last

end Attempt

theorem reap_available_subset (wid : Wid) (manager : RedirectorManager μ) :
    (manager.reap wid).available ⊆ manager.available := by
  rw [reap_available]
  split
  · exact Finset.erase_subset wid _
  · exact subset_rfl

theorem release_frees (wid : Wid) (manager : RedirectorManager μ) :
    (manager.release wid).available ⊆ insert wid manager.available ∧
      (manager.release wid).queue = manager.queue := by
  unfold release
  split
  · split
    · exact ⟨(reap_available_subset wid manager).trans (Finset.subset_insert wid _), reap_queue _ _⟩
    · exact ⟨subset_rfl, rfl⟩
  · exact ⟨Finset.subset_insert wid _, rfl⟩

/-- A readable worker frees at most itself. -/
theorem WellFormed.getDecision_frees (env : Env δ μ) (closed : δ) (pipe : Handle)
    (wellFormed : WellFormed ∅ manager) :
    (manager.getDecision env closed pipe).1.available = ∅ ∨
      (manager.getDecision env closed pipe).1.available.card ≤ manager.available.card + 1 ∧
        (manager.getDecision env closed pipe).1.queue = manager.queue := by
  unfold RedirectorManager.getDecision
  split
  · exact .inr ⟨Nat.le_succ _, rfl⟩
  · rename_i wid _
    split
    · exact .inr ⟨(Finset.card_le_card (reap_available_subset wid manager)).trans (Nat.le_succ _),
        reap_queue _ _⟩
    · rename_i deferred message tainted found
      have released := (wellFormed.progress (lookup_mem found)).release
      obtain ⟨freed, queue⟩ := release_frees wid (manager.progress wid)
      have atMostOne : ((manager.progress wid).release wid).available.card ≤
          manager.available.card + 1 :=
        (Finset.card_le_card freed).trans (Finset.card_insert_le wid _)
      dsimp only
      split
      · exact .inr ⟨atMostOne, queue⟩
      · have reaped := (released.logFailure deferred).reap wid
        have fewer := reap_available_subset wid
          (((manager.progress wid).release wid).logFailure deferred)
        have left := (Finset.card_le_card fewer).trans atMostOne
        have still := (reap_queue (((manager.progress wid).release wid).logFailure deferred) wid).trans queue
        split
        · exact .inr ⟨left, still⟩
        · rcases WellFormed.request_keeps env closed deferred true reaped with empty | ⟨kept, same⟩
          · exact .inl empty
          · exact .inr ⟨(Finset.card_le_card kept).trans left, same.trans still⟩

end RedirectorManager

namespace RedirectorReactor

variable {δ μ : Type} (env : Env δ μ)

/-- Does asking `free` workers end with a deferral while one of them is left?
`retry` is asked about the others when the first fails. -/
def strandsOr (request : Request) (retry : Finset Wid → Bool) (free : Finset Wid) : Bool :=
  match (env.order.walk free).head? with
  | none => false
  | some wid =>
      match env.decide wid request with
      | some (.enact _) => false
      | some (.defer _) => decide ((free.erase wid).Nonempty)
      | none => retry (free.erase wid)

def strands (request : Request) : Bool → Finset Wid → Bool
  | true => strandsOr env request fun _ => false
  | false => strandsOr env request (strandsOr env request fun _ => false)

/-- Does the first of the `free` workers answer without its child? -/
def answersAtOnce (request : Request) (free : Finset Wid) : Bool :=
  match (env.order.walk free).head? with
  | none => false
  | some wid => (env.decide wid request matches some (.enact _))

/-- The initial loop defers no request while another one and another worker
wait.  A turn answers no request at once when it has as many free workers, and
more requests, than calls of `doqueue` to come. -/
def orderly (phase : Phase) (manager : RedirectorManager μ) : Bool :=
  match phase, manager.queue with
  | .draining, (request, tainted) :: _ :: _ => !strands env request tainted manager.available
  | .queueing (_ :: left), (request, _) :: rest =>
      !(answersAtOnce env request manager.available && left.length < rest.length &&
        left.length < manager.available.card)
  | _, _ => true

variable {env} {closed : δ} {request : Request} {manager : RedirectorManager μ}
  {retry : RedirectorManager μ → RedirectorManager μ × Option (Command δ μ)}
  {result : RedirectorManager μ × Option (Command δ μ)}

/-- Nothing can be done before the next event: no worker is free or no request
waits. -/
def Exhausted (manager : RedirectorManager μ) : Prop :=
  manager.available = ∅ ∨ manager.queue = []

theorem exhausted_of_silent (others : Finset Wid → Bool)
    (attempted : manager.Attempted env request retry result) (silent : result.2 = none)
    (kept : manager.queue = [] ∨ strandsOr env request others manager.available = false)
    (retried : ∀ reaped, reaped.WellFormed ∅ → (retry reaped).2 = none →
      (reaped.queue = [] ∨ others reaped.available = false) → Exhausted (retry reaped).1) :
    Exhausted result.1 := by
  cases attempted with
  | queued _ still => exact .inl still
  | answered => cases silent
  | deferred wid message first decided _ available queue =>
      rcases kept with empty | kept
      · exact .inr (queue.trans empty)
      · simp only [strandsOr, first, decided, decide_eq_false_iff_not,
          Finset.not_nonempty_iff_eq_empty] at kept
        exact .inl (available.trans kept)
  | failed wid first decided _ wellFormed available queue =>
      apply retried _ wellFormed silent
      rw [queue, available]
      simpa only [strandsOr, first, decided] using kept

theorem request_exhausts {tainted : Bool} (wellFormed : manager.WellFormed ∅)
    (silent : (manager.request env closed request tainted).2 = none)
    (kept : manager.queue = [] ∨ strands env request tainted manager.available = false) :
    Exhausted (manager.request env closed request tainted).1 := by
  have last : ∀ reaped : RedirectorManager μ, reaped.WellFormed ∅ →
      (reaped.request env closed request true).2 = none →
      (reaped.queue = [] ∨ strands env request true reaped.available = false) →
      Exhausted (reaped.request env closed request true).1 := fun reaped formed silent kept =>
    exhausted_of_silent (fun _ => false) formed.request_tainted silent kept
      fun _ _ closed => nomatch closed
  cases tainted with
  | true => exact last manager wellFormed silent kept
  | false => exact exhausted_of_silent _ wellFormed.request_untainted silent kept last

theorem doqueue_cases (env : Env δ μ) (closed : δ) (manager : RedirectorManager μ) :
    Exhausted manager ∧ manager.doqueue env closed = (manager, none, none) ∨
    ∃ queued tainted rest, manager.queue = (queued, tainted) :: rest ∧
      ∃ result, result = ({ manager with queue := rest } : RedirectorManager μ).request env closed
        queued tainted ∧ manager.doqueue env closed = (result.1, some queued.clientId, result.2) := by
  unfold RedirectorManager.doqueue
  split
  · rename_i empty
    exact .inl ⟨.inr empty, rfl⟩
  · rename_i queued tainted rest waiting
    split
    · rename_i empty
      exact .inl ⟨.inl empty, rfl⟩
    · exact .inr ⟨queued, tainted, rest, waiting, _, rfl, rfl⟩

theorem doqueue_exhausts (wellFormed : manager.WellFormed ∅)
    (ordered : orderly env .draining manager = true)
    (silent : (manager.doqueue env closed).2.2 = none) :
    Exhausted (manager.doqueue env closed).1 := by
  rcases doqueue_cases env closed manager with
    ⟨exhausted, called⟩ | ⟨queued, tainted, rest, waiting, _, rfl, called⟩
  · rw [called]
    exact exhausted
  · rw [called] at silent ⊢
    apply request_exhausts (wellFormed.enqueue rest) silent
    cases rest with
    | nil => exact .inl rfl
    | cons next rest =>
        simp only [orderly, waiting, Bool.not_eq_true'] at ordered
        exact .inr ordered

theorem spends (attempted : manager.Attempted env request retry result)
    (retried : ∀ reaped : RedirectorManager μ, reaped.WellFormed ∅ → reaped.Keeps (retry reaped).1) :
    result.1.available = ∅ ∨ result.1.queue = manager.queue ∧
      (answersAtOnce env request manager.available = true ∧ result.1.available = manager.available ∨
        result.1.available.card < manager.available.card) := by
  cases attempted with
  | queued _ still => exact .inl still
  | answered wid decision first decided available queue =>
      exact .inr ⟨queue, .inl ⟨by simp [answersAtOnce, first, decided], available⟩⟩
  | deferred wid message first decided free available queue =>
      refine .inr ⟨queue, .inr ?_⟩
      rw [available]
      exact Finset.card_erase_lt_of_mem free
  | @failed reaped wid first decided free wellFormed available queue =>
      rcases retried reaped wellFormed with empty | ⟨fewer, same⟩
      · exact .inl empty
      · refine .inr ⟨same.trans queue, .inr ?_⟩
        rw [available] at fewer
        exact Nat.lt_of_le_of_lt (Finset.card_le_card fewer) (Finset.card_erase_lt_of_mem free)

theorem request_spends (env : Env δ μ) (closed : δ) (request : Request) (tainted : Bool)
    (wellFormed : manager.WellFormed ∅) :
    (manager.request env closed request tainted).1.available = ∅ ∨
      (manager.request env closed request tainted).1.queue = manager.queue ∧
      (answersAtOnce env request manager.available = true ∧
          (manager.request env closed request tainted).1.available = manager.available ∨
        (manager.request env closed request tainted).1.available.card < manager.available.card) := by
  cases tainted with
  | true => exact spends wellFormed.request_tainted fun _ _ => .inr ⟨subset_rfl, rfl⟩
  | false =>
      exact spends wellFormed.request_untainted fun reaped formed =>
        formed.request_keeps env closed request true

/-- `calls` further calls of `doqueue` use up the queue or the free workers. -/
def Manageable (calls : Nat) (manager : RedirectorManager μ) : Prop :=
  manager.available.card ≤ calls ∨ manager.queue.length ≤ calls

theorem manageable_zero : Manageable 0 manager ↔ Exhausted manager := by
  simp [Manageable, Exhausted]

theorem doqueue_manages {worker : Handle} {left : List Handle} (wellFormed : manager.WellFormed ∅)
    (ordered : orderly env (.queueing (worker :: left)) manager = true)
    (manageable : Manageable (left.length + 1) manager) :
    Manageable left.length (manager.doqueue env closed).1 := by
  rcases doqueue_cases env closed manager with
    ⟨exhausted, called⟩ | ⟨queued, tainted, rest, waiting, _, rfl, called⟩
  · rw [called]
    exact (manageable_zero.mpr exhausted).imp (·.trans (Nat.zero_le _)) (·.trans (Nat.zero_le _))
  · rw [called]
    simp only [orderly, waiting, Bool.not_eq_true', Bool.and_eq_false_iff, decide_eq_false_iff_not]
      at ordered
    simp only [Manageable, waiting, List.length_cons] at manageable
    rcases request_spends env closed queued tainted (wellFormed.enqueue rest) with
      empty | ⟨queue, ⟨atOnce, same⟩ | fewer⟩
    · exact .inl (by simp [empty])
    · -- the worker is free again, so it is the queue or the other workers that run out
      have settled : ¬ left.length < rest.length ∨ ¬ left.length < manager.available.card := by
        rcases ordered with (contrary | few) | few
        · rw [atOnce] at contrary
          cases contrary
        · exact .inl few
        · exact .inr few
      simp only [Manageable, queue, same]
      omega
    · simp only [Manageable, queue]
      dsimp only at fewer
      omega

/-- What holds in each phase.  While the readable workers are asked, only those
already asked can have become free beside a queue. -/
def Caught (state : State δ μ) : Prop :=
  match state.phase with
  | .looping | .polling => Exhausted state.manager
  | .deciding left workers => ∃ asked : Nat, asked + left.length = workers.length ∧
      (state.manager.available.card ≤ asked ∨ state.manager.queue = [])
  | .queueing left => Manageable left.length state.manager
  | .returned | .stopped | .draining => True

variable {state before after : State δ μ}

theorem supervise_wellFormed {supervision : Supervision} {session : Session δ μ}
    (wellFormed : session.manager.WellFormed ∅)
    (few : (supervise closed env session supervision).manager.spawned < maxint) :
    (supervise closed env session supervision).manager.WellFormed ∅ := by
  have applied : ∀ operation, (session.apply closed env operation).manager.spawned < maxint →
      (session.apply closed env operation).manager.WellFormed ∅ := fun operation few =>
    (show Session.Step closed (fun _ => true) session _ from ⟨env, operation, rfl, rfl, few⟩).wellFormed
      wellFormed
  cases supervision with
  | provision => exact applied .provision few
  | deprovision => exact applied .deprovision few
  | respawn => exact applied .respawn few
  | killWorkers => exact applied .killWorkers few
  | increaseSpawnLimit count => exact (wellFormed.limit _ _).increase few
  | decreaseSpawnLimit count => exact (wellFormed.limit _ _).decrease count

theorem receive_cases (events : Ready) (state : State δ μ) :
    ((receive closed env events state).session = state.session ∧
      ((receive closed env events state).phase = .returned ∨
        (receive closed env events state).phase = .stopped)) ∨
    ((receive closed env events state).phase = .deciding events.readWorkers events.readWorkers ∧
      ((receive closed env events state).session = state.session ∨
        ∃ request, (receive closed env events state).session =
          state.session.apply closed env (.request request))) := by
  unfold receive
  split
  · exact .inl ⟨rfl, .inl rfl⟩
  · split
    · exact .inl ⟨rfl, .inr rfl⟩
    · exact .inr ⟨rfl, .inr ⟨_, rfl⟩⟩
    · exact .inr ⟨rfl, .inl rfl⟩

/-- The pool is in order and so is what its phase promises. -/
structure Sound (state : State δ μ) : Prop where
  wellFormed : state.manager.WellFormed ∅
  caught : Caught state

theorem Sound.receive (sound : Sound before) (polling : before.phase = .polling) (events : Ready) :
    Sound (receive closed env events before) := by
  have exhausted : Exhausted before.manager := by simpa only [Caught, polling] using sound.caught
  rcases receive_cases events before with
    ⟨same, left⟩ | ⟨deciding, asked⟩
  · refine ⟨by rw [State.manager, same]; exact sound.wellFormed, ?_⟩
    rcases left with left | left <;> simp only [Caught, left]
  · have settled : (RedirectorReactor.receive closed env events before).manager.WellFormed ∅ ∧
        Exhausted (RedirectorReactor.receive closed env events before).manager := by
      rcases asked with same | ⟨request, same⟩
      · rw [State.manager, same]
        exact ⟨sound.wellFormed, exhausted⟩
      · rw [State.manager, same]
        refine ⟨(sound.wellFormed.request _ false).1, ?_⟩
        rcases sound.wellFormed.request_keeps env closed _ false with empty | ⟨fewer, queue⟩
        · exact .inl empty
        · rcases exhausted with empty | empty
          · rw [empty] at fewer
            exact .inl (Finset.subset_empty.mp fewer)
          · exact .inr (queue.trans empty)
    refine ⟨settled.1, ?_⟩
    simp only [Caught, deciding]
    exact ⟨0, Nat.zero_add _, settled.2.imp (fun empty => by simp [empty]) id⟩

theorem Sound.proceed (sound : Sound before)
    (ordered : orderly env before.phase before.manager = true)
    (proceeded : proceed closed env before = some after) : Sound after := by
  obtain ⟨wellFormed, caught⟩ := sound
  rw [RedirectorReactor.proceed] at proceeded
  split at proceeded <;> rename_i phase <;>
    simp only [Caught, phase] at caught <;> rw [phase] at ordered <;> cases proceeded
  · exact ⟨wellFormed, trivial⟩
  · refine ⟨wellFormed.doqueue, ?_⟩
    cases command : (before.manager.doqueue env closed).2.2 with
    | some command => exact trivial
    | none => exact doqueue_exhausts wellFormed ordered command
  · refine ⟨wellFormed, ?_⟩
    cases before.running with
    | true => exact caught
    | false => exact trivial
  · rename_i worker _ _
    obtain ⟨asked, total, backlog⟩ := caught
    refine ⟨wellFormed.getDecision worker, asked + 1, by rw [List.length_cons] at total; omega, ?_⟩
    rcases wellFormed.getDecision_frees env closed worker with empty | ⟨freed, queue⟩
    · exact .inl ((Finset.card_eq_zero.mpr empty).le.trans (Nat.zero_le _))
    · exact backlog.imp (fun few => freed.trans (Nat.succ_le_succ few)) queue.trans
  · obtain ⟨asked, total, backlog⟩ := caught
    rw [List.length_nil, Nat.add_zero] at total
    exact ⟨wellFormed, backlog.imp (fun few => few.trans total.le)
      (fun empty => (List.length_eq_zero_iff.mpr empty).le.trans (Nat.zero_le _))⟩
  · exact ⟨wellFormed.doqueue, doqueue_manages wellFormed ordered caught⟩
  · exact ⟨wellFormed, manageable_zero.mp caught⟩

theorem Sound.move {event : Event} (sound : Sound before)
    (ordered : event = .proceed → orderly env before.phase before.manager = true)
    (moved : move closed env before event = some after) (few : after.manager.spawned < maxint) :
    Sound after := by
  cases event with
  | alarm =>
      cases moved
      exact ⟨sound.wellFormed, sound.caught⟩
  | supervise supervision =>
      rw [RedirectorReactor.move, Option.ite_none_right_eq_some] at moved
      obtain ⟨returned, ⟨⟩⟩ := moved
      exact ⟨supervise_wellFormed sound.wellFormed few, by simp only [Caught, returned]⟩
  | ready events =>
      rw [RedirectorReactor.move, Option.ite_none_right_eq_some] at moved
      obtain ⟨polling, ⟨⟩⟩ := moved
      exact sound.receive polling events
  | proceed => exact sound.proceed (ordered rfl) moved

/-- A step in which the process proceeds only in good order. -/
def OrderlyStep (closed : δ) (before after : State δ μ) : Prop :=
  ∃ env event, (event = .proceed → orderly env before.phase before.manager = true) ∧
    move closed env before event = some after ∧ after.manager.spawned < maxint

theorem Start.sound {low high : Nat} (start : Start low high state) : Sound state := by
  obtain ⟨few, env, rfl⟩ := start
  exact ⟨(RedirectorManager.wellFormed_initial low high).spawn (by simpa using few), trivial⟩

/-- In an orderly run no worker is idle beside a backlog when the process is
about to wait for events. -/
theorem exhausted_of_polling {low high : Nat}
    (reached : Reachable (Start low high) (OrderlyStep closed) state)
    (polling : state.phase = .polling) : Exhausted state.manager := by
  have sound : Sound state := reached.invariant Sound (fun _ start => start.sound)
    fun _ _ _ sound ⟨_, _, ordered, moved, few⟩ => sound.move ordered moved few
  simpa only [Caught, polling] using sound.caught

/-- One move of a run, in surroundings of its own. -/
def follow (state : State Unit Unit) (next : Env Unit Unit × Event) : Option (State Unit Unit) :=
  (move () next.1 state next.2).filter fun after => after.manager.spawned < maxint

def followOrderly (state : State Unit Unit) (next : Env Unit Unit × Event) :
    Option (State Unit Unit) :=
  if next.2 = .proceed → orderly next.1 state.phase state.manager then follow state next else none

theorem follow_step {state after : State Unit Unit} {next : Env Unit Unit × Event}
    (followed : follow state next = some after) : Step () state after := by
  obtain ⟨moved, few⟩ := Option.filter_eq_some_iff.mp followed
  exact ⟨next.1, next.2, moved, of_decide_eq_true few⟩

theorem followOrderly_step {state after : State Unit Unit} {next : Env Unit Unit × Event}
    (followed : followOrderly state next = some after) : OrderlyStep () state after := by
  rw [followOrderly, Option.ite_none_right_eq_some] at followed
  obtain ⟨moved, few⟩ := Option.filter_eq_some_iff.mp followed.2
  exact ⟨next.1, next.2, followed.1, moved, of_decide_eq_true few⟩

/-- Surroundings in which every decision is deferred to the child, or every one
is given at once. -/
def deferring : Env Unit Unit := Session.uniform (some (.defer ()))

def answering : Env Unit Unit :=
  { Session.uniform (some (.enact ())) with progress := fun _ _ _ => some (.enact ()) }

/-- The supervisor has started `low` workers and calls `run`. -/
def started (low high : Nat) : State Unit Unit :=
  { session := { manager := RedirectorManager.spawn deferring low { low, high } } }

theorem started_reached {low high : Nat} {step : State Unit Unit → State Unit Unit → Prop}
    (few : low < maxint) : Reachable (Start low high) step (started low high) :=
  .start ⟨few, deferring, rfl⟩

def proceeds (count : Nat) (env : Env Unit Unit) : List (Env Unit Unit × Event) :=
  List.replicate count (env, .proceed)

/-- A request arrives, which is handled or queued, and the loop comes round. -/
def submits (env : Env Unit Unit) : List (Env Unit Unit × Event) :=
  (env, .ready { readRequest := some (some Session.sampleRequest) }) :: proceeds 3 env

/-- One worker defers a request while two more are queued, then its child answers. -/
def oneAnswer : List (Env Unit Unit × Event) :=
  proceeds 3 deferring ++ submits deferring ++ submits deferring ++ submits deferring ++
    (answering, .ready { readWorkers := [0] }) :: proceeds 5 answering

/-- Two workers are busy and two requests queued when the pool is provisioned. -/
def provisioned : List (Env Unit Unit × Event) :=
  proceeds 3 deferring ++ submits deferring ++ submits deferring ++ submits deferring ++
    submits deferring ++ (deferring, .ready { control := true }) ::
      (deferring, .supervise .provision) :: proceeds 3 deferring

theorem exhausted_deferring : ∃ state : State Unit Unit, state.phase = .polling ∧
    state.manager.queue.length = 2 ∧ Exhausted state.manager := by
  have busy : ∃ state ∈ (proceeds 3 deferring ++ submits deferring ++ submits deferring ++
      submits deferring).foldlM followOrderly (started 1 1),
      state.phase = .polling ∧ state.manager.queue.length = 2 := by
    decide +kernel
  obtain ⟨state, followed, polling, queued⟩ := busy
  have reached : Reachable (Start 1 1) (OrderlyStep ()) state :=
    (started_reached (by decide)).foldlM (fun _ _ _ moved => followOrderly_step moved) followed
  exact ⟨state, polling, queued, exhausted_of_polling reached polling⟩

/-- A worker is idle beside a backlog after a turn whose one call of `doqueue`
was answered at once, and after an initial loop that stopped at a deferral. -/
theorem idle_beside_backlog :
    (∃ state : State Unit Unit, Reachable (Start 1 1) (Step ()) state ∧ state.phase = .polling ∧
      ¬ (state.manager.available = ∅ ∨ state.manager.queue = [])) ∧
    ∃ state : State Unit Unit, Reachable (Start 2 10) (Step ()) state ∧ state.phase = .polling ∧
      ¬ (state.manager.available = ∅ ∨ state.manager.queue = []) := by
  have turn : ∃ state ∈ oneAnswer.foldlM follow (started 1 1), state.phase = .polling ∧
      ¬ (state.manager.available = ∅ ∨ state.manager.queue = []) := by
    decide +kernel
  have drained : ∃ state ∈ provisioned.foldlM follow (started 2 10), state.phase = .polling ∧
      ¬ (state.manager.available = ∅ ∨ state.manager.queue = []) := by
    decide +kernel
  obtain ⟨first, firstRun, firstIdle⟩ := turn
  obtain ⟨second, secondRun, secondIdle⟩ := drained
  exact ⟨⟨first, (started_reached (by decide)).foldlM (fun _ _ _ => follow_step) firstRun, firstIdle⟩,
    ⟨second, (started_reached (by decide)).foldlM (fun _ _ _ => follow_step) secondRun, secondIdle⟩⟩

end RedirectorReactor

end ExaProxy.Redirector
