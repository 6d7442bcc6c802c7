import ExaProxy.Data.Ledger
import ExaProxy.Redirector.Operations

namespace ExaProxy.Redirector

open ExaProxy.Data

/-! The manager keeps a ledger.  Its outstanding jobs are the queued requests
and the ones workers have deferred, and a tainted request is a marked job. -/

namespace RedirectorManager

variable {δ μ : Type} {env : Env δ μ} {closed : δ} {manager : RedirectorManager μ} {wid : Wid}

/-- The requests that workers have deferred to their child processes, each with
its tainted flag. -/
def deferrals (manager : RedirectorManager μ) : List (Request × Bool) :=
  manager.active.entries.map fun entry => (entry.2.1, entry.2.2.2)

/-- Every request the manager has still to answer. -/
def tasks (manager : RedirectorManager μ) : Multiset (Request × Bool) :=
  (manager.queue : Multiset (Request × Bool)) + (manager.deferrals : Multiset (Request × Bool))

theorem tasks_congr {other : RedirectorManager μ} (queue : other.queue = manager.queue)
    (active : other.active = manager.active) : other.tasks = manager.tasks := by
  simp only [tasks, deferrals, queue, active]

/-- A worker that takes on a task was not busy with another one. -/
theorem tasks_persist (idle : wid ∉ manager.active) (request : Request) (message : μ)
    (tainted : Bool) :
    (manager.persist wid (request, message, tainted)).tasks =
      (request, tainted) ::ₘ manager.tasks := by
  simp only [tasks, deferrals, persist, AList.entries_insert_of_notMem idle, List.map_cons,
    ← Multiset.cons_coe, Multiset.add_cons]

theorem tasks_progress {request : Request} {message : μ} {tainted : Bool}
    (found : manager.active.lookup wid = some (request, message, tainted)) :
    manager.tasks = (request, tainted) ::ₘ (manager.progress wid).tasks := by
  have perm := (entries_perm_erase found).map
    fun entry : (_ : Wid) × (Request × μ × Bool) => (entry.2.1, entry.2.2.2)
  simp only [tasks, deferrals, progress, Multiset.coe_eq_coe.mpr perm, List.map_cons, ← Multiset.cons_coe,
    Multiset.add_cons]

theorem tasks_enqueue (request : Request) (tainted : Bool) :
    { manager with queue := manager.queue ++ [(request, tainted)] }.tasks =
      (request, tainted) ::ₘ manager.tasks := by
  have joined : ((manager.queue ++ [(request, tainted)] : List (Request × Bool)) :
      Multiset (Request × Bool)) = (request, tainted) ::ₘ manager.queue :=
    Multiset.coe_eq_coe.mpr List.perm_append_comm
  simp only [tasks, deferrals, joined, Multiset.cons_add]

theorem tasks_dequeue {request : Request} {tainted : Bool} {rest : List (Request × Bool)}
    (queued : manager.queue = (request, tainted) :: rest) :
    manager.tasks = (request, tainted) ::ₘ { manager with queue := rest }.tasks := by
  simp only [tasks, deferrals, queued, ← Multiset.cons_coe, Multiset.cons_add]

theorem reap_tasks (idle : wid ∉ manager.active) : (manager.reap wid).tasks = manager.tasks := by
  refine tasks_congr (reap_queue manager wid) ?_
  rw [reap_active, erase_absent idle, ite_self]

theorem fail_tasks (request : Request) (idle : wid ∉ manager.active) :
    ((manager.logFailure request).reap wid).tasks = manager.tasks :=
  reap_tasks (show wid ∉ (manager.logFailure request).active from idle)

theorem release_tasks (idle : wid ∉ manager.active) :
    (manager.release wid).tasks = manager.tasks := by
  unfold release
  split
  · split
    · exact reap_tasks idle
    · rfl
  · rfl

theorem release_idle (idle : wid ∉ manager.active) : wid ∉ (manager.release wid).active := by
  unfold release
  split
  · split
    · rw [reap_active, erase_absent idle, ite_self]
      exact idle
    · exact idle
  · exact idle

@[simp] theorem release_failures : (manager.release wid).failures = manager.failures := by
  unfold release
  split
  · split
    · exact reap_failures manager wid
    · rfl
  · rfl

/-- The operations that leave every task and every failure as it was. -/
def Undisturbed (before after : RedirectorManager μ) : Prop :=
  after.tasks = before.tasks ∧ after.failures = before.failures

theorem undisturbed_refl (manager : RedirectorManager μ) : manager.Undisturbed manager := ⟨rfl, rfl⟩

theorem Undisturbed.trans {before between after : RedirectorManager μ}
    (first : before.Undisturbed between) (second : between.Undisturbed after) :
    before.Undisturbed after :=
  ⟨second.1.trans first.1, second.2.trans first.2⟩

theorem spawn_undisturbed (number : Nat) (manager : RedirectorManager μ) :
    manager.Undisturbed (spawn env number manager) := by
  induction number generalizing manager with
  | zero => exact undisturbed_refl manager
  | succ number ih =>
      have one : manager.Undisturbed (manager.spawnOne env) :=
        ⟨tasks_congr (spawnOne_queue env manager) (spawnOne_active env manager),
          spawnOne_failures env manager⟩
      exact one.trans (ih (manager.spawnOne env))

theorem stopWorker_undisturbed (wid : Wid) (manager : RedirectorManager μ) :
    manager.Undisturbed (manager.stopWorker wid) := by
  unfold stopWorker
  split
  · exact undisturbed_refl manager
  · rename_i idle
    exact ⟨reap_tasks idle, reap_failures manager wid⟩

theorem stopAll_undisturbed (wids : List Wid) (manager : RedirectorManager μ) :
    manager.Undisturbed (wids.foldl (fun m wid => m.stopWorker wid) manager) := by
  induction wids generalizing manager with
  | nil => exact undisturbed_refl manager
  | cons wid rest ih => exact (stopWorker_undisturbed wid manager).trans (ih _)

theorem respawn_undisturbed : manager.Undisturbed (manager.respawn env) :=
  (stopAll_undisturbed (manager.workers env) manager).trans (spawn_undisturbed _ _)

theorem decreaseOne_undisturbed : manager.Undisturbed (manager.decreaseOne env) := by
  unfold decreaseOne
  split
  · split
    · exact stopWorker_undisturbed _ manager
    · exact undisturbed_refl manager
  · exact undisturbed_refl manager

theorem increaseOne_undisturbed : manager.Undisturbed (manager.increaseOne env) := by
  unfold increaseOne
  split
  · exact spawn_undisturbed 1 manager
  · exact undisturbed_refl manager

theorem iterate_undisturbed {operation : RedirectorManager μ → RedirectorManager μ}
    (once : ∀ m : RedirectorManager μ, m.Undisturbed (operation m)) (count : Nat)
    (manager : RedirectorManager μ) : manager.Undisturbed (operation^[count] manager) := by
  induction count generalizing manager with
  | zero => exact undisturbed_refl manager
  | succ count ih => exact (once manager).trans (ih (operation manager))

theorem provision_undisturbed : manager.Undisturbed (manager.provision env) := by
  dsimp only [provision]
  split_ifs
  · exact spawn_undisturbed _ manager
  · exact (spawn_undisturbed _ manager).trans (spawn_undisturbed _ _)
  · exact undisturbed_refl manager
  · exact spawn_undisturbed _ manager
  · exact spawn_undisturbed _ manager
  · exact undisturbed_refl manager

theorem deprovision_undisturbed : manager.Undisturbed (manager.deprovision env) := by
  unfold deprovision
  split
  · split
    · exact stopWorker_undisturbed _ manager
    · exact undisturbed_refl manager
  · exact undisturbed_refl manager

/-- A ledger in which `request` is outstanding besides the tasks of `manager`. -/
def owing (manager : RedirectorManager μ) (request : Request) (tainted : Bool)
    (submitted : Multiset Request) (answered : Multiset (Request × Command δ μ)) :
    Ledger Request (Command δ μ) :=
  ⟨submitted, (request, tainted) ::ₘ manager.tasks, answered, manager.failures⟩

/-- The ledger after a call of `request` has returned its manager and command. -/
def settled (request : Request) (result : RedirectorManager μ × Option (Command δ μ))
    (submitted : Multiset Request) (answered : Multiset (Request × Command δ μ)) :
    Ledger Request (Command δ μ) :=
  ⟨submitted, result.1.tasks,
    match result.2 with
    | some command => (request, command) ::ₘ answered
    | none => answered,
    result.1.failures⟩

/-- The code behind a failed worker answers the request or passes it on, and
counts the failure. -/
def HandlesFailure (closed : δ) (request : Request) (tainted : Bool)
    (retry : RedirectorManager μ → RedirectorManager μ × Option (Command δ μ)) : Prop :=
  ∀ manager : RedirectorManager μ, manager.WellFormed ∅ → ∀ failures,
    manager.failures = request :: failures → ∀ submitted answered,
    Relation.ReflTransGen (Ledger.Step (.enact closed))
      ⟨submitted, (request, tainted) ::ₘ manager.tasks, answered, failures⟩
      (settled request (retry manager) submitted answered)

theorem attempt_settles {request : Request} {tainted : Bool}
    {retry : RedirectorManager μ → RedirectorManager μ × Option (Command δ μ)}
    (handled : HandlesFailure closed request tainted retry)
    (shrinking : ∀ m : RedirectorManager μ, m.WellFormed ∅ → m.Shrinks (retry m).1)
    (wellFormed : manager.WellFormed ∅)
    (submitted : Multiset Request) (answered : Multiset (Request × Command δ μ)) :
    Relation.ReflTransGen (Ledger.Step (.enact closed))
      (manager.owing request tainted submitted answered)
      (settled request (manager.attempt env request tainted retry) submitted answered) := by
  unfold attempt
  rcases wellFormed.acquire env with ⟨_, found⟩ | ⟨wid, free, _, found⟩
  · -- no worker is free: the request waits in the queue
    rw [found]
    simp only [settled, owing, tasks_enqueue]
    exact .refl
  · have holding := wellFormed.hold free
    have idle := (holding.heldIdle wid (Finset.mem_singleton_self wid)).2
    rw [found]
    dsimp only
    cases env.decide wid request with
    | some command =>
        cases command with
        | enact decision =>
            simp only [settled, release_tasks idle, release_failures]
            exact .single (.answer _ request tainted _ (Command.enact decision) rfl)
        | defer message =>
            simp only [settled, tasks_persist idle]
            exact .refl
    | none =>
        have reaped := (holding.logFailure request).reap wid
        rw [Finset.erase_singleton] at reaped
        have absent := (shrinking _ reaped).absent
        have run := handled _ reaped manager.failures (reap_failures _ _) submitted answered
        rw [fail_tasks request idle] at run
        dsimp only
        rw [release_absent absent]
        exact run

theorem request_settles (env : Env δ μ) (closed : δ) (request : Request) (tainted : Bool)
    (wellFormed : manager.WellFormed ∅)
    (submitted : Multiset Request) (answered : Multiset (Request × Command δ μ)) :
    Relation.ReflTransGen (Ledger.Step (.enact closed))
      (manager.owing request tainted submitted answered)
      (settled request (manager.request env closed request tainted) submitted answered) := by
  -- a second failure is the last one: the request is answered then and there
  have last : HandlesFailure closed request true
      (fun manager : RedirectorManager μ => (manager, some (.enact closed))) := by
    intro manager _ failures counted submitted answered
    simp only [settled, counted]
    exact .single (.giveUp _ request _ rfl)
  have second : HandlesFailure closed request false
      (attempt env request true
        (fun manager : RedirectorManager μ => (manager, some (.enact closed)))) := by
    intro manager formed failures counted submitted answered
    have retried : Ledger.Step (.enact closed)
        ⟨submitted, (request, false) ::ₘ manager.tasks, answered, failures⟩
        (manager.owing request true submitted answered) := by
      simp only [owing, counted]
      exact .retry _ request _ rfl
    exact .head retried
      (attempt_settles last (fun _ _ _ member => member) formed submitted answered)
  cases tainted with
  | true => exact attempt_settles last (fun _ _ _ member => member) wellFormed submitted answered
  | false =>
      exact attempt_settles second (fun _ formed => (formed.request request true).2) wellFormed
        submitted answered

theorem getDecision_settles (env : Env δ μ) (closed : δ) {pipe : Handle} {request : Request}
    {message : μ} {tainted : Bool} (owner : manager.processes.lookup pipe = some wid)
    (found : manager.active.lookup wid = some (request, message, tainted))
    (wellFormed : manager.WellFormed ∅)
    (submitted : Multiset Request) (answered : Multiset (Request × Command δ μ)) :
    ∃ result : RedirectorManager μ × Option (Command δ μ),
      manager.getDecision env closed pipe = (result.1, some request.clientId, result.2) ∧
      Relation.ReflTransGen (Ledger.Step (.enact closed))
        ⟨submitted, manager.tasks, answered, manager.failures⟩
        (settled request result submitted answered) := by
  have idle : wid ∉ (manager.progress wid).active := fun member => (AList.mem_erase.mp member).1 rfl
  have released := (wellFormed.progress (lookup_mem found)).release
  rw [tasks_progress found]
  cases outcome : env.progress wid request message with
  | some command =>
      refine ⟨((manager.progress wid).release wid, some command), ?_, ?_⟩
      · simp only [getDecision, owner, found, outcome]
      · rw [settled, release_tasks idle, release_failures]
        exact .single (.answer _ request tainted _ command rfl)
  | none =>
      have reaped := (released.logFailure request).reap wid
      have kept : ((((manager.progress wid).release wid).logFailure request).reap wid).tasks =
          (manager.progress wid).tasks :=
        (fail_tasks request (release_idle idle)).trans (release_tasks idle)
      have counted : ((((manager.progress wid).release wid).logFailure request).reap wid).failures =
          request :: manager.failures := by
        rw [reap_failures, logFailure, release_failures]
        rfl
      cases tainted with
      | true =>
          refine ⟨((((manager.progress wid).release wid).logFailure request).reap wid,
            some (.enact closed)), ?_, ?_⟩
          · simp only [getDecision, owner, found, outcome, if_true]
          · rw [settled, kept, counted]
            exact .single (.giveUp _ request _ rfl)
      | false =>
          refine ⟨((((manager.progress wid).release wid).logFailure request).reap wid).request env
            closed request true, ?_, ?_⟩
          · simp only [getDecision, owner, found, outcome, Bool.false_eq_true, if_false]
          · have run := request_settles env closed request true reaped submitted answered
            rw [owing, kept, counted] at run
            exact .head (.retry _ request (manager.progress wid).tasks rfl) run

end RedirectorManager

namespace Session

variable {δ μ : Type} {closed : δ} {env : Env δ μ} {session before after : Session δ μ}
  {allowed : Operation → Bool}

/-- The ledger a session keeps. -/
def ledger (session : Session δ μ) : Ledger Request (Command δ μ) :=
  ⟨session.submitted, session.manager.tasks,
    session.answered.map fun answer => (answer.request, answer.command),
    session.manager.failures⟩

theorem ledger_undisturbed {manager : RedirectorManager μ}
    (undisturbed : session.manager.Undisturbed manager) :
    { session with manager }.ledger = session.ledger := by
  simp only [ledger, undisturbed.1, undisturbed.2]

theorem ledger_record (request : Request) (clientId : Str)
    (result : RedirectorManager μ × Option (Command δ μ)) :
    (session.record (some request) (result.1, some clientId, result.2)).ledger =
      RedirectorManager.settled request result session.submitted
        (session.answered.map fun answer => (answer.request, answer.command)) := by
  obtain ⟨manager, command⟩ := result
  cases command with
  | none => rfl
  | some command => rfl

@[simp] theorem record_unanswered (subject : Option Request) (manager : RedirectorManager μ)
    (clientId : Option Str) :
    session.record subject (manager, clientId, none) = { session with manager } := by
  cases subject <;> cases clientId <;> rfl

theorem ledger_request (request : Request) (wellFormed : session.manager.WellFormed ∅) :
    Relation.ReflTransGen (Ledger.Step (.enact closed)) session.ledger
      (session.apply closed env (.request request)).ledger := by
  have filed : Ledger.Step (.enact closed) session.ledger
      (session.manager.owing { request with ticket := session.submitted.length } false
        ({ request with ticket := session.submitted.length } ::ₘ session.submitted)
        (session.answered.map fun answer => (answer.request, answer.command))) :=
    .submit _ _
  refine .head filed ?_
  simp only [apply, ledger_record]
  exact RedirectorManager.request_settles env closed _ false wellFormed _ _

theorem ledger_doqueue (wellFormed : session.manager.WellFormed ∅) :
    Relation.ReflTransGen (Ledger.Step (.enact closed)) session.ledger
      (session.apply closed env .doqueue).ledger := by
  simp only [apply, queued, RedirectorManager.doqueue]
  split
  · simp only [record_unanswered]
    exact .refl
  · rename_i request tainted rest queue
    split
    · simp only [record_unanswered]
      exact .refl
    · have run := RedirectorManager.request_settles env closed request tainted
        (wellFormed.enqueue rest) session.submitted
        (session.answered.map fun answer => (answer.request, answer.command))
      rw [RedirectorManager.owing, ← RedirectorManager.tasks_dequeue queue] at run
      simp only [queue, List.head?_cons, Option.map_some, ledger_record]
      exact run

theorem ledger_getDecision (pipe : Handle) (wellFormed : session.manager.WellFormed ∅) :
    Relation.ReflTransGen (Ledger.Step (.enact closed)) session.ledger
      (session.apply closed env (.getDecision pipe)).ledger := by
  simp only [apply, deferred]
  cases owner : session.manager.processes.lookup pipe with
  | none =>
      simp only [RedirectorManager.getDecision, owner, record_unanswered]
      exact .refl
  | some wid =>
      cases found : session.manager.active.lookup wid with
      | none =>
          -- the child of a worker that is not busy says something: the worker goes away
          have reaped : session.manager.Undisturbed (session.manager.reap wid) :=
            ⟨RedirectorManager.reap_tasks (AList.lookup_eq_none.mp found),
              RedirectorManager.reap_failures session.manager wid⟩
          simp only [RedirectorManager.getDecision, owner, found, record_unanswered,
            ledger_undisturbed reaped]
          exact .refl
      | some task =>
          obtain ⟨request, message, tainted⟩ := task
          obtain ⟨result, decided, run⟩ := RedirectorManager.getDecision_settles env closed owner
            found wellFormed session.submitted
            (session.answered.map fun answer => (answer.request, answer.command))
          simp only [decided, Option.bind_some, found, Option.map_some, ledger_record]
          exact run

theorem Step.ledger (wellFormed : before.manager.WellFormed ∅)
    (stepped : Step closed Operation.serving before after) :
    Relation.ReflTransGen (Ledger.Step (.enact closed)) before.ledger after.ledger := by
  obtain ⟨env, operation, serving, rfl, _⟩ := stepped
  have unchanged : ∀ manager, before.manager.Undisturbed manager →
      Relation.ReflTransGen (Ledger.Step (.enact closed)) before.ledger
        { before with manager }.ledger := fun manager undisturbed => by
    rw [ledger_undisturbed undisturbed]
  cases operation with
  | request request => exact ledger_request request wellFormed
  | doqueue => exact ledger_doqueue wellFormed
  | getDecision pipe => exact ledger_getDecision pipe wellFormed
  | spawn number => exact unchanged _ (RedirectorManager.spawn_undisturbed number _)
  | respawn => exact unchanged _ RedirectorManager.respawn_undisturbed
  | provision => exact unchanged _ RedirectorManager.provision_undisturbed
  | deprovision => exact unchanged _ RedirectorManager.deprovision_undisturbed
  | increase count =>
      exact unchanged _ (RedirectorManager.iterate_undisturbed
        (fun _ => RedirectorManager.increaseOne_undisturbed) count _)
  | decrease count =>
      exact unchanged _ (RedirectorManager.iterate_undisturbed
        (fun _ => RedirectorManager.decreaseOne_undisturbed) count _)
  | stopWorker wid => exact unchanged _ (RedirectorManager.stopWorker_undisturbed wid _)
  | reap wid => cases serving
  | killWorkers => cases serving

theorem reachable_ledger {low high : Nat}
    (reached : Reachable (Start low high) (Step closed Operation.serving) session) :
    Reachable (· = Ledger.empty) (Ledger.Step (.enact closed)) session.ledger := by
  refine Reachable.simulate Session.ledger ?_ ?_ reached
  · intro start isStart
    cases isStart
    rfl
  · intro before after reachedBefore stepped
    exact stepped.ledger (reachable_wellFormed reachedBefore)

/-- Each request carries the number of its call, and each answer the client
identifier of its request. -/
structure Labelled (session : Session δ μ) : Prop where
  tickets : ∀ request ∈ session.submitted, request.ticket < session.submitted.length
  distinct : session.submitted.Nodup
  addressed : ∀ answer ∈ session.answered, answer.clientId = answer.request.clientId

theorem Labelled.record {subject : Option Request} (labelled : session.Labelled)
    {result : RedirectorManager μ × Option Str × Option (Command δ μ)}
    (own : ∀ request ∈ subject, ∀ clientId ∈ result.2.1, clientId = request.clientId) :
    (session.record subject result).Labelled := by
  obtain ⟨manager, clientId, command⟩ := result
  refine ⟨labelled.tickets, labelled.distinct, ?_⟩
  cases subject with
  | none => exact labelled.addressed
  | some request =>
      cases clientId with
      | none => exact labelled.addressed
      | some clientId =>
          cases command with
          | none => exact labelled.addressed
          | some command =>
              intro answer member
              rcases List.mem_cons.mp member with rfl | earlier
              · exact own request rfl clientId rfl
              · exact labelled.addressed answer earlier

theorem doqueue_addressed (session : Session δ μ) : ∀ request ∈ session.queued,
    ∀ clientId ∈ (session.manager.doqueue env closed).2.1, clientId = request.clientId := by
  intro request head clientId given
  cases queue : session.manager.queue with
  | nil => simp [queued, queue] at head
  | cons first rest =>
      obtain ⟨first, tainted⟩ := first
      simp only [queued, queue, List.head?_cons, Option.map_some, Option.mem_some_iff] at head
      simp only [RedirectorManager.doqueue, queue] at given
      split at given
      · cases given
      · cases head
        exact (Option.some.inj given).symm

theorem getDecision_addressed (session : Session δ μ) (pipe : Handle) :
    ∀ request ∈ session.deferred pipe,
      ∀ clientId ∈ (session.manager.getDecision env closed pipe).2.1,
        clientId = request.clientId := by
  intro request subject clientId given
  cases owner : session.manager.processes.lookup pipe with
  | none => simp [deferred, owner] at subject
  | some wid =>
      cases found : session.manager.active.lookup wid with
      | none => simp [deferred, owner, found] at subject
      | some task =>
          obtain ⟨held, message, tainted⟩ := task
          simp only [deferred, owner, Option.bind_some, found, Option.map_some,
            Option.mem_some_iff] at subject
          cases subject
          simp only [RedirectorManager.getDecision, owner, found] at given
          split at given
          · exact (Option.some.inj given).symm
          · split at given <;> exact (Option.some.inj given).symm

theorem Labelled.submit (labelled : session.Labelled) (request : Request) :
    { session with submitted :=
      { request with ticket := session.submitted.length } :: session.submitted }.Labelled := by
  refine ⟨?_, ?_, labelled.addressed⟩
  · intro other member
    rcases List.mem_cons.mp member with rfl | earlier
    · simp
    · have below := labelled.tickets other earlier
      simp only [List.length_cons]
      omega
  · refine List.nodup_cons.mpr ⟨fun member => ?_, labelled.distinct⟩
    have below := labelled.tickets _ member
    simp at below

theorem Step.labelled (labelled : before.Labelled)
    (stepped : Step closed allowed before after) : after.Labelled := by
  obtain ⟨env, operation, _, rfl, _⟩ := stepped
  have kept : ∀ manager, { before with manager }.Labelled := fun _ =>
    ⟨labelled.tickets, labelled.distinct, labelled.addressed⟩
  cases operation with
  | request request =>
      simp only [apply]
      apply (labelled.submit request).record
      intro _ same _ given
      cases same
      cases given
      rfl
  | doqueue => exact labelled.record (doqueue_addressed before)
  | getDecision pipe => exact labelled.record (getDecision_addressed before pipe)
  | spawn number => exact kept _
  | respawn => exact kept _
  | provision => exact kept _
  | deprovision => exact kept _
  | increase count => exact kept _
  | decrease count => exact kept _
  | stopWorker wid => exact kept _
  | reap wid => exact kept _
  | killWorkers => exact kept _

theorem reachable_labelled {low high : Nat}
    (reached : Reachable (Start low high) (Step closed allowed) session) : session.Labelled :=
  reached.invariant Labelled
    (fun start isStart => by
      cases isStart
      exact ⟨by simp, by simp, by simp⟩)
    (fun _ _ _ labelled stepped => stepped.labelled labelled)

/-- In a run without `reap` and `kill_workers`, a request that was handed to
`request` waits in the queue, is deferred to a busy worker or has been answered
with its own client identifier: one of the three, once.  No other request is
anywhere.  At most two workers fail on a request, and after two failures its
answer is `close`. -/
theorem requests_conserved {low high : Nat}
    (reached : Reachable (Start low high) (Step closed Operation.serving) session)
    (request : Request) :
    (session.manager.queue.map Prod.fst).count request +
        (session.manager.deferrals.map Prod.fst).count request +
        (session.answered.map Answer.request).count request =
      (if request ∈ session.submitted then 1 else 0) ∧
    (∀ answer ∈ session.answered, answer.clientId = answer.request.clientId) ∧
    session.manager.failures.count request ≤ 2 ∧
    (session.manager.failures.count request = 2 →
      ∃ answer ∈ session.answered, answer.request = request ∧ answer.command = .enact closed) := by
  classical
  have booked := reachable_ledger reached
  have balanced := Ledger.reachable_balanced booked
  have bounded := Ledger.reachable_failuresBounded booked
  have labelled := reachable_labelled reached
  have once : session.ledger.submitted.count request =
      if request ∈ session.submitted then 1 else 0 := by
    rw [ledger, Multiset.coe_count, labelled.distinct.count]
  have places : session.ledger.submitted.count request =
      (session.manager.queue.map Prod.fst).count request +
        (session.manager.deferrals.map Prod.fst).count request +
        (session.answered.map Answer.request).count request := by
    rw [balanced, Multiset.count_add]
    simp only [ledger, RedirectorManager.tasks, Multiset.map_add, Multiset.map_coe,
      Multiset.count_add, Multiset.coe_count, List.map_map]
    rfl
  have atMostOnce : session.ledger.submitted.count request ≤ 1 := by
    rw [once]
    split <;> omega
  obtain ⟨few, last⟩ := Ledger.failures_at_most_two balanced bounded atMostOnce
  have counted : session.ledger.failed.count request = session.manager.failures.count request :=
    Multiset.coe_count request session.manager.failures
  rw [counted] at few last
  refine ⟨places.symm.trans once, labelled.addressed, few, fun twice => ?_⟩
  have given : (request, Command.enact closed) ∈ session.ledger.answered :=
    Multiset.count_pos.mp (Nat.lt_of_lt_of_eq Nat.zero_lt_one (last twice).symm)
  obtain ⟨answer, member, same⟩ := List.mem_map.mp (Multiset.mem_coe.mp given)
  exact ⟨answer, member, congrArg Prod.fst same, congrArg Prod.snd same⟩

/-- Both workers fail on the request, and it is answered `close`. -/
theorem requests_conserved_failing :
    (sampleSession none).manager.failures = [sampleRequest, sampleRequest] ∧
    ∃ answer ∈ (sampleSession none).answered,
      answer.request = sampleRequest ∧ answer.command = .enact () :=
  ⟨by decide, (requests_conserved (sampleSession_reached none (fun _ serving => serving)
    (by decide)) sampleRequest).2.2.2 (by decide)⟩

end Session

end ExaProxy.Redirector
