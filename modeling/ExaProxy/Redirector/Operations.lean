import ExaProxy.Data.Transition
import ExaProxy.Redirector.Pool
import Mathlib.Data.Finset.Lattice.Fold
import Mathlib.Order.Lattice.Nat

namespace ExaProxy.Redirector

open ExaProxy.Data

inductive Operation where
  | request (request : Request)
  | doqueue
  | getDecision (pipe : Handle)
  | spawn (number : Nat)
  | respawn
  | provision
  | deprovision
  | increase (count : Nat)
  | decrease (count : Nat)
  | stopWorker (wid : Wid)
  | reap (wid : Wid)
  | killWorkers
deriving DecidableEq, Repr

/-- The operations that never take a worker's task away from it. -/
def Operation.serving : Operation → Bool
  | .reap _ | .killWorkers => false
  | _ => true

/-- An answer: the request it is about, and the client identifier and command
that were returned for it. -/
structure Answer (δ μ : Type) where
  request : Request
  clientId : Str
  command : Command δ μ

/-- A manager with the history of what was asked of it and answered. -/
structure Session (δ μ : Type) where
  manager : RedirectorManager μ
  submitted : List Request := []
  answered : List (Answer δ μ) := []

namespace Session

variable {δ μ : Type} (closed : δ)

def record (session : Session δ μ) (subject : Option Request) :
    RedirectorManager μ × Option Str × Option (Command δ μ) → Session δ μ
  | (manager, clientId, command) =>
      { session with
        manager
        answered := match subject, clientId, command with
          | some request, some clientId, some command => ⟨request, clientId, command⟩ :: session.answered
          | _, _, _ => session.answered }

/-- The request the manager is about to look at in `doqueue` and `getDecision`. -/
def queued (session : Session δ μ) : Option Request :=
  session.manager.queue.head?.map Prod.fst

def deferred (session : Session δ μ) (pipe : Handle) : Option Request :=
  (session.manager.processes.lookup pipe).bind fun wid =>
    (session.manager.active.lookup wid).map Prod.fst

def apply (env : Env δ μ) (session : Session δ μ) : Operation → Session δ μ
  | .request request =>
      let request := { request with ticket := session.submitted.length }
      let (manager, command) := session.manager.request env closed request false
      { session with submitted := request :: session.submitted }.record (some request)
        (manager, some request.clientId, command)
  | .doqueue => session.record session.queued (session.manager.doqueue env closed)
  | .getDecision pipe =>
      session.record (session.deferred pipe) (session.manager.getDecision env closed pipe)
  | .spawn number => { session with manager := RedirectorManager.spawn env number session.manager }
  | .respawn => { session with manager := session.manager.respawn env }
  | .provision => { session with manager := session.manager.provision env }
  | .deprovision => { session with manager := session.manager.deprovision env }
  | .increase count => { session with manager := session.manager.increase env count }
  | .decrease count => { session with manager := session.manager.decrease env count }
  | .stopWorker wid => { session with manager := session.manager.stopWorker wid }
  | .reap wid => { session with manager := session.manager.reap wid }
  | .killWorkers => { session with manager := session.manager.killWorkers env }

/-- One operation of a kind `allowed` lets through, after which fewer than
`maxint` workers have ever been spawned. -/
def Step (allowed : Operation → Bool) (before after : Session δ μ) : Prop :=
  ∃ env operation, allowed operation = true ∧ after = before.apply closed env operation ∧
    after.manager.spawned < maxint

def Start (low high : Nat) (session : Session δ μ) : Prop :=
  session = { manager := { low, high } }

variable {closed} {session before after : Session δ μ} {allowed : Operation → Bool}

theorem Step.wellFormed (wellFormed : before.manager.WellFormed ∅)
    (stepped : Step closed allowed before after) : after.manager.WellFormed ∅ := by
  obtain ⟨env, operation, _, rfl, bound⟩ := stepped
  cases operation with
  | request request => exact (wellFormed.request _ false).1
  | doqueue => exact wellFormed.doqueue
  | getDecision pipe => exact wellFormed.getDecision pipe
  | spawn number =>
      exact wellFormed.spawn (by simpa only [apply, RedirectorManager.spawn_spawned] using bound)
  | respawn => exact wellFormed.respawn bound
  | provision => exact wellFormed.provision bound
  | deprovision => exact wellFormed.deprovision
  | increase count => exact wellFormed.increase bound
  | decrease count => exact wellFormed.decrease count
  | stopWorker wid => exact wellFormed.stopWorker
  | reap wid => exact wellFormed.reap wid
  | killWorkers => exact wellFormed.killWorkers

theorem reachable_wellFormed {low high : Nat}
    (reached : Reachable (Start low high) (Step closed allowed) session) :
    session.manager.WellFormed ∅ :=
  reached.invariant (fun s => s.manager.WellFormed ∅)
    (fun start isStart => by
      cases isStart
      exact RedirectorManager.wellFormed_initial low high)
    (fun _ _ _ wellFormed stepped => stepped.wellFormed wellFormed)

/-- Between operations the workers are the disjoint union of the available and
the active ones, only active workers are being stopped, and `processes` and
the poller hold the standard outputs of the workers with a child process. -/
theorem pool_partitioned {low high : Nat}
    (reached : Reachable (Start low high) (Step closed fun _ => true) session) :
    (∀ wid, wid ∈ session.manager.worker ↔
      wid ∈ session.manager.available ∨ wid ∈ session.manager.active) ∧
    (∀ wid, ¬ (wid ∈ session.manager.available ∧ wid ∈ session.manager.active)) ∧
    (∀ wid ∈ session.manager.stopping, wid ∈ session.manager.active) ∧
    (∀ handle wid, session.manager.processes.lookup handle = some wid ↔
      ∃ worker, session.manager.worker.lookup wid = some worker ∧ worker.process = some handle) ∧
    (∀ handle, handle ∈ session.manager.polled ↔
      ∃ wid worker, session.manager.worker.lookup wid = some worker ∧
        worker.process = some handle) := by
  have wellFormed := reachable_wellFormed reached
  refine ⟨?_, ?_, ?_, wellFormed.processes, ?_⟩
  · simpa using wellFormed.partition
  · rintro wid ⟨free, busy⟩
    exact wellFormed.idle wid free busy
  · simpa using wellFormed.stopping
  · intro handle
    rw [wellFormed.polled, ← AList.lookup_isSome, Option.isSome_iff_exists]
    exact exists_congr fun wid => wellFormed.processes handle wid

/-- Surroundings in which sets are walked in ascending order, every worker has a
child process and `decide` always returns `command`. -/
def uniform (command : Option (Command Unit Unit)) : Env Unit Unit where
  order := ⟨fun wids => (List.range (wids.sup id + 1)).filter (· ∈ wids), by
    intro wids wid
    simp only [List.mem_filter, List.mem_range, decide_eq_true_eq, and_iff_right_iff_imp]
    exact fun member => Nat.lt_succ_of_le (Finset.le_sup (f := id) member)⟩
  decide := fun _ _ => command
  progress := fun _ _ _ => none
  creation := id
  forks := fun _ => true
  now := 10

def sampleRequest : Request :=
  ⟨ascii "client", ascii "127.0.0.1", 3128, ascii "10.0.0.1", ascii "GET /", [], ascii "proxy", 0⟩

/-- Two workers are spawned and the request is handed to one of them. -/
def sampleSession (command : Option (Command Unit Unit)) : Session Unit Unit :=
  apply () (uniform command) (apply () (uniform command) { manager := { low := 1, high := 2 } }
    (.spawn 2)) (.request sampleRequest)

theorem sampleSession_reached (command : Option (Command Unit Unit))
    (lets : ∀ operation, operation.serving = true → allowed operation = true)
    (few : (sampleSession command).manager.spawned < maxint) :
    Reachable (Start 1 2) (Step () allowed) (sampleSession command) := by
  have start : Reachable (Start 1 2) (Step () allowed)
      ({ manager := { low := 1, high := 2 } } : Session Unit Unit) := .start rfl
  refine (start.next ⟨uniform command, .spawn 2, lets _ rfl, rfl, ?_⟩).next
    ⟨uniform command, .request sampleRequest, lets _ rfl, rfl, few⟩
  simp only [apply, RedirectorManager.spawn_spawned, maxint]
  omega

theorem pool_partitioned_deferred :
    (sampleSession (some (.defer ()))).manager.active.keys = [1] ∧
    (∀ wid, wid ∈ (sampleSession (some (.defer ()))).manager.worker ↔
      wid ∈ (sampleSession (some (.defer ()))).manager.available ∨
        wid ∈ (sampleSession (some (.defer ()))).manager.active) :=
  ⟨by decide, (pool_partitioned (sampleSession_reached (some (.defer ())) (fun _ _ => rfl)
    (by decide))).1⟩

end Session

end ExaProxy.Redirector
