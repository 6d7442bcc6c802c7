import ExaProxy.Data.Str
import Mathlib.Data.List.AList
import Mathlib.Algebra.Group.Nat.Defs
import Mathlib.Data.Finset.Card

namespace ExaProxy.Redirector

open ExaProxy.Data

/-! `RedirectorManager`: the pool of redirector workers, the queue of requests
that found no worker free, and the requests a busy worker has deferred to its
child process.  What the workers, the clock and Python's unordered sets do is
supplied from outside, one environment for each call. -/

abbrev Wid := Nat
abbrev Handle := Nat

/-- `sys.maxint` on a 64-bit Python 2. -/
def maxint : Nat := 2 ^ 63 - 1

/-- The arguments of one decision, as `RedirectorManager.request` takes them.
The code knows no `ticket`: it is the number of the call that brought the
request, which tells requests of equal content apart. -/
structure Request where
  clientId : Str
  acceptAddr : Str
  acceptPort : Nat
  peer : Str
  header : Str
  subheader : Str
  source : Str
  ticket : Nat := 0
deriving DecidableEq, Repr

/-- A command that is not `None`: `defer` asks the manager to wait for the
worker's child process, any other one is enacted by the main process. -/
inductive Command (δ μ : Type) where
  | enact (decision : δ)
  | defer (message : μ)
deriving DecidableEq, Repr

structure Worker where
  creation : Nat
  process : Option Handle
deriving DecidableEq, Repr

/-- An unordered set or dictionary is walked in an order of Python's choosing. -/
structure SetOrder where
  walk : Finset Wid → List Wid
  mem_walk : ∀ wids wid, wid ∈ walk wids ↔ wid ∈ wids

/-- One call's surroundings.  `decide` and `progress` are the workers' methods,
with `none` for a `None` command and for an exception; `creation` and `forks`
say when a worker is created and whether it gets a child process. -/
structure Env (δ μ : Type) where
  order : SetOrder
  decide : Wid → Request → Option (Command δ μ)
  progress : Wid → Request → μ → Option (Command δ μ)
  creation : Wid → Nat
  forks : Wid → Bool
  now : Nat

structure RedirectorManager (μ : Type) where
  low : Nat
  high : Nat
  queue : List (Request × Bool) := []
  nextid : Nat := 1
  worker : AList (fun _ : Wid => Worker) := ∅
  processes : AList (fun _ : Handle => Wid) := ∅
  available : Finset Wid := ∅
  active : AList (fun _ : Wid => Request × μ × Bool) := ∅
  stopping : Finset Wid := ∅
  /-- the sockets the poller watches under `read_workers` -/
  polled : Finset Handle := ∅
  /-- how many workers and how many child processes were ever created -/
  spawned : Nat := 0
  handles : Nat := 0
  /-- the requests a worker failed on, from the manager's log lines -/
  failures : List Request := []

namespace RedirectorManager

variable {δ μ : Type} (env : Env δ μ) (closed : δ)

/-- The number of workers, `len(self.worker)`. -/
def size (manager : RedirectorManager μ) : Nat := manager.worker.keys.length

/-- `_spawn`: one more worker.  The standard output of its child, if it has
one, is a file object of its own and is polled. -/
def spawnOne (manager : RedirectorManager μ) : RedirectorManager μ :=
  let wid := manager.nextid
  let created := { manager with
    nextid := (manager.nextid + 1) % maxint
    spawned := manager.spawned + 1
    available := insert wid manager.available }
  if env.forks wid then
    let identifier := manager.handles
    { created with
      handles := manager.handles + 1
      worker := manager.worker.insert wid ⟨env.creation wid, some identifier⟩
      processes := manager.processes.insert identifier wid
      polled := insert identifier manager.polled }
  else
    { created with worker := manager.worker.insert wid ⟨env.creation wid, none⟩ }

def spawn : Nat → RedirectorManager μ → RedirectorManager μ
  | 0, manager => manager
  | number + 1, manager => spawn number (manager.spawnOne env)

def reap (wid : Wid) (manager : RedirectorManager μ) : RedirectorManager μ :=
  match manager.worker.lookup wid with
  | none => manager
  | some worker =>
      let removed := { manager with
        active := manager.active.erase wid
        stopping := manager.stopping.erase wid
        available := manager.available.erase wid
        worker := manager.worker.erase wid }
      match worker.process with
      | none => removed
      | some stdout => { removed with
          polled := manager.polled.erase stdout
          processes := manager.processes.erase stdout }

def stopWorker (wid : Wid) (manager : RedirectorManager μ) : RedirectorManager μ :=
  if wid ∈ manager.active then { manager with stopping := insert wid manager.stopping }
  else manager.reap wid

/-- The workers of the pool in the order `set(self.worker)` is walked. -/
def workers (manager : RedirectorManager μ) : List Wid :=
  env.order.walk manager.worker.keys.toFinset

def respawn (manager : RedirectorManager μ) : RedirectorManager μ :=
  let number := max (min manager.size manager.high) manager.low
  let stopped := (manager.workers env).foldl (fun m wid => m.stopWorker wid) manager
  spawn env number stopped

def killWorkers (manager : RedirectorManager μ) : RedirectorManager μ :=
  (manager.workers env).foldl (fun m wid => m.reap wid) manager

/-- `_oldest`: the worker created first, before now and not being stopped. -/
def oldest (manager : RedirectorManager μ) : Option Wid :=
  ((manager.workers env).foldl (fun (found : Nat × Option Wid) wid =>
    match manager.worker.lookup wid with
    | none => found
    | some worker =>
        if worker.creation < found.1 ∧ wid ∉ manager.stopping then (worker.creation, some wid)
        else found) (env.now, none)).2

def decreaseOne (manager : RedirectorManager μ) : RedirectorManager μ :=
  if manager.low < manager.size then
    match manager.oldest env with
    | some wid => manager.stopWorker wid
    | none => manager
  else manager

def increaseOne (manager : RedirectorManager μ) : RedirectorManager μ :=
  if manager.size < manager.high then spawn env 1 manager else manager

/-- `_decrease` and `_increase` are repeated `count` times. -/
def decrease (count : Nat) (manager : RedirectorManager μ) : RedirectorManager μ :=
  (fun m : RedirectorManager μ => m.decreaseOne env)^[count] manager

def increase (count : Nat) (manager : RedirectorManager μ) : RedirectorManager μ :=
  (fun m : RedirectorManager μ => m.increaseOne env)^[count] manager

def provision (manager : RedirectorManager μ) : RedirectorManager μ :=
  let queued := manager.queue.length
  let workers := manager.size
  let manager := if workers < manager.low then spawn env (manager.low - workers) manager else manager
  if queued ≥ workers then
    if workers ≥ manager.high then manager
    else
      -- the growth is signed: low may exceed high
      let growth : Int := ((manager.high : Int) - manager.low) / 4
      let toAdd := min (max 1 (min (manager.low : Int) growth)) ((manager.high : Int) - workers)
      spawn env toAdd.toNat manager
  else manager

def deprovision (manager : RedirectorManager μ) : RedirectorManager μ :=
  if manager.queue.length = 0 ∧ manager.size > manager.low then
    match manager.oldest env with
    | some wid => manager.stopWorker wid
    | none => manager
  else manager

/-- `acquire`: workers are popped from the available ones until one of them
still exists. -/
def acquireFrom : List Wid → RedirectorManager μ → RedirectorManager μ × Option Wid
  | [], manager => (manager, none)
  | identifier :: rest, manager =>
      let popped := { manager with available := manager.available.erase identifier }
      if identifier ∈ popped.worker then (popped, some identifier) else acquireFrom rest popped

def acquire (manager : RedirectorManager μ) : RedirectorManager μ × Option Wid :=
  acquireFrom (env.order.walk manager.available) manager

def release (wid : Wid) (manager : RedirectorManager μ) : RedirectorManager μ :=
  if wid ∈ manager.worker then
    if wid ∈ manager.stopping then manager.reap wid
    else { manager with available := insert wid manager.available }
  else manager

def persist (wid : Wid) (task : Request × μ × Bool) (manager : RedirectorManager μ) :
    RedirectorManager μ :=
  { manager with active := manager.active.insert wid task }

def progress (wid : Wid) (manager : RedirectorManager μ) : RedirectorManager μ :=
  { manager with active := manager.active.erase wid }

/-- The log line about a request whose worker failed. -/
def logFailure (request : Request) (manager : RedirectorManager μ) : RedirectorManager μ :=
  { manager with failures := request :: manager.failures }

/-- `request` up to its recursive call, which `retry` stands for. -/
def attempt (request : Request) (tainted : Bool)
    (retry : RedirectorManager μ → RedirectorManager μ × Option (Command δ μ))
    (manager : RedirectorManager μ) : RedirectorManager μ × Option (Command δ μ) :=
  match manager.acquire env with
  | (manager, none) => ({ manager with queue := manager.queue ++ [(request, tainted)] }, none)
  | (manager, some wid) =>
      match env.decide wid request with
      | some (.enact decision) => (manager.release wid, some (.enact decision))
      | some (.defer message) => (manager.persist wid (request, message, tainted), none)
      | none =>
          let (retried, command) := retry ((manager.logFailure request).reap wid)
          (retried.release wid, command)

/-- `request` calls itself once, tainted, after a failure that was not. -/
def request (request : Request) :
    Bool → RedirectorManager μ → RedirectorManager μ × Option (Command δ μ)
  | true => attempt env request true (fun manager => (manager, some (.enact closed)))
  | false => attempt env request false
      (attempt env request true (fun manager => (manager, some (.enact closed))))

/-- The client identifier and the command of the request at the head of the
queue, when a worker is available for it. -/
def doqueue (manager : RedirectorManager μ) :
    RedirectorManager μ × Option Str × Option (Command δ μ) :=
  match manager.queue with
  | [] => (manager, none, none)
  | (queued, tainted) :: rest =>
      if manager.available = ∅ then (manager, none, none)
      else
        let (manager, command) := request env closed queued tainted { manager with queue := rest }
        (manager, some queued.clientId, command)

def getDecision (pipe : Handle) (manager : RedirectorManager μ) :
    RedirectorManager μ × Option Str × Option (Command δ μ) :=
  match manager.processes.lookup pipe with
  | none => (manager, none, none)
  | some wid =>
      match manager.active.lookup wid with
      | none => (manager.reap wid, none, none)
      | some (deferred, message, tainted) =>
          let released := (manager.progress wid).release wid
          match env.progress wid deferred message with
          | some command => (released, some deferred.clientId, some command)
          | none =>
              let reaped := (released.logFailure deferred).reap wid
              if tainted then (reaped, some deferred.clientId, some (.enact closed))
              else
                let (manager, command) := request env closed deferred true reaped
                (manager, some deferred.clientId, command)

end RedirectorManager

end ExaProxy.Redirector
