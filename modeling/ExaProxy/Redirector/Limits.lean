import ExaProxy.Redirector.Provision
import ExaProxy.Redirector.Reactor

namespace ExaProxy.Redirector

open ExaProxy.Data

namespace RedirectorManager

variable {δ μ : Type} (env : Env δ μ) (closed : δ) (manager : RedirectorManager μ) (wid : Wid)

def limits (manager : RedirectorManager μ) : Nat × Nat := (manager.low, manager.high)

@[simp] theorem spawn_limits' (number : Nat) : (spawn env number manager).limits = manager.limits :=
  Prod.ext (spawn_limits env number manager).1 (spawn_limits env number manager).2

@[simp] theorem reap_limits : (manager.reap wid).limits = manager.limits := by
  unfold reap
  split
  · rfl
  · dsimp only
    split <;> rfl

@[simp] theorem stopWorker_limits : (manager.stopWorker wid).limits = manager.limits := by
  unfold stopWorker
  split
  · rfl
  · exact reap_limits manager wid

theorem foldl_limits (step : RedirectorManager μ → Wid → RedirectorManager μ)
    (once : ∀ manager wid, (step manager wid).limits = manager.limits) (wids : List Wid) :
    (wids.foldl step manager).limits = manager.limits := by
  induction wids generalizing manager with
  | nil => rfl
  | cons wid rest ih => exact (ih _).trans (once manager wid)

theorem respawn_limits : (manager.respawn env).limits = manager.limits := by
  rw [respawn, spawn_limits']
  exact foldl_limits manager _ stopWorker_limits _

theorem killWorkers_limits : (manager.killWorkers env).limits = manager.limits :=
  foldl_limits manager _ reap_limits _

theorem decreaseOne_limits : (manager.decreaseOne env).limits = manager.limits := by
  unfold decreaseOne
  split
  · split
    · exact stopWorker_limits manager _
    · rfl
  · rfl

theorem increaseOne_limits : (manager.increaseOne env).limits = manager.limits := by
  unfold increaseOne
  split
  · exact spawn_limits' env manager 1
  · rfl

theorem iterate_limits {operation : RedirectorManager μ → RedirectorManager μ}
    (once : ∀ manager, (operation manager).limits = manager.limits) (count : Nat) :
    (operation^[count] manager).limits = manager.limits := by
  induction count generalizing manager with
  | zero => rfl
  | succ count ih => exact (ih _).trans (once manager)

theorem provision_limits : (manager.provision env).limits = manager.limits := by
  dsimp only [provision]
  split_ifs <;> simp only [spawn_limits']

theorem deprovision_limits : (manager.deprovision env).limits = manager.limits := by
  unfold deprovision
  split
  · split
    · exact stopWorker_limits manager _
    · rfl
  · rfl

theorem acquireFrom_limits (wids : List Wid) : (manager.acquireFrom wids).1.limits = manager.limits := by
  induction wids generalizing manager with
  | nil => rfl
  | cons wid rest ih =>
      rw [acquireFrom]
      dsimp only
      split
      · rfl
      · exact ih _

@[simp] theorem release_limits : (manager.release wid).limits = manager.limits := by
  unfold release
  split
  · split
    · exact reap_limits manager wid
    · rfl
  · rfl

theorem attempt_limits (request : Request) (tainted : Bool)
    {retry : RedirectorManager μ → RedirectorManager μ × Option (Command δ μ)}
    (retried : ∀ manager, (retry manager).1.limits = manager.limits) :
    (manager.attempt env request tainted retry).1.limits = manager.limits := by
  have acquired := acquireFrom_limits manager (env.order.walk manager.available)
  unfold attempt acquire
  split
  · next after found =>
      rw [found] at acquired
      exact acquired
  · next after wid found =>
      rw [found] at acquired
      split
      · exact (release_limits after wid).trans acquired
      · exact acquired
      · exact ((release_limits _ wid).trans (retried _)).trans ((reap_limits _ wid).trans acquired)

theorem request_limits (request : Request) (tainted : Bool) :
    (manager.request env closed request tainted).1.limits = manager.limits := by
  have last (manager : RedirectorManager μ) :
      (manager.attempt env request true fun manager => (manager, some (.enact closed))).1.limits = manager.limits :=
    attempt_limits env manager request true fun _ => rfl
  cases tainted with
  | true => exact last manager
  | false => exact attempt_limits env manager request false last

theorem doqueue_limits : (manager.doqueue env closed).1.limits = manager.limits := by
  unfold doqueue
  split
  · rfl
  · split
    · rfl
    · exact request_limits env closed _ _ _

theorem getDecision_limits (pipe : Handle) : (manager.getDecision env closed pipe).1.limits = manager.limits := by
  unfold getDecision
  split
  · rfl
  · next wid _ =>
      split
      · exact reap_limits manager wid
      · next deferred message tainted _ =>
          have released : ((manager.progress wid).release wid).limits = manager.limits :=
            release_limits (manager.progress wid) wid
          have reaped : ((((manager.progress wid).release wid).logFailure deferred).reap wid).limits =
              manager.limits := (reap_limits _ wid).trans released
          dsimp only
          split
          · exact released
          · split
            · exact reaped
            · exact (request_limits env closed _ _ _).trans reaped

/-- The limits are in order, and allow for a worker. -/
def Ordered (limits : Nat × Nat) : Prop := 1 ≤ limits.1 ∧ limits.1 ≤ limits.2

def raised (count : Nat) (limits : Nat × Nat) : Nat × Nat := (limits.1 + count, max (limits.1 + count) limits.2)

def lowered (count : Nat) (limits : Nat × Nat) : Nat × Nat :=
  (min (max 1 (limits.2 - count)) limits.1, max 1 (limits.2 - count))

theorem increaseSpawnLimit_limits (count : Nat) :
    (manager.increaseSpawnLimit env count).limits = raised count manager.limits :=
  iterate_limits { manager with low := _, high := _ } (increaseOne_limits env) count

theorem decreaseSpawnLimit_limits (count : Nat) :
    (manager.decreaseSpawnLimit env count).limits = lowered count manager.limits :=
  iterate_limits { manager with low := _, high := _ } (decreaseOne_limits env) count

theorem Ordered.raised {limits : Nat × Nat} (ordered : Ordered limits) (count : Nat) :
    Ordered (raised count limits) :=
  ⟨Nat.le_add_right_of_le ordered.1, Nat.le_max_left _ _⟩

theorem Ordered.lowered {limits : Nat × Nat} (ordered : Ordered limits) (count : Nat) :
    Ordered (lowered count limits) :=
  ⟨Nat.le_min.mpr ⟨Nat.le_max_left _ _, ordered.1⟩, Nat.min_le_left _ _⟩

end RedirectorManager

namespace RedirectorReactor

open RedirectorManager

variable {δ μ : Type} {closed : δ} {env : Env δ μ} {before after : State δ μ}

/-- What a command of the supervisor makes of the limits. -/
def Supervision.limits : Supervision → Nat × Nat → Nat × Nat
  | .increaseSpawnLimit count => raised count
  | .decreaseSpawnLimit count => lowered count
  | _ => id

def Event.limits : Event → Nat × Nat → Nat × Nat
  | .supervise supervision => supervision.limits
  | _ => id

theorem supervise_limits (session : Session δ μ) (supervision : Supervision) :
    (supervise closed env session supervision).manager.limits = supervision.limits session.manager.limits := by
  cases supervision with
  | provision => exact provision_limits env session.manager
  | deprovision => exact deprovision_limits env session.manager
  | respawn => exact respawn_limits env session.manager
  | killWorkers => exact killWorkers_limits env session.manager
  | increaseSpawnLimit count => exact increaseSpawnLimit_limits env session.manager count
  | decreaseSpawnLimit count => exact decreaseSpawnLimit_limits env session.manager count

/-- Nothing but the commands of the supervisor changes the limits. -/
theorem move_limits {event : Event} (moved : move closed env before event = some after) :
    after.manager.limits = event.limits before.manager.limits := by
  cases event with
  | alarm =>
      cases moved
      rfl
  | supervise supervision =>
      rw [move, Option.ite_none_right_eq_some] at moved
      obtain ⟨_, ⟨⟩⟩ := moved
      exact supervise_limits before.session supervision
  | ready events =>
      rw [move, Option.ite_none_right_eq_some] at moved
      obtain ⟨_, ⟨⟩⟩ := moved
      unfold receive
      split
      · rfl
      · split
        · rfl
        · next request _ =>
            exact request_limits env closed before.manager
              { request with ticket := before.session.submitted.length } false
        · rfl
  | proceed =>
      rw [move, proceed] at moved
      split at moved <;> cases moved
      · rfl
      · exact doqueue_limits env closed before.manager
      · rfl
      · exact getDecision_limits env closed before.manager _
      · rfl
      · exact doqueue_limits env closed before.manager
      · rfl

end RedirectorReactor

end ExaProxy.Redirector
