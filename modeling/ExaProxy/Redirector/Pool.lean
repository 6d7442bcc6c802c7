import ExaProxy.Data.Dictionary
import ExaProxy.Redirector.Manager

namespace ExaProxy.Redirector

open ExaProxy.Data

/-! The six collections of `RedirectorManager` describe one pool.  Inside a
call a worker may be held by the caller, neither available nor active. -/

namespace RedirectorManager

variable {δ μ : Type} {env : Env δ μ} {closed : δ} {held : Finset Wid}
  {manager : RedirectorManager μ} {wid : Wid}

section Fields

variable (env manager wid)

@[simp] theorem spawnOne_available :
    (manager.spawnOne env).available = insert manager.nextid manager.available := by
  dsimp only [spawnOne]; split <;> rfl

@[simp] theorem spawnOne_active : (manager.spawnOne env).active = manager.active := by
  dsimp only [spawnOne]; split <;> rfl

@[simp] theorem spawnOne_stopping : (manager.spawnOne env).stopping = manager.stopping := by
  dsimp only [spawnOne]; split <;> rfl

@[simp] theorem spawnOne_nextid :
    (manager.spawnOne env).nextid = (manager.nextid + 1) % maxint := by
  dsimp only [spawnOne]; split <;> rfl

@[simp] theorem spawnOne_spawned : (manager.spawnOne env).spawned = manager.spawned + 1 := by
  dsimp only [spawnOne]; split <;> rfl

@[simp] theorem spawnOne_queue : (manager.spawnOne env).queue = manager.queue := by
  dsimp only [spawnOne]; split <;> rfl

@[simp] theorem spawnOne_failures : (manager.spawnOne env).failures = manager.failures := by
  dsimp only [spawnOne]; split <;> rfl

theorem spawnOne_worker : (manager.spawnOne env).worker = manager.worker.insert manager.nextid
    ⟨env.creation manager.nextid,
      if env.forks manager.nextid then some manager.handles else none⟩ := by
  dsimp only [spawnOne]; split <;> rfl

@[simp] theorem reap_active : (manager.reap wid).active =
    if wid ∈ manager.worker then manager.active.erase wid else manager.active := by
  unfold reap
  cases known : manager.worker.lookup wid with
  | none => simp [AList.lookup_eq_none.mp known]
  | some worker => simp only [lookup_mem known, if_true]; split <;> rfl

@[simp] theorem reap_available : (manager.reap wid).available =
    if wid ∈ manager.worker then manager.available.erase wid else manager.available := by
  unfold reap
  cases known : manager.worker.lookup wid with
  | none => simp [AList.lookup_eq_none.mp known]
  | some worker => simp only [lookup_mem known, if_true]; split <;> rfl

@[simp] theorem reap_stopping : (manager.reap wid).stopping =
    if wid ∈ manager.worker then manager.stopping.erase wid else manager.stopping := by
  unfold reap
  cases known : manager.worker.lookup wid with
  | none => simp [AList.lookup_eq_none.mp known]
  | some worker => simp only [lookup_mem known, if_true]; split <;> rfl

@[simp] theorem reap_worker : (manager.reap wid).worker = manager.worker.erase wid := by
  unfold reap
  cases known : manager.worker.lookup wid with
  | none => exact (erase_absent (AList.lookup_eq_none.mp known)).symm
  | some worker => dsimp only; split <;> rfl

@[simp] theorem reap_nextid : (manager.reap wid).nextid = manager.nextid := by
  unfold reap; split; · rfl
  · split <;> rfl

@[simp] theorem reap_spawned : (manager.reap wid).spawned = manager.spawned := by
  unfold reap; split; · rfl
  · split <;> rfl

@[simp] theorem reap_queue : (manager.reap wid).queue = manager.queue := by
  unfold reap; split; · rfl
  · split <;> rfl

@[simp] theorem reap_failures : (manager.reap wid).failures = manager.failures := by
  unfold reap; split; · rfl
  · split <;> rfl

end Fields

/-- Every worker is available, active or held, in one way only, and only a
worker that is not available can be stopping. -/
structure Partitioned (held : Finset Wid) (manager : RedirectorManager μ) : Prop where
  partition : ∀ wid, wid ∈ manager.worker ↔
    wid ∈ manager.available ∨ wid ∈ manager.active ∨ wid ∈ held
  idle : ∀ wid ∈ manager.available, wid ∉ manager.active
  heldIdle : ∀ wid ∈ held, wid ∉ manager.available ∧ wid ∉ manager.active
  stopping : ∀ wid ∈ manager.stopping, wid ∈ manager.active ∨ wid ∈ held
  nextid : manager.nextid = (manager.spawned + 1) % maxint
  ids : ∀ wid ∈ manager.worker, wid ≤ manager.spawned

/-- The polled sockets and the keys of `processes` are the standard outputs of
the workers that have a child process. -/
structure Piped (manager : RedirectorManager μ) : Prop where
  processes : ∀ handle wid, manager.processes.lookup handle = some wid ↔
    ∃ worker, manager.worker.lookup wid = some worker ∧ worker.process = some handle
  polled : ∀ handle, handle ∈ manager.polled ↔ handle ∈ manager.processes
  handles : ∀ handle ∈ manager.processes, handle < manager.handles

structure WellFormed (held : Finset Wid) (manager : RedirectorManager μ) : Prop
    extends Partitioned held manager, Piped manager

theorem wellFormed_initial (low high : Nat) :
    WellFormed ∅ ({ low, high } : RedirectorManager μ) := by
  refine ⟨⟨?_, ?_, ?_, ?_, ?_, ?_⟩, ⟨?_, ?_, ?_⟩⟩ <;> simp [maxint]

/-- Fewer than `maxint` spawns draw pairwise different worker identifiers. -/
theorem Partitioned.nextid_fresh (partitioned : Partitioned held manager)
    (bound : manager.spawned + 1 < maxint) :
    manager.nextid = manager.spawned + 1 ∧ manager.nextid ∉ manager.worker := by
  have drawn : manager.nextid = manager.spawned + 1 := by
    rw [partitioned.nextid, Nat.mod_eq_of_lt bound]
  refine ⟨drawn, fun present => ?_⟩
  have small : manager.nextid ≤ manager.spawned := partitioned.ids _ present
  omega

theorem Partitioned.spawnOne (partitioned : Partitioned held manager)
    (bound : manager.spawned + 1 < maxint) : Partitioned held (manager.spawnOne env) := by
  obtain ⟨drawn, fresh⟩ := partitioned.nextid_fresh bound
  have unused := (not_congr (partitioned.partition manager.nextid)).mp fresh
  constructor
  · intro wid
    have members := partitioned.partition wid
    simp only [spawnOne_worker, spawnOne_available, spawnOne_active, AList.mem_insert,
      Finset.mem_insert]
    tauto
  · intro wid
    have idle := partitioned.idle wid
    simp only [spawnOne_available, spawnOne_active, Finset.mem_insert]
    grind
  · intro wid
    have idle := partitioned.heldIdle wid
    simp only [spawnOne_available, spawnOne_active, Finset.mem_insert]
    grind
  · simpa only [spawnOne_stopping, spawnOne_active] using partitioned.stopping
  · simp only [spawnOne_nextid, spawnOne_spawned, drawn]
  · intro wid
    have small := partitioned.ids wid
    simp only [spawnOne_worker, spawnOne_spawned, AList.mem_insert]
    grind

theorem Piped.spawnOne (piped : Piped manager) (fresh : manager.nextid ∉ manager.worker) :
    Piped (manager.spawnOne env) := by
  have unused : ∀ worker, manager.worker.lookup manager.nextid ≠ some worker :=
    fun worker found => fresh (lookup_mem found)
  have newHandle : manager.handles ∉ manager.processes := fun present =>
    Nat.lt_irrefl _ (piped.handles _ present)
  have kept : ∀ handle wid worker, manager.worker.lookup wid = some worker →
      worker.process = some handle → wid ≠ manager.nextid ∧ handle ≠ manager.handles := by
    intro handle wid worker known process
    refine ⟨?_, ?_⟩
    · intro same
      subst same
      exact unused _ known
    · intro same
      subst same
      exact newHandle (lookup_mem ((piped.processes _ _).mpr ⟨worker, known, process⟩))
  unfold RedirectorManager.spawnOne
  by_cases forks : env.forks manager.nextid
  · simp only [forks, if_true]
    constructor
    · intro handle wid
      have known := piped.processes handle wid
      simp only [lookup_insert_iff]
      constructor
      · rintro (⟨rfl, rfl⟩ | ⟨_, found⟩)
        · exact ⟨_, .inl ⟨rfl, rfl⟩, rfl⟩
        · obtain ⟨worker, present, process⟩ := known.mp found
          exact ⟨worker, .inr ⟨(kept _ _ _ present process).1, present⟩, process⟩
      · rintro ⟨worker, ⟨rfl, rfl⟩ | ⟨_, present⟩, process⟩
        · exact .inl ⟨(Option.some.inj process).symm, rfl⟩
        · exact .inr ⟨(kept _ _ _ present process).2, known.mpr ⟨worker, present, process⟩⟩
    · intro handle
      simp only [Finset.mem_insert, AList.mem_insert, piped.polled handle]
    · intro handle
      have below := piped.handles handle
      simp only [AList.mem_insert]
      grind
  · simp only [forks, if_false, Bool.false_eq_true]
    constructor
    · intro handle wid
      simp only [lookup_insert_iff, piped.processes handle wid]
      constructor
      · intro given
        obtain ⟨worker, present, process⟩ := given
        exact ⟨worker, .inr ⟨(kept _ _ _ present process).1, present⟩, process⟩
      · rintro ⟨worker, ⟨rfl, rfl⟩ | ⟨_, present⟩, process⟩
        · cases process
        · exact ⟨worker, present, process⟩
    · exact piped.polled
    · exact piped.handles

theorem WellFormed.spawnOne (wellFormed : WellFormed held manager)
    (bound : manager.spawned + 1 < maxint) : WellFormed held (manager.spawnOne env) :=
  ⟨wellFormed.toPartitioned.spawnOne bound,
    wellFormed.toPiped.spawnOne (wellFormed.nextid_fresh bound).2⟩

theorem spawn_spawned (number : Nat) (manager : RedirectorManager μ) :
    (spawn env number manager).spawned = manager.spawned + number := by
  induction number generalizing manager with
  | zero => rfl
  | succ number ih =>
      rw [spawn, ih, spawnOne_spawned]
      omega

theorem WellFormed.spawn {number : Nat} (wellFormed : WellFormed held manager)
    (bound : manager.spawned + number < maxint) :
    WellFormed held (spawn env number manager) := by
  induction number generalizing manager with
  | zero => exact wellFormed
  | succ number ih =>
      exact ih (wellFormed.spawnOne (by omega)) (by rw [spawnOne_spawned]; omega)

theorem Partitioned.reap (partitioned : Partitioned held manager) :
    Partitioned (held.erase wid) (manager.reap wid) := by
  by_cases known : wid ∈ manager.worker
  · constructor
    · intro other
      have members := partitioned.partition other
      simp only [reap_worker, reap_available, reap_active, known, if_true, AList.mem_erase,
        Finset.mem_erase]
      tauto
    · intro other
      have idle := partitioned.idle other
      simp only [reap_available, reap_active, known, if_true, AList.mem_erase, Finset.mem_erase]
      tauto
    · intro other
      have idle := partitioned.heldIdle other
      simp only [reap_available, reap_active, known, if_true, AList.mem_erase, Finset.mem_erase]
      tauto
    · intro other
      have stopping := partitioned.stopping other
      simp only [reap_stopping, reap_active, known, if_true, AList.mem_erase, Finset.mem_erase]
      tauto
    · simpa only [reap_nextid, reap_spawned] using partitioned.nextid
    · intro other
      have small := partitioned.ids other
      simp only [reap_worker, reap_spawned, AList.mem_erase]
      tauto
  · have absent := (not_congr (partitioned.partition wid)).mp known
    have same : manager.reap wid = manager := by
      simp only [RedirectorManager.reap, AList.lookup_eq_none.mpr known]
    rw [same, Finset.erase_eq_of_notMem (by tauto)]
    exact partitioned

theorem Piped.reap (piped : Piped manager) : Piped (manager.reap wid) := by
  unfold RedirectorManager.reap
  cases known : manager.worker.lookup wid with
  | none => exact piped
  | some worker =>
      have owner := fun handle other => piped.processes handle other
      cases process : worker.process with
      | none =>
          simp only [process]
          constructor
          · intro handle other
            simp only [lookup_erase_iff, owner handle other]
            constructor
            · intro given
              obtain ⟨holder, found, stdout⟩ := given
              refine ⟨holder, ⟨?_, found⟩, stdout⟩
              intro same
              subst same
              rw [known] at found
              cases found
              rw [process] at stdout
              cases stdout
            · intro given
              obtain ⟨holder, ⟨_, found⟩, stdout⟩ := given
              exact ⟨holder, found, stdout⟩
          · exact piped.polled
          · exact piped.handles
      | some handle =>
          have held := (owner handle wid).mpr ⟨worker, known, process⟩
          simp only [process]
          constructor
          · intro other holder
            simp only [lookup_erase_iff, owner other holder]
            constructor
            · intro given
              obtain ⟨different, found, known', stdout⟩ := given
              refine ⟨found, ⟨?_, known'⟩, stdout⟩
              intro same
              subst same
              rw [known] at known'
              cases known'
              exact different (Option.some.inj (stdout.symm.trans process))
            · intro given
              obtain ⟨found, ⟨different, known'⟩, stdout⟩ := given
              refine ⟨?_, found, known', stdout⟩
              intro same
              subst same
              have second := (owner other holder).mpr ⟨found, known', stdout⟩
              rw [held] at second
              exact different (Option.some.inj second).symm
          · intro other
            simp only [Finset.mem_erase, AList.mem_erase, piped.polled other]
          · intro other
            have below := piped.handles other
            simp only [AList.mem_erase]
            tauto

theorem WellFormed.reap (wid : Wid) (wellFormed : WellFormed held manager) :
    WellFormed (held.erase wid) (manager.reap wid) :=
  ⟨wellFormed.toPartitioned.reap, wellFormed.toPiped.reap⟩

theorem WellFormed.stopWorker (wellFormed : WellFormed ∅ manager) :
    WellFormed ∅ (manager.stopWorker wid) := by
  unfold RedirectorManager.stopWorker
  split
  · rename_i busy
    refine ⟨⟨wellFormed.partition, wellFormed.idle, wellFormed.heldIdle, ?_, wellFormed.nextid,
      wellFormed.ids⟩, ⟨wellFormed.processes, wellFormed.polled, wellFormed.handles⟩⟩
    intro other member
    rcases Finset.mem_insert.mp member with rfl | earlier
    · exact .inl busy
    · exact wellFormed.stopping other earlier
  · exact wellFormed.reap _

theorem WellFormed.foldl (step : RedirectorManager μ → Wid → RedirectorManager μ)
    (preserved : ∀ manager wid, WellFormed ∅ manager → WellFormed ∅ (step manager wid))
    (wids : List Wid) (wellFormed : WellFormed ∅ manager) :
    WellFormed ∅ (wids.foldl step manager) := by
  induction wids generalizing manager with
  | nil => exact wellFormed
  | cons wid rest ih => exact ih (preserved manager wid wellFormed)

theorem WellFormed.respawn (wellFormed : WellFormed ∅ manager)
    (bound : (manager.respawn env).spawned < maxint) : WellFormed ∅ (manager.respawn env) := by
  have stopped := wellFormed.foldl (fun m wid => m.stopWorker wid)
    (fun _ _ formed => formed.stopWorker) (manager.workers env)
  refine stopped.spawn ?_
  simpa only [RedirectorManager.respawn, spawn_spawned] using bound

theorem WellFormed.killWorkers (wellFormed : WellFormed ∅ manager) :
    WellFormed ∅ (manager.killWorkers env) :=
  wellFormed.foldl (fun m wid => m.reap wid) (fun _ wid formed => formed.reap wid) (manager.workers env)

theorem WellFormed.decreaseOne (wellFormed : WellFormed ∅ manager) :
    WellFormed ∅ (manager.decreaseOne env) := by
  unfold RedirectorManager.decreaseOne
  split
  · split
    · exact wellFormed.stopWorker
    · exact wellFormed
  · exact wellFormed

theorem WellFormed.decrease (count : Nat) (wellFormed : WellFormed ∅ manager) :
    WellFormed ∅ (manager.decrease env count) := by
  induction count generalizing manager with
  | zero => exact wellFormed
  | succ count ih => exact ih wellFormed.decreaseOne

theorem WellFormed.deprovision (wellFormed : WellFormed ∅ manager) :
    WellFormed ∅ (manager.deprovision env) := by
  unfold RedirectorManager.deprovision
  split
  · split
    · exact wellFormed.stopWorker
    · exact wellFormed
  · exact wellFormed

theorem increaseOne_spawned_le : manager.spawned ≤ (manager.increaseOne env).spawned := by
  unfold increaseOne
  split
  · rw [spawn_spawned]
    omega
  · exact Nat.le_refl _

theorem increase_spawned_le (count : Nat) (manager : RedirectorManager μ) :
    manager.spawned ≤ (manager.increase env count).spawned := by
  induction count generalizing manager with
  | zero => exact Nat.le_refl _
  | succ count ih => exact Nat.le_trans increaseOne_spawned_le (ih _)

theorem WellFormed.increaseOne (wellFormed : WellFormed ∅ manager)
    (bound : (manager.increaseOne env).spawned < maxint) :
    WellFormed ∅ (manager.increaseOne env) := by
  unfold RedirectorManager.increaseOne at bound ⊢
  split
  · rename_i room
    rw [if_pos room, spawn_spawned] at bound
    exact wellFormed.spawn bound
  · exact wellFormed

theorem WellFormed.increase {count : Nat} (wellFormed : WellFormed ∅ manager)
    (bound : (manager.increase env count).spawned < maxint) :
    WellFormed ∅ (manager.increase env count) := by
  induction count generalizing manager with
  | zero => exact wellFormed
  | succ count ih =>
      have below : (manager.increaseOne env).spawned < maxint :=
        Nat.lt_of_le_of_lt (increase_spawned_le count _) bound
      exact ih (wellFormed.increaseOne below) bound

theorem WellFormed.provision (wellFormed : WellFormed ∅ manager)
    (bound : (manager.provision env).spawned < maxint) : WellFormed ∅ (manager.provision env) := by
  dsimp only [RedirectorManager.provision] at bound ⊢
  -- at most two spawns: one refills the pool up to low, one answers the queue
  split_ifs at bound ⊢ <;> first
    | exact wellFormed
    | exact wellFormed.spawn (by simpa only [spawn_spawned] using bound)
    | (simp only [spawn_spawned] at bound
       exact (wellFormed.spawn (by omega)).spawn (by rw [spawn_spawned]; exact bound))

/-- The first available worker is found, since only workers of the pool are
available. -/
theorem WellFormed.acquire (env : Env δ μ) (wellFormed : WellFormed ∅ manager) :
    (manager.available = ∅ ∧ manager.acquire env = (manager, none)) ∨
      ∃ wid ∈ manager.available, (env.order.walk manager.available).head? = some wid ∧
        manager.acquire env =
          ({ manager with available := manager.available.erase wid }, some wid) := by
  have walked := env.order.mem_walk manager.available
  unfold RedirectorManager.acquire
  cases order : env.order.walk manager.available with
  | nil =>
      refine .inl ⟨Finset.eq_empty_of_forall_notMem fun wid member => ?_, rfl⟩
      simpa [order] using (walked wid).mpr member
  | cons wid rest =>
      have free : wid ∈ manager.available := (walked wid).mp (by simp [order])
      have known : wid ∈ manager.worker := (wellFormed.partition wid).mpr (.inl free)
      exact .inr ⟨wid, free, rfl, by simp only [acquireFrom, known, if_true]⟩

theorem WellFormed.hold (wellFormed : WellFormed ∅ manager) (free : wid ∈ manager.available) :
    WellFormed {wid} { manager with available := manager.available.erase wid } := by
  have busy := wellFormed.idle wid free
  refine ⟨⟨?_, ?_, ?_, ?_, wellFormed.nextid, wellFormed.ids⟩,
    ⟨wellFormed.processes, wellFormed.polled, wellFormed.handles⟩⟩
  · intro other
    have members := wellFormed.partition other
    simp only [Finset.mem_erase, Finset.mem_singleton, Finset.notMem_empty, or_false] at members ⊢
    grind
  · intro other
    have idle := wellFormed.idle other
    simp only [Finset.mem_erase]
    tauto
  · intro other member
    rw [Finset.mem_singleton.mp member]
    simpa using busy
  · intro other member
    have stopping := wellFormed.stopping other member
    simp only [Finset.notMem_empty, or_false] at stopping
    exact .inl stopping

theorem WellFormed.release (wellFormed : WellFormed {wid} manager) :
    WellFormed ∅ (manager.release wid) := by
  have known : wid ∈ manager.worker :=
    (wellFormed.partition wid).mpr (.inr (.inr (Finset.mem_singleton_self wid)))
  have busy := (wellFormed.heldIdle wid (Finset.mem_singleton_self wid)).2
  unfold RedirectorManager.release
  rw [if_pos known]
  split
  · have reaped := wellFormed.reap wid
    rwa [Finset.erase_singleton] at reaped
  · rename_i kept
    refine ⟨⟨?_, ?_, ?_, ?_, wellFormed.nextid, wellFormed.ids⟩,
      ⟨wellFormed.processes, wellFormed.polled, wellFormed.handles⟩⟩
    · intro other
      have members := wellFormed.partition other
      simp only [Finset.mem_insert, Finset.mem_singleton, Finset.notMem_empty, or_false] at members ⊢
      grind
    · intro other
      have idle := wellFormed.idle other
      simp only [Finset.mem_insert]
      grind
    · simp
    · intro other member
      have stopping := wellFormed.stopping other member
      simp only [Finset.mem_singleton] at stopping
      grind

theorem WellFormed.persist (wellFormed : WellFormed {wid} manager)
    (task : Request × μ × Bool) :
    WellFormed ∅ (manager.persist wid task) := by
  have free := (wellFormed.heldIdle wid (Finset.mem_singleton_self wid)).1
  refine ⟨⟨?_, ?_, ?_, ?_, wellFormed.nextid, wellFormed.ids⟩,
    ⟨wellFormed.processes, wellFormed.polled, wellFormed.handles⟩⟩
  · intro other
    have members := wellFormed.partition other
    simp only [RedirectorManager.persist, AList.mem_insert, Finset.mem_singleton,
      Finset.notMem_empty, or_false] at members ⊢
    tauto
  · intro other
    have idle := wellFormed.idle other
    simp only [RedirectorManager.persist, AList.mem_insert]
    grind
  · simp
  · intro other member
    have stopping := wellFormed.stopping other member
    simp only [RedirectorManager.persist, AList.mem_insert, Finset.mem_singleton] at stopping ⊢
    tauto

theorem release_absent (absent : wid ∉ manager.worker) : manager.release wid = manager := by
  rw [release, if_neg absent]

/-- No worker joins the pool between `before` and `after`. -/
def Shrinks (before after : RedirectorManager μ) : Prop :=
  ∀ wid, wid ∈ after.worker → wid ∈ before.worker

theorem reap_shrinks : manager.Shrinks (manager.reap wid) := by
  intro other member
  rw [reap_worker, AList.mem_erase] at member
  exact member.2

theorem release_shrinks : manager.Shrinks (manager.release wid) := by
  unfold release
  split
  · split
    · exact reap_shrinks
    · exact fun _ member => member
  · exact fun _ member => member

theorem Shrinks.absent {after : RedirectorManager μ} (shrinks : (manager.reap wid).Shrinks after) :
    wid ∉ after.worker := by
  intro member
  have earlier := shrinks wid member
  rw [reap_worker, AList.mem_erase] at earlier
  exact earlier.1 rfl

theorem WellFormed.logFailure (request : Request) (wellFormed : WellFormed held manager) :
    WellFormed held (manager.logFailure request) :=
  ⟨⟨wellFormed.partition, wellFormed.idle, wellFormed.heldIdle, wellFormed.stopping,
    wellFormed.nextid, wellFormed.ids⟩,
    ⟨wellFormed.processes, wellFormed.polled, wellFormed.handles⟩⟩

theorem WellFormed.enqueue (queue : List (Request × Bool)) (wellFormed : WellFormed held manager) :
    WellFormed held { manager with queue := queue } :=
  ⟨⟨wellFormed.partition, wellFormed.idle, wellFormed.heldIdle, wellFormed.stopping,
    wellFormed.nextid, wellFormed.ids⟩,
    ⟨wellFormed.processes, wellFormed.polled, wellFormed.handles⟩⟩

theorem WellFormed.attempt {request : Request} {tainted : Bool}
    {retry : RedirectorManager μ → RedirectorManager μ × Option (Command δ μ)}
    (retried : ∀ manager, WellFormed ∅ manager →
      WellFormed ∅ (retry manager).1 ∧ manager.Shrinks (retry manager).1)
    (wellFormed : WellFormed ∅ manager) :
    WellFormed ∅ (manager.attempt env request tainted retry).1 ∧
      manager.Shrinks (manager.attempt env request tainted retry).1 := by
  unfold RedirectorManager.attempt
  rcases wellFormed.acquire env with ⟨_, found⟩ | ⟨wid, free, _, found⟩
  · rw [found]
    exact ⟨wellFormed.enqueue _, fun _ member => member⟩
  · rw [found]
    have holding := wellFormed.hold free
    dsimp only
    cases env.decide wid request with
    | some command =>
        cases command with
        | enact decision => exact ⟨holding.release, release_shrinks⟩
        | defer message => exact ⟨holding.persist _, fun _ member => member⟩
    | none =>
        have reaped := (holding.logFailure request).reap wid
        rw [Finset.erase_singleton] at reaped
        obtain ⟨formed, shrinks⟩ := retried _ reaped
        dsimp only
        rw [release_absent shrinks.absent]
        refine ⟨formed, fun other member => ?_⟩
        have earlier := shrinks other member
        rw [reap_worker, AList.mem_erase] at earlier
        exact earlier.2

theorem WellFormed.request (request : Request) (tainted : Bool)
    (wellFormed : WellFormed ∅ manager) :
    WellFormed ∅ (manager.request env closed request tainted).1 ∧
      manager.Shrinks (manager.request env closed request tainted).1 := by
  have last : ∀ m : RedirectorManager μ, WellFormed ∅ m →
      WellFormed ∅ (m.request env closed request true).1 ∧
        m.Shrinks (m.request env closed request true).1 :=
    fun _ formed => formed.attempt fun _ formed => ⟨formed, fun _ member => member⟩
  cases tainted with
  | true => exact last manager wellFormed
  | false => exact wellFormed.attempt last

theorem WellFormed.doqueue (wellFormed : WellFormed ∅ manager) :
    WellFormed ∅ (manager.doqueue env closed).1 := by
  unfold RedirectorManager.doqueue
  split
  · exact wellFormed
  · split
    · exact wellFormed
    · exact ((wellFormed.enqueue _).request _ _).1

theorem WellFormed.progress (wellFormed : WellFormed ∅ manager)
    (busy : wid ∈ manager.active) :
    WellFormed {wid} (manager.progress wid) := by
  have free : wid ∉ manager.available := fun member => wellFormed.idle wid member busy
  refine ⟨⟨?_, ?_, ?_, ?_, wellFormed.nextid, wellFormed.ids⟩,
    ⟨wellFormed.processes, wellFormed.polled, wellFormed.handles⟩⟩
  · intro other
    have members := wellFormed.partition other
    simp only [RedirectorManager.progress, AList.mem_erase, Finset.mem_singleton,
      Finset.notMem_empty, or_false] at members ⊢
    grind
  · intro other
    have idle := wellFormed.idle other
    simp only [RedirectorManager.progress, AList.mem_erase]
    tauto
  · intro other member
    rw [Finset.mem_singleton.mp member]
    simpa [RedirectorManager.progress] using free
  · intro other member
    have stopping := wellFormed.stopping other member
    simp only [RedirectorManager.progress, AList.mem_erase, Finset.mem_singleton,
      Finset.notMem_empty, or_false] at stopping ⊢
    tauto

theorem WellFormed.getDecision (pipe : Handle) (wellFormed : WellFormed ∅ manager) :
    WellFormed ∅ (manager.getDecision env closed pipe).1 := by
  unfold RedirectorManager.getDecision
  split
  · exact wellFormed
  · rename_i wid _
    split
    · exact wellFormed.reap _
    · rename_i deferred message tainted found
      have released := (wellFormed.progress (lookup_mem found)).release
      dsimp only
      split
      · exact released
      · have reaped := (released.logFailure deferred).reap wid
        split
        · exact reaped
        · exact (WellFormed.request _ _ reaped).1

end RedirectorManager

end ExaProxy.Redirector
