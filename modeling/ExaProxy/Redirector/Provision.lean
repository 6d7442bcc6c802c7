import ExaProxy.Redirector.Operations

namespace ExaProxy.Redirector

namespace RedirectorManager

variable {δ μ : Type} {env : Env δ μ} {held : Finset Wid} {manager : RedirectorManager μ}

theorem spawnOne_size (fresh : manager.nextid ∉ manager.worker) :
    (manager.spawnOne env).size = manager.size + 1 := by
  have kept : manager.worker.keys.erase manager.nextid = manager.worker.keys :=
    List.erase_of_not_mem fresh
  simp [size, spawnOne_worker, AList.keys_insert, kept]

theorem WellFormed.spawn_size {number : Nat} (wellFormed : WellFormed held manager)
    (few : manager.spawned + number < maxint) :
    (RedirectorManager.spawn env number manager).size = manager.size + number := by
  induction number generalizing manager with
  | zero => rfl
  | succ number ih =>
      have fresh := (wellFormed.nextid_fresh (by omega)).2
      have later : (manager.spawnOne env).spawned + number < maxint := by
        rw [spawnOne_spawned]
        omega
      rw [RedirectorManager.spawn, ih (wellFormed.spawnOne (by omega)) later, spawnOne_size fresh]
      omega

theorem spawn_limits (env : Env δ μ) (number : Nat) (manager : RedirectorManager μ) :
    (spawn env number manager).low = manager.low ∧ (spawn env number manager).high = manager.high := by
  induction number generalizing manager with
  | zero => exact ⟨rfl, rfl⟩
  | succ number ih =>
      have limits : (manager.spawnOne env).low = manager.low ∧
          (manager.spawnOne env).high = manager.high := by
        dsimp only [spawnOne]
        split <;> exact ⟨rfl, rfl⟩
      rw [spawn, (ih _).1, (ih _).2]
      exact limits

theorem spawn_spawn (first second : Nat) (manager : RedirectorManager μ) :
    spawn env second (spawn env first manager) = spawn env (first + second) manager := by
  induction first generalizing manager with
  | zero => rw [Nat.zero_add, spawn]
  | succ first ih => rw [spawn, ih, Nat.succ_add, spawn]

/-- The workers `provision` adds for the queue: at least one, and no more than
would take the pool as it was found to `high`. -/
def growth (manager : RedirectorManager μ) : Nat :=
  if manager.size ≤ manager.queue.length ∧ manager.size < manager.high then
    min (max 1 (min manager.low ((manager.high - manager.low) / 4))) (manager.high - manager.size)
  else 0

theorem provision_eq_spawn (ordered : manager.low ≤ manager.high) :
    manager.provision env = spawn env (manager.low - manager.size + manager.growth) manager := by
  have refilled : (if manager.size < manager.low then spawn env (manager.low - manager.size) manager
      else manager) = spawn env (manager.low - manager.size) manager := by
    split
    · rfl
    · rw [Nat.sub_eq_zero_of_le (by omega), spawn]
  have signed : manager.size < manager.high →
      (min (max 1 (min (manager.low : Int) (((manager.high : Int) - manager.low) / 4)))
        ((manager.high : Int) - manager.size)).toNat =
      min (max 1 (min manager.low ((manager.high - manager.low) / 4)))
        (manager.high - manager.size) := by
    omega
  obtain ⟨low, high⟩ := spawn_limits env (manager.low - manager.size) manager
  simp only [provision, refilled, low, high, growth]
  by_cases backlog : manager.size ≤ manager.queue.length
  · by_cases room : manager.size < manager.high
    · rw [if_pos backlog, if_neg (by omega), if_pos ⟨backlog, room⟩, signed room, spawn_spawn]
    · rw [if_pos backlog, if_pos (by omega), if_neg (fun both => room both.2), Nat.add_zero]
  · rw [if_neg backlog, if_neg (fun both => backlog both.1), Nat.add_zero]

theorem WellFormed.provision_size (wellFormed : WellFormed held manager)
    (ordered : manager.low ≤ manager.high) (few : (manager.provision env).spawned < maxint) :
    (manager.provision env).size = max manager.low manager.size + manager.growth := by
  rw [provision_eq_spawn ordered] at few ⊢
  rw [spawn_spawned] at few
  rw [wellFormed.spawn_size few]
  omega

/-- The second spawn overshoots `high` when the first one has already filled the
pool to it: a pool of fixed size that lost workers while requests wait. -/
theorem provision_within_limits_iff (wellFormed : WellFormed ∅ manager)
    (few : (manager.provision env).spawned < maxint)
    (positive : 1 ≤ manager.low) (ordered : manager.low ≤ manager.high) :
    (manager.low ≤ (manager.provision env).size ∧
      (manager.provision env).size ≤ max manager.high manager.size ∧
      (manager.size ≤ manager.queue.length → manager.size < manager.high →
        manager.size < (manager.provision env).size)) ↔
    ¬ (manager.low = manager.high ∧ manager.size < manager.low ∧
        manager.size ≤ manager.queue.length) := by
  rw [wellFormed.provision_size ordered few, growth]
  by_cases grows : manager.size ≤ manager.queue.length ∧ manager.size < manager.high
  · rw [if_pos grows]
    omega
  · rw [if_neg grows]
    omega

theorem provision_within_limits_from_nothing :
    ((({ low := 2, high := 9 } : RedirectorManager Unit).provision (Session.uniform none)).size = 3) ∧
      2 ≤ ((({ low := 2, high := 9 } : RedirectorManager Unit).provision (Session.uniform none)).size) :=
  ⟨by decide +kernel, ((provision_within_limits_iff
    (wellFormed_initial 2 9) (by decide +kernel) (by decide) (by decide)).mpr (by decide)).1⟩

/-- One worker is allowed; it failed on the request that is now queued. -/
def lonelyFailure : RedirectorManager Unit :=
  ((spawn (Session.uniform none) 1 { low := 1, high := 1 }).request (Session.uniform none) ()
    Session.sampleRequest false).1

theorem provision_overshoots :
    lonelyFailure.size = 0 ∧ lonelyFailure.queue.length = 1 ∧ lonelyFailure.high = 1 ∧
      (lonelyFailure.provision (Session.uniform none)).size = 2 ∧
      ¬ (lonelyFailure.provision (Session.uniform none)).size ≤
        max lonelyFailure.high lonelyFailure.size := by
  decide +kernel

end RedirectorManager

end ExaProxy.Redirector
