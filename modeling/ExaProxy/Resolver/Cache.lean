import ExaProxy.Data.Buckets
import ExaProxy.Resolver.Manager

namespace ExaProxy.Resolver

open ExaProxy.Data

/-! The cache of answers, and the buckets in which its names expire.  The clock has fractions of a
second, but `ttl` and the times of buckets have none, so that they decide nothing. -/

namespace ResolverManager

variable {α : Type} {manager : ResolverManager α} {host : Str} {now : Nat}

/-- The time of the bucket for a name that is stored now. -/
def bucketTime (configuration : Configuration) (now : Nat) : Nat :=
  now + configuration.ttl - (now + configuration.ttl) % 5

theorem bucketTime_mono (configuration : Configuration) {before after : Nat} (later : before ≤ after) :
    bucketTime configuration before ≤ bucketTime configuration after := by
  rw [bucketTime, bucketTime]
  omega

theorem cacheDestination_eq (manager : ResolverManager α) (now : Nat) (hostname ip : Str) :
    manager.cacheDestination now hostname ip = if hostname ∈ manager.cache then manager else
      { manager with
        cache := manager.cache.insert hostname (some ip)
        cached := Buckets.put (bucketTime manager.configuration now) hostname manager.cached } := by
  rw [cacheDestination, Buckets.put, bucketTime]
  cases manager.cached.getLast? <;> rfl

/-- Each name of the cache is in one bucket, and the other way round. -/
structure Bucketed (manager : ResolverManager α) : Prop where
  ascending : Buckets.Ascending manager.cached
  nodup : (Buckets.items manager.cached).Nodup
  keys : ∀ host, host ∈ manager.cache ↔ host ∈ Buckets.items manager.cached

theorem Bucketed.cacheDestination (bucketed : Bucketed manager) (now : Nat) (hostname ip : Str) :
    Bucketed (manager.cacheDestination now hostname ip) := by
  rw [cacheDestination_eq]
  split
  · exact bucketed
  · next absent =>
      refine ⟨bucketed.ascending.put _ _, ?_, fun host => ?_⟩
      · rw [Buckets.items_put, List.nodup_append]
        refine ⟨bucketed.nodup, List.nodup_singleton _, fun held member other same equal => ?_⟩
        rw [List.mem_singleton] at same
        subst equal same
        exact absent ((bucketed.keys _).mpr member)
      · rw [AList.mem_insert, Buckets.items_put, List.mem_append, List.mem_singleton, bucketed.keys, or_comm]

theorem lookup_eraseAll (cache : AList fun _ : Str => Option Str) (hosts : List Str) (host : Str) :
    (hosts.foldl (fun cache hostname => cache.erase hostname) cache).lookup host =
      if host ∈ hosts then none else cache.lookup host := by
  induction hosts generalizing cache with
  | nil => rfl
  | cons first hosts ih =>
      rw [List.foldl_cons, ih]
      by_cases same : host = first
      · subst same
        simp
      · simp [same, AList.lookup_erase_ne same]

/-- What `expireCache` does where it takes the oldest bucket. -/
structure Evicts (oldest : Nat × List Str) (before after : ResolverManager α) : Prop where
  cached : before.cached = oldest :: after.cached
  cache : ∀ host, after.cache.lookup host = if host ∈ oldest.2 then none else before.cache.lookup host
  configuration : after.configuration = before.configuration

/-- `expireCache` takes the oldest bucket if and only if that is due or there are too many names. -/
theorem expireCache_cases (manager : ResolverManager α) (now : Nat) :
    (∃ oldest, (oldest.1 ≤ now ∨ maxEntries < manager.cache.keys.length) ∧
        Evicts oldest manager (manager.expireCache now)) ∨
      (∀ oldest ∈ manager.cached.head?, now < oldest.1 ∧ manager.cache.keys.length ≤ maxEntries) ∧
        manager.expireCache now = manager := by
  cases buckets : manager.cached with
  | nil =>
      refine .inr ⟨nofun, ?_⟩
      rw [expireCache, buckets]
  | cons oldest rest =>
      simp only [expireCache, buckets]
      split
      · next due => exact .inl ⟨oldest, due, buckets, lookup_eraseAll manager.cache oldest.2, rfl⟩
      · next kept =>
          refine .inr ⟨fun head same => ?_, rfl⟩
          cases same
          omega

theorem Evicts.mem {oldest : Nat × List Str} {before after : ResolverManager α} (evicts : Evicts oldest before after)
    (host : Str) : host ∈ after.cache ↔ host ∉ oldest.2 ∧ host ∈ before.cache := by
  rw [← AList.lookup_isSome, ← AList.lookup_isSome, evicts.cache]
  split
  · next gone => simp [gone]
  · next kept => simp [kept]

theorem Bucketed.evicts {oldest : Nat × List Str} {before after : ResolverManager α} (bucketed : Bucketed before)
    (evicts : Evicts oldest before after) : Bucketed after := by
  have ascending := bucketed.ascending
  have nodup := bucketed.nodup
  rw [evicts.cached] at ascending nodup
  have parted := List.nodup_append.mp nodup
  refine ⟨ascending.of_cons, parted.2.1, fun host => ?_⟩
  have listed := bucketed.keys host
  rw [evicts.cached, Buckets.items, List.flatMap_cons, List.mem_append] at listed
  rw [evicts.mem, listed]
  have apart := parted.2.2 host
  grind [Buckets.items]

theorem Bucketed.expireCache (bucketed : Bucketed manager) (now : Nat) : Bucketed (manager.expireCache now) := by
  obtain ⟨oldest, _, evicts⟩ | ⟨_, same⟩ := expireCache_cases manager now
  · exact bucketed.evicts evicts
  · rwa [same]

end ResolverManager

inductive CacheCall where
  | store (hostname ip : Str)
  | expire
deriving DecidableEq, Repr

/-- A call that is made for the cache, and when. -/
structure CacheEvent where
  time : Nat
  call : CacheCall
deriving DecidableEq, Repr

open ResolverManager

def CacheEvent.apply {α : Type} (event : CacheEvent) (manager : ResolverManager α) : ResolverManager α :=
  match event.call with
  | .store hostname ip => manager.cacheDestination event.time hostname ip
  | .expire => manager.expireCache event.time

/-- The resolver after the calls. -/
def cacheRun (α : Type) (configuration : Configuration) (events : List CacheEvent) : ResolverManager α :=
  events.foldl (fun manager event => event.apply manager) { configuration }

/-- The name was stored at the time, and is in the cache since then. -/
def StoredAt (α : Type) (configuration : Configuration) (events : List CacheEvent) (host : Str) (time : Nat) : Prop :=
  ∃ before ip after, events = before ++ ⟨time, .store host ip⟩ :: after ∧
    host ∉ (cacheRun α configuration before).cache ∧
    ∀ kept, kept <+: after → host ∈ (cacheRun α configuration (before ++ ⟨time, .store host ip⟩ :: kept)).cache

section Runs

variable {α : Type} {configuration : Configuration} {events : List CacheEvent} {event : CacheEvent} {host : Str}
  {time : Nat} {manager : ResolverManager α}

theorem cacheRun_concat (α : Type) (configuration : Configuration) (events : List CacheEvent) (event : CacheEvent) :
    cacheRun α configuration (events ++ [event]) = event.apply (cacheRun α configuration events) := by
  rw [cacheRun, List.foldl_append]
  rfl

theorem apply_bucketed (bucketed : Bucketed manager) (event : CacheEvent) : Bucketed (event.apply manager) := by
  obtain ⟨time, store | expire⟩ := event
  · exact bucketed.cacheDestination time _ _
  · exact bucketed.expireCache time

theorem cacheRun_bucketed (α : Type) (configuration : Configuration) (events : List CacheEvent) :
    Bucketed (cacheRun α configuration events) := by
  induction events using List.reverseRecOn with
  | nil => exact ⟨.nil, .nil, fun host => iff_of_false (AList.notMem_empty host) nofun⟩
  | append_singleton events event ih =>
      rw [cacheRun_concat]
      exact apply_bucketed ih event

theorem apply_configuration (event : CacheEvent) (manager : ResolverManager α) :
    (event.apply manager).configuration = manager.configuration := by
  obtain ⟨time, store | expire⟩ := event
  · simp only [CacheEvent.apply, cacheDestination_eq]
    split <;> rfl
  · obtain ⟨oldest, _, evicts⟩ | ⟨_, same⟩ := expireCache_cases manager time
    · exact evicts.configuration
    · exact congrArg ResolverManager.configuration same

theorem cacheRun_configuration (α : Type) (configuration : Configuration) (events : List CacheEvent) :
    (cacheRun α configuration events).configuration = configuration := by
  induction events using List.reverseRecOn with
  | nil => rfl
  | append_singleton events event ih => rw [cacheRun_concat, apply_configuration, ih]

theorem apply_until (same : manager.configuration = configuration)
    (bounded : Buckets.Until manager.cached (bucketTime configuration event.time)) :
    Buckets.Until (event.apply manager).cached (bucketTime configuration event.time) := by
  subst same
  obtain ⟨time, store | expire⟩ := event
  · simp only [CacheEvent.apply, cacheDestination_eq]
    split
    · exact bounded
    · exact bounded.put _
  · obtain ⟨oldest, _, evicts⟩ | ⟨_, same⟩ := expireCache_cases manager time
    · refine fun bucket member => bounded bucket ?_
      rw [evicts.cached]
      exact List.mem_cons_of_mem oldest member
    · have unchanged : (CacheEvent.mk time .expire).apply manager = manager := same
      rwa [unchanged]

theorem cacheRun_until (α : Type) (configuration : Configuration) {events : List CacheEvent}
    (ordered : (events.map CacheEvent.time).Pairwise (· ≤ ·)) {now : Nat} (later : ∀ event ∈ events, event.time ≤ now) :
    Buckets.Until (cacheRun α configuration events).cached (bucketTime configuration now) := by
  induction events using List.reverseRecOn generalizing now with
  | nil => exact nofun
  | append_singleton events event ih =>
      rw [List.map_append, List.pairwise_append] at ordered
      have before : ∀ earlier ∈ events, earlier.time ≤ event.time := fun earlier member =>
        ordered.2.2 _ (List.mem_map_of_mem member) _ (List.mem_singleton_self _)
      have bounded := ih ordered.1 before
      have last := later event (List.mem_append_right _ (List.mem_singleton_self event))
      have after := apply_until (cacheRun_configuration α configuration events) bounded
      rw [cacheRun_concat]
      exact fun bucket member => (after bucket member).trans (bucketTime_mono configuration last)

theorem apply_kept (same : manager.configuration = configuration)
    (bounded : Buckets.Until manager.cached (bucketTime configuration event.time)) {bucket : Nat}
    (holds : Buckets.Holds manager.cached bucket host) (kept : host ∈ (event.apply manager).cache) :
    Buckets.Holds (event.apply manager).cached bucket host := by
  subst same
  obtain ⟨time, store | expire⟩ := event
  · simp only [CacheEvent.apply, cacheDestination_eq]
    split
    · exact holds
    · exact (Buckets.holds_put bounded).mpr (.inl holds)
  · obtain ⟨oldest, _, evicts⟩ | ⟨_, same⟩ := expireCache_cases manager time
    · obtain ⟨held, listed, member⟩ := holds
      rw [evicts.cached] at listed
      rcases List.mem_cons.mp listed with rfl | listed
      · exact absurd member ((evicts.mem host).mp kept).1
      · exact ⟨held, listed, member⟩
    · have unchanged : (CacheEvent.mk time .expire).apply manager = manager := same
      rwa [unchanged]

theorem apply_stored (same : manager.configuration = configuration)
    (bounded : Buckets.Until manager.cached (bucketTime configuration event.time)) (absent : host ∉ manager.cache) (present : host ∈ (event.apply manager).cache) :
    (∃ ip, event.call = .store host ip) ∧
      Buckets.Holds (event.apply manager).cached (bucketTime configuration event.time) host := by
  subst same
  obtain ⟨time, ⟨hostname, ip⟩ | _⟩ := event
  · simp only [CacheEvent.apply, cacheDestination_eq] at present ⊢
    split at present
    · exact absurd present absent
    · next fresh =>
        obtain rfl : host = hostname := (AList.mem_insert _).mp present |>.resolve_right absent
        rw [if_neg fresh]
        exact ⟨⟨ip, rfl⟩, (Buckets.holds_put bounded).mpr (.inr ⟨rfl, rfl⟩)⟩
  · obtain ⟨oldest, _, evicts⟩ | ⟨_, same⟩ := expireCache_cases manager time
    · exact absurd ((evicts.mem host).mp present).2 absent
    · have unchanged : (CacheEvent.mk time .expire).apply manager = manager := same
      rw [unchanged] at present
      exact absurd present absent

theorem StoredAt.concat (stored : StoredAt α configuration events host time)
    (kept : host ∈ (cacheRun α configuration (events ++ [event])).cache) :
    StoredAt α configuration (events ++ [event]) host time := by
  obtain ⟨before, ip, after, rfl, absent, since⟩ := stored
  refine ⟨before, ip, after ++ [event], by simp, absent, fun part inside => ?_⟩
  rcases List.prefix_concat_iff.mp inside with rfl | inside
  · simpa using kept
  · exact since part inside

theorem cacheRun_holds (ordered : (events.map CacheEvent.time).Pairwise (· ≤ ·))
    (cached : host ∈ (cacheRun α configuration events).cache) : ∃ time, StoredAt α configuration events host time ∧
      Buckets.Holds (cacheRun α configuration events).cached (bucketTime configuration time) host := by
  induction events using List.reverseRecOn with
  | nil => exact absurd cached (AList.notMem_empty host)
  | append_singleton events event ih =>
      rw [List.map_append, List.pairwise_append] at ordered
      have before : ∀ earlier ∈ events, earlier.time ≤ event.time := fun earlier member =>
        ordered.2.2 _ (List.mem_map_of_mem member) _ (List.mem_singleton_self _)
      have bounded := cacheRun_until α configuration ordered.1 before
      have same := cacheRun_configuration α configuration events
      have applied := cacheRun_concat α configuration events event
      by_cases known : host ∈ (cacheRun α configuration events).cache
      · obtain ⟨time, stored, holds⟩ := ih ordered.1 known
        refine ⟨time, stored.concat cached, ?_⟩
        rw [applied] at cached ⊢
        exact apply_kept same bounded holds cached
      · have present := cached
        rw [applied] at present ⊢
        obtain ⟨⟨ip, call⟩, holds⟩ := apply_stored same bounded known present
        obtain ⟨time, _⟩ := event
        cases call
        refine ⟨time, ⟨events, ip, [], rfl, known, fun part inside => ?_⟩, holds⟩
        rwa [List.prefix_nil.mp inside]

/-- In each run with a clock that does not go back the names of the cache are those of the buckets,
each one in the bucket of the time at which it was stored, and `expireCache` takes the oldest
bucket with its names, if that is due or there are too many names, and else nothing. -/
theorem cache_bucketed (α : Type) (configuration : Configuration) (events : List CacheEvent)
    (ordered : (events.map CacheEvent.time).Pairwise (· ≤ ·)) :
    let manager := cacheRun α configuration events
    Bucketed manager ∧
      (∀ host ∈ manager.cache, ∃ time, StoredAt α configuration events host time ∧
        Buckets.Holds manager.cached (bucketTime configuration time) host) ∧
      ∀ now, (∃ oldest, (oldest.1 ≤ now ∨ maxEntries < manager.cache.keys.length) ∧
          Evicts oldest manager (manager.expireCache now)) ∨
        (∀ oldest ∈ manager.cached.head?, now < oldest.1 ∧ manager.cache.keys.length ≤ maxEntries) ∧
          manager.expireCache now = manager :=
  ⟨cacheRun_bucketed α configuration events, fun _ cached => cacheRun_holds ordered cached,
    expireCache_cases (cacheRun α configuration events)⟩

/-- Two names of one bucket, which is taken when it is due, and one of a later bucket. -/
def sampleCalls : List CacheEvent :=
  [⟨1, .store (ascii "a.b") (ascii "10.0.0.1")⟩, ⟨4, .store (ascii "c.d") (ascii "10.0.0.2")⟩,
    ⟨7, .store (ascii "e.f") (ascii "10.0.0.3")⟩, ⟨900, .expire⟩]

theorem cache_bucketed_sample :
    let configuration : Configuration := ⟨2, 10, 900, true, 100⟩
    let manager := cacheRun Unit configuration sampleCalls
    Bucketed manager ∧
      (∀ host ∈ manager.cache, ∃ time, StoredAt Unit configuration sampleCalls host time ∧
        Buckets.Holds manager.cached (bucketTime configuration time) host) ∧
      ∀ now, (∃ oldest, (oldest.1 ≤ now ∨ maxEntries < manager.cache.keys.length) ∧
          Evicts oldest manager (manager.expireCache now)) ∨
        (∀ oldest ∈ manager.cached.head?, now < oldest.1 ∧ manager.cache.keys.length ≤ maxEntries) ∧
          manager.expireCache now = manager :=
  cache_bucketed Unit ⟨2, 10, 900, true, 100⟩ sampleCalls (by decide)

end Runs

end ExaProxy.Resolver
