import ExaProxy.Data.Dictionary
import ExaProxy.Data.Transition
import Mathlib.Algebra.Order.Group.Defs
import Mathlib.Algebra.Order.Group.Int

namespace ExaProxy.Util

open Data

/-- `store` is the dictionary itself.  `last` is an entry that was taken out of the
table before its time had come. -/
structure TimeCache (κ ν τ : Type*) where
  timeout : τ
  last : Option (κ × τ) := none
  time : List (κ × τ) := []
  store : AList (fun _ : κ => ν) := ∅

/-- The generator of `expired`: before its first line, or at one of its two `yield`s. -/
inductive Generator (τ : Type*) where
  | start (maximum : Int)
  | slot (expire : τ) (maximum : Int)
  | table (expire : τ) (maximum : Int)
deriving DecidableEq, Repr

namespace TimeCache

variable {κ ν τ : Type*} [DecidableEq κ] [AddCommGroup τ] [LinearOrder τ]
  (cache : TimeCache κ ν τ) (key : κ) (value : ν) (now expire : τ) (maximum : Int)

/-- `self.time[key] = time()`, which leaves a key of the table in its place. -/
def stamp : List (κ × τ) :=
  if key ∈ cache.time.map Prod.fst then
    cache.time.map fun entry => if entry.1 = key then (key, now) else entry
  else cache.time ++ [(key, now)]

/-- `__setitem__` -/
def setitem : TimeCache κ ν τ :=
  { cache with
    store := cache.store.insert key value
    time := if cache.timeout > 0 then cache.stamp key now else cache.time }

/-- `pop`, with `none` for a key that is not there; `__delitem__` does the same. -/
def pop : Option ν × TimeCache κ ν τ :=
  (cache.store.lookup key,
    { cache with
      time := cache.time.filter (·.1 ≠ key)
      store := cache.store.erase key })

/-- The loop over the table, for the entries that are left of it. -/
def sweepFrom : List (κ × τ) → Option (κ × Generator τ) × TimeCache κ ν τ
  | [] => (none, { cache with time := [] })
  | (k, t) :: time =>
      if maximum = 0 then (none, { cache with time := (k, t) :: time })
      else if t > expire then (none, { cache with time, last := some (k, t) })
      else if k ∈ cache.store then (some (k, .table expire (maximum - 1)), { cache with time })
      else sweepFrom time

def sweep : Option (κ × Generator τ) × TimeCache κ ν τ := cache.sweepFrom expire maximum cache.time

/-- `next`, on a generator of `expired`: the key that is yielded, if any is, with what
becomes of the generator. -/
def next : Generator τ → Option (κ × Generator τ) × TimeCache κ ν τ
  | .start maximum =>
      let expire := now - cache.timeout
      match cache.last with
      | none => cache.sweep expire maximum
      | some (k, t) =>
          if t > expire then (none, cache)
          else if k ∈ cache.store then (some (k, .slot expire (maximum - 1)), cache)
          else { cache with last := none }.sweep expire maximum
  | .slot expire maximum => { cache with last := none }.sweep expire maximum
  | .table expire maximum => cache.sweep expire maximum

/-- What is still to be looked at, oldest first. -/
def tracked : List (κ × τ) := cache.last.toList ++ cache.time

end TimeCache

namespace Generator

variable {τ : Type*} [AddCommGroup τ] (now timeout : τ)

def maximum : Generator τ → Int
  | .start maximum | .slot _ maximum | .table _ maximum => maximum

/-- The latest time of an entry that is yielded. -/
def expire : Generator τ → τ
  | .start _ => now - timeout
  | .slot expire _ | .table expire _ => expire

end Generator

/-- An iteration over `expired(given)` and the keys it has yielded. -/
structure Iteration (κ τ : Type*) where
  number : Int
  generator : Generator τ := .start number
  keys : List κ := []

/-- A cache in use, with what was inserted and what was yielded since it was made. -/
structure Usage (κ ν τ : Type*) where
  cache : TimeCache κ ν τ
  now : τ
  inserted : List (κ × τ) := []
  yielded : List κ := []
  iteration : Option (Iteration κ τ) := none

namespace Usage

variable {κ ν τ : Type*} [DecidableEq κ] [AddCommGroup τ] [LinearOrder τ] (usage : Usage κ ν τ)

/-- `next` on the iteration, which is over when it raises `StopIteration`. -/
def next (iteration : Iteration κ τ) : Usage κ ν τ :=
  match usage.cache.next usage.now iteration.generator with
  | (none, cache) => { usage with cache, iteration := none }
  | (some (key, generator), cache) =>
      { usage with
        cache
        yielded := usage.yielded ++ [key]
        iteration := some { iteration with generator, keys := iteration.keys ++ [key] } }

/-- Keys are inserted and popped at any time, also between two calls of `next`. -/
inductive Step : Usage κ ν τ → Usage κ ν τ → Prop where
  | tick {usage : Usage κ ν τ} {now : τ} (later : usage.now ≤ now) : Step usage { usage with now }
  | insert {usage : Usage κ ν τ} {key : κ} {value : ν} (fresh : key ∉ usage.inserted.map Prod.fst) :
      Step usage { usage with
        cache := usage.cache.setitem key value usage.now
        inserted := usage.inserted ++ [(key, usage.now)] }
  | pop {usage : Usage κ ν τ} {key : κ} : Step usage { usage with cache := (usage.cache.pop key).2 }
  | expired {usage : Usage κ ν τ} {number : Int} (idle : usage.iteration = none) (positive : 1 ≤ number) :
      Step usage { usage with iteration := some { number } }
  | next {usage : Usage κ ν τ} {iteration : Iteration κ τ} (going : usage.iteration = some iteration) :
      Step usage (usage.next iteration)

def Reached (timeout : τ) : Usage κ ν τ → Prop :=
  Reachable (fun usage => usage.cache = { timeout } ∧ usage.inserted = [] ∧ usage.yielded = [] ∧
    usage.iteration = none) Step

/-- The keys that are present, were not yielded and were inserted at `expire` or
before, in the order of their insertion. -/
def due (expire : τ) : List κ :=
  (usage.inserted.filter fun (key, t) => key ∈ usage.cache.store ∧ key ∉ usage.yielded ∧ t ≤ expire).map
    Prod.fst

/-- `for key in cache.expired(number)`, where the body pops keys it was given. -/
inductive Consumes : Usage κ ν τ → List κ → Usage κ ν τ → Prop where
  | stop {usage : Usage κ ν τ} {iteration : Iteration κ τ} (going : usage.iteration = some iteration)
      (spent : (usage.cache.next usage.now iteration.generator).1 = none) :
      Consumes usage [] (usage.next iteration)
  | next {usage popped after : Usage κ ν τ} {iteration : Iteration κ τ} {key : κ} {keys : List κ}
      (going : usage.iteration = some iteration)
      (found : (usage.cache.next usage.now iteration.generator).1.map Prod.fst = some key)
      (body : Relation.ReflTransGen (fun before after => ∃ given ∈ before.yielded,
        after = { before with cache := (before.cache.pop given).2 }) (usage.next iteration) popped)
      (rest : Consumes popped keys after) : Consumes usage (key :: keys) after

end Usage

namespace TimeCache

variable {κ ν τ : Type*} [AddCommGroup τ] [LinearOrder τ] {cache : TimeCache κ ν τ}
  {now expire : τ} {maximum : Int} {generator : Generator τ} {time : List (κ × τ)}

/-- The entry of the slot, unless the generator has just yielded it. -/
def slot (cache : TimeCache κ ν τ) : Generator τ → List (κ × τ)
  | .start _ | .table .. => cache.last.toList
  | .slot .. => []

/-- What the generator comes to next. -/
def ahead (cache : TimeCache κ ν τ) (generator : Generator τ) : List (κ × τ) :=
  cache.slot generator ++ cache.time

/-- What holds of the cache where the generator is suspended. -/
def Ready (cache : TimeCache κ ν τ) : Generator τ → Prop
  | .start maximum => maximum ≠ 0
  | .slot .. => True
  | .table .. => cache.last = none

/-- What `next` does: it drops entries whose keys were popped, and then either yields the
key of the first one that is left or has no time or no number for it. -/
inductive Outcome (store : AList (fun _ : κ => ν)) (timeout : τ) (ahead : List (κ × τ)) (expire : τ)
    (maximum : Int) : Option (κ × Generator τ) × TimeCache κ ν τ → Prop where
  | ended {dropped : List (κ × τ)} {after : TimeCache κ ν τ} (gone : ∀ entry ∈ dropped, entry.1 ∉ store)
      (left : ahead = dropped ++ after.tracked) (kept : after.store = store ∧ after.timeout = timeout)
      (stopped : maximum = 0 ∨ ∀ entry ∈ after.tracked.head?, expire < entry.2) :
      Outcome store timeout ahead expire maximum (none, after)
  | yields {dropped : List (κ × τ)} {key : κ} {t : τ} {generator : Generator τ} {after : TimeCache κ ν τ}
      (gone : ∀ entry ∈ dropped, entry.1 ∉ store)
      (left : ahead = dropped ++ (key, t) :: after.ahead generator)
      (kept : after.store = store ∧ after.timeout = timeout)
      (present : key ∈ store) (old : t ≤ expire) (more : maximum ≠ 0)
      (counted : generator.maximum = maximum - 1)
      (begun : ∀ now timeout, generator.expire now timeout = expire) (ready : after.Ready generator) :
      Outcome store timeout ahead expire maximum (some (key, generator), after)

variable {store : AList (fun _ : κ => ν)} {timeout : τ}
  {result : Option (κ × Generator τ) × TimeCache κ ν τ}

theorem Outcome.drop {entry : κ × τ} {ahead : List (κ × τ)} (absent : entry.1 ∉ store)
    (outcome : Outcome store timeout ahead expire maximum result) :
    Outcome store timeout (entry :: ahead) expire maximum result := by
  cases outcome with
  | ended gone left kept stopped =>
      refine .ended (List.forall_mem_cons.mpr ⟨absent, gone⟩) ?_ kept stopped
      rw [left, List.cons_append]
  | yields gone left kept present old more counted begun ready =>
      refine .yields (List.forall_mem_cons.mpr ⟨absent, gone⟩) ?_ kept present old more counted begun ready
      rw [left, List.cons_append]

variable [DecidableEq κ]

theorem sweepFrom_outcome (cleared : cache.last = none) (time : List (κ × τ)) :
    Outcome cache.store cache.timeout time expire maximum (cache.sweepFrom expire maximum time) := by
  induction time with
  | nil =>
      refine .ended (List.forall_mem_nil _) ?_ ⟨rfl, rfl⟩ ?_
      · simp [tracked, cleared]
      · simp [tracked, cleared]
  | cons entry time ih =>
      obtain ⟨k, t⟩ := entry
      rw [sweepFrom]
      split_ifs with full young present
      · refine .ended (List.forall_mem_nil _) ?_ ⟨rfl, rfl⟩ (.inl full)
        simp [tracked, cleared]
      · refine .ended (List.forall_mem_nil _) ?_ ⟨rfl, rfl⟩ (.inr ?_)
        · simp [tracked]
        · simpa [tracked] using young
      · refine .yields (List.forall_mem_nil _) ?_ ⟨rfl, rfl⟩ present (not_lt.mp young) full rfl
          (fun _ _ => rfl) cleared
        simp [ahead, slot, cleared]
      · exact ih.drop present

theorem next_outcome (ready : cache.Ready generator) (now : τ) :
    Outcome cache.store cache.timeout (cache.ahead generator) (generator.expire now cache.timeout)
      generator.maximum (cache.next now generator) := by
  have cleared : ({ cache with last := none } : TimeCache κ ν τ).last = none := rfl
  cases generator with
  | start maximum =>
      cases last : cache.last with
      | none =>
          have whole : cache.ahead (.start maximum) = cache.time := by simp [ahead, TimeCache.slot, last]
          rw [whole]
          simp only [next, last]
          exact sweepFrom_outcome last cache.time
      | some entry =>
          obtain ⟨k, t⟩ := entry
          have whole : cache.ahead (.start maximum) = (k, t) :: cache.time := by simp [ahead, TimeCache.slot, last]
          rw [whole]
          simp only [next, last]
          split_ifs with young present
          · refine .ended (List.forall_mem_nil _) ?_ ⟨rfl, rfl⟩ (.inr ?_)
            · exact whole.symm
            · simpa [tracked, last, Generator.expire] using young
          · refine .yields (List.forall_mem_nil _) ?_ ⟨rfl, rfl⟩ present (not_lt.mp young) ready rfl
              (fun _ _ => rfl) trivial
            rfl
          · exact (sweepFrom_outcome cleared cache.time).drop present
  | slot expire maximum => exact sweepFrom_outcome cleared cache.time
  | table expire maximum =>
      have whole : cache.ahead (.table expire maximum) = cache.time := by
        have last : cache.last = none := ready
        simp [ahead, TimeCache.slot, last]
      rw [whole]
      exact sweepFrom_outcome ready cache.time

end TimeCache

namespace Usage

variable {κ ν τ : Type*} {usage after : Usage κ ν τ} {iteration : Iteration κ τ} {timeout : τ}

def slot (usage : Usage κ ν τ) : List (κ × τ) :=
  match usage.iteration with
  | some iteration => usage.cache.slot iteration.generator
  | none => usage.cache.last.toList

/-- The entries that an iteration, this one or the next, comes to. -/
def ahead (usage : Usage κ ν τ) : List (κ × τ) := usage.slot ++ usage.cache.time

theorem ahead_going (going : usage.iteration = some iteration) :
    usage.ahead = usage.cache.ahead iteration.generator := by
  simp only [ahead, slot, going, TimeCache.ahead]

theorem slot_last {entry : κ × τ} (member : entry ∈ usage.slot) : usage.cache.last = some entry := by
  cases state : usage.iteration with
  | none => simpa [slot, state] using member
  | some iteration =>
      cases generator : iteration.generator with
      | start | table => simpa [slot, state, TimeCache.slot, generator] using member
      | slot => simp [slot, state, TimeCache.slot, generator] at member

theorem filter_of_covers {α : Type*} {part whole : List α} {wanted : α → Bool} (sub : part.Sublist whole)
    (nodup : whole.Nodup) (covers : ∀ item ∈ whole, wanted item → item ∈ part) :
    whole.filter wanted = part.filter wanted := by
  have inside : (whole.filter wanted).Subperm (part.filter wanted) := by
    refine List.subperm_of_subset (nodup.filter _) fun item member => ?_
    obtain ⟨member, want⟩ := List.mem_filter.mp member
    exact List.mem_filter.mpr ⟨covers item member want, want⟩
  exact ((sub.filter wanted).eq_of_length_le inside.length_le).symm

variable [AddCommGroup τ] [LinearOrder τ]

/-- No key that waits is lost, and no key comes twice. -/
structure Tracking (timeout : τ) (usage : Usage κ ν τ) : Prop where
  constant : usage.cache.timeout = timeout
  order : usage.ahead.Sublist usage.inserted
  waiting : ∀ entry ∈ usage.inserted, entry.1 ∈ usage.cache.store → entry.1 ∉ usage.yielded → entry ∈ usage.ahead
  unyielded : ∀ entry ∈ usage.ahead, entry.1 ∉ usage.yielded
  distinct : (usage.inserted.map Prod.fst).Nodup
  sorted : usage.inserted.Pairwise fun early late => early.2 ≤ late.2
  past : ∀ entry ∈ usage.inserted, entry.2 ≤ usage.now
  once : usage.yielded.Nodup
  known : ∀ key ∈ usage.yielded, key ∈ usage.inserted.map Prod.fst
  counted : ∀ iteration, usage.iteration = some iteration →
    0 ≤ iteration.generator.maximum ∧ iteration.generator.maximum + iteration.keys.length = iteration.number
  ready : ∀ iteration, usage.iteration = some iteration → usage.cache.Ready iteration.generator
  begun : ∀ iteration, usage.iteration = some iteration →
    iteration.generator.expire usage.now timeout ≤ usage.now - timeout

theorem tick_tracking [IsOrderedAddMonoid τ] {now : τ} (held : Tracking timeout usage) (later : usage.now ≤ now) :
    Tracking timeout { usage with now } := by
  refine { held with past := ?_, begun := ?_ }
  · exact fun entry member => (held.past entry member).trans later
  · intro iteration going
    have begun := held.begun iteration going
    cases generator : iteration.generator with
    | start maximum => exact le_refl _
    | slot expire maximum | table expire maximum =>
        rw [generator] at begun
        exact begun.trans (sub_le_sub_right later _)

theorem expired_tracking {number : Int} (held : Tracking timeout usage) (idle : usage.iteration = none)
    (positive : 1 ≤ number) : Tracking timeout { usage with iteration := some { number } } := by
  have same : ({ usage with iteration := some { number } } : Usage κ ν τ).ahead = usage.ahead := by
    simp only [ahead, slot, idle, TimeCache.slot]
  refine { held with order := ?_, waiting := ?_, unyielded := ?_, counted := ?_, ready := ?_, begun := ?_ }
  · rw [same]
    exact held.order
  · rw [same]
    exact held.waiting
  · rw [same]
    exact held.unyielded
  · intro _ given
    cases given
    simp only [Generator.maximum, List.length_nil]
    omega
  · intro _ given
    cases given
    simp only [TimeCache.Ready]
    omega
  · intro _ given
    cases given
    exact le_refl _

variable [DecidableEq κ]

theorem due_eq (held : Tracking timeout usage) (expire : τ) : usage.due expire =
    (usage.ahead.filter fun (key, t) => key ∈ usage.cache.store ∧ t ≤ expire).map Prod.fst := by
  have covers : ∀ entry ∈ usage.inserted, decide (entry.1 ∈ usage.cache.store ∧ entry.1 ∉ usage.yielded ∧
      entry.2 ≤ expire) = true → entry ∈ usage.ahead := by
    intro entry member wanted
    simp only [decide_eq_true_eq] at wanted
    exact held.waiting entry member wanted.1 wanted.2.1
  rw [due, filter_of_covers held.order (held.distinct.of_map _) covers]
  refine congrArg _ (List.filter_congr fun entry member => ?_)
  simp [held.unyielded entry member]

theorem insert_tracking {key : κ} {value : ν} (held : Tracking timeout usage) (positive : 0 < timeout)
    (fresh : key ∉ usage.inserted.map Prod.fst) :
    Tracking timeout { usage with
      cache := usage.cache.setitem key value usage.now
      inserted := usage.inserted ++ [(key, usage.now)] } := by
  have inTime : ∀ entry ∈ usage.cache.time, entry ∈ usage.inserted := fun entry member =>
    held.order.subset (List.mem_append_right _ member)
  have absent : key ∉ usage.cache.time.map Prod.fst := by
    intro listed
    obtain ⟨entry, member, rfl⟩ := List.mem_map.mp listed
    exact fresh (List.mem_map_of_mem (inTime entry member))
  have stamped : (usage.cache.setitem key value usage.now).time = usage.cache.time ++ [(key, usage.now)] := by
    simp only [TimeCache.setitem, held.constant, gt_iff_lt, positive, if_true, TimeCache.stamp, absent, if_false]
  have more : ({ usage with
      cache := usage.cache.setitem key value usage.now
      inserted := usage.inserted ++ [(key, usage.now)] } : Usage κ ν τ).ahead =
        usage.ahead ++ [(key, usage.now)] := by
    simp only [ahead, stamped, List.append_assoc]
    rfl
  refine { held with order := ?_, waiting := ?_, unyielded := ?_, distinct := ?_, sorted := ?_, past := ?_, known := ?_ }
  · rw [more]
    exact held.order.append_right _
  · rw [more]
    intro entry member present unyielded
    rw [List.mem_append, List.mem_singleton] at member ⊢
    refine member.imp_left fun earlier => ?_
    have other : entry.1 ≠ key := fun same => fresh (same ▸ List.mem_map_of_mem earlier)
    have present : entry.1 ∈ usage.cache.store := (AList.mem_insert _).mp present |>.resolve_left other
    exact held.waiting entry earlier present unyielded
  · rw [more]
    intro entry member
    obtain earlier | rfl := List.mem_append.mp member |>.imp_right List.mem_singleton.mp
    · exact held.unyielded entry earlier
    · exact fun given => fresh (held.known key given)
  · rw [List.map_append, List.map_singleton, ← List.concat_eq_append]
    exact held.distinct.concat fresh
  · refine List.pairwise_append.mpr ⟨held.sorted, List.pairwise_singleton _ _, fun early member late last => ?_⟩
    rw [List.mem_singleton.mp last]
    exact held.past early member
  · intro entry member
    obtain earlier | rfl := List.mem_append.mp member |>.imp_right List.mem_singleton.mp
    · exact held.past entry earlier
    · exact le_refl _
  · intro given member
    rw [List.map_append]
    exact List.mem_append_left _ (held.known given member)

theorem pop_tracking {key : κ} (held : Tracking timeout usage) :
    Tracking timeout { usage with cache := (usage.cache.pop key).2 } := by
  have kept : ({ usage with cache := (usage.cache.pop key).2 } : Usage κ ν τ).ahead =
      usage.slot ++ usage.cache.time.filter (·.1 ≠ key) := rfl
  have fewer : (usage.slot ++ usage.cache.time.filter (·.1 ≠ key)).Sublist usage.ahead :=
    List.filter_sublist.append_left _
  refine { held with order := ?_, waiting := ?_, unyielded := ?_ }
  · rw [kept]
    exact fewer.trans held.order
  · intro entry member present unyielded
    obtain ⟨other, present⟩ := AList.mem_erase.mp present
    rw [kept, List.mem_append, List.mem_filter, decide_eq_true_iff]
    refine (List.mem_append.mp (held.waiting entry member present unyielded)).imp_right fun tabled => ?_
    exact ⟨tabled, other⟩
  · rw [kept]
    exact fun entry member => held.unyielded entry (fewer.subset member)

theorem due_dropped {dropped rest : List (κ × τ)} (held : Tracking timeout usage) (expire : τ)
    (gone : ∀ entry ∈ dropped, entry.1 ∉ usage.cache.store) (left : usage.ahead = dropped ++ rest) :
    usage.due expire = (rest.filter fun (key, t) => key ∈ usage.cache.store ∧ t ≤ expire).map Prod.fst := by
  have none : (dropped.filter fun (key, t) => key ∈ usage.cache.store ∧ t ≤ expire) = [] := by
    refine List.filter_eq_nil_iff.mpr fun entry member => ?_
    simp [gone entry member]
  rw [due_eq held, left, List.filter_append, none, List.nil_append]

/-- `next` yields the oldest key whose time has come, as long as the number is not reached. -/
theorem next_key (held : Tracking timeout usage) (going : usage.iteration = some iteration) :
    (usage.cache.next usage.now iteration.generator).1.map Prod.fst =
      if iteration.keys.length < iteration.number then
        (usage.due (iteration.generator.expire usage.now timeout)).head? else none := by
  have outcome := TimeCache.next_outcome (held.ready iteration going) usage.now
  obtain ⟨positive, counted⟩ := held.counted iteration going
  rw [held.constant, ← ahead_going going] at outcome
  generalize usage.cache.next usage.now iteration.generator = result at outcome ⊢
  cases outcome with
  | ended gone left kept stopped =>
      rename_i dropped after
      rcases stopped with full | young
      · rw [if_neg (by omega), Option.map_none]
      · have sorted := held.sorted.sublist (left ▸ held.order) |>.sublist (List.sublist_append_right _ _)
        have none : usage.due (iteration.generator.expire usage.now timeout) = [] := by
          rw [due_dropped held _ gone left, List.map_eq_nil_iff, List.filter_eq_nil_iff]
          cases tracked : after.tracked with
          | nil => simp
          | cons first rest =>
              rw [tracked] at sorted young
              have first_young := young first rfl
              intro entry member
              have later : first.2 ≤ entry.2 := by
                obtain rfl | behind := List.mem_cons.mp member
                · exact le_refl _
                · exact List.rel_of_pairwise_cons sorted behind
              have late : ¬ entry.2 ≤ iteration.generator.expire usage.now timeout :=
                not_le.mpr (first_young.trans_le later)
              simp [late]
        rw [none, List.head?_nil, ite_self, Option.map_none]
  | yields gone left kept present old more =>
      rw [if_pos (by omega), due_dropped held _ gone left, List.filter_cons_of_pos (by simp [present, old])]
      rfl

theorem next_tracking (held : Tracking timeout usage) (going : usage.iteration = some iteration) :
    Tracking timeout (usage.next iteration) := by
  have outcome := TimeCache.next_outcome (held.ready iteration going) usage.now
  obtain ⟨positive, counted⟩ := held.counted iteration going
  rw [held.constant, ← ahead_going going] at outcome
  unfold next
  generalize usage.cache.next usage.now iteration.generator = result at outcome ⊢
  cases outcome with
  | ended gone left kept stopped =>
      rename_i dropped after
      obtain ⟨store, constant⟩ := kept
      have rest : ({ usage with cache := after, iteration := none } : Usage κ ν τ).ahead = after.tracked := rfl
      have fewer : after.tracked.Sublist usage.ahead := left ▸ List.sublist_append_right _ _
      refine { held with
        constant, order := ?_, waiting := ?_, unyielded := ?_, counted := ?_, ready := ?_, begun := ?_ }
      · rw [rest]
        exact fewer.trans held.order
      · intro entry member present unyielded
        rw [store] at present
        have waits := held.waiting entry member present unyielded
        rw [left, List.mem_append] at waits
        exact waits.resolve_left fun dropped => gone entry dropped present
      · exact fun entry member => held.unyielded entry (fewer.subset member)
      · intro _ shown
        cases shown
      · intro _ shown
        cases shown
      · intro _ shown
        cases shown
  | yields gone left kept present old more count start ready =>
      rename_i dropped key t generator after
      obtain ⟨store, constant⟩ := kept
      dsimp only
      have found : (key, t) ∈ usage.ahead := by simp [left]
      have unyielded := held.unyielded _ found
      have fewer : ((key, t) :: after.ahead generator).Sublist usage.ahead := left ▸ List.sublist_append_right _ _
      have others : ∀ entry ∈ after.ahead generator, entry.1 ≠ key := by
        have distinct := held.distinct.sublist ((fewer.trans held.order).map Prod.fst)
        intro entry member same
        have listed := List.mem_map_of_mem (f := Prod.fst) member
        rw [same] at listed
        exact (List.nodup_cons.mp distinct).1 listed
      refine { held with
        constant, order := ?_, waiting := ?_, unyielded := ?_, once := ?_, known := ?_, counted := ?_, ready := ?_,
        begun := ?_ }
      · exact (List.sublist_cons_self _ _).trans (fewer.trans held.order)
      · intro entry member present unyielded
        rw [List.mem_append, not_or, List.mem_singleton] at unyielded
        rw [store] at present
        have waits := held.waiting entry member present unyielded.1
        rw [left, List.mem_append, List.mem_cons] at waits
        rcases waits with dropped | rfl | behind
        · exact absurd present (gone entry dropped)
        · exact absurd rfl unyielded.2
        · exact behind
      · intro entry member given
        rcases List.mem_append.mp given with earlier | now
        · exact held.unyielded entry (fewer.subset (List.mem_cons_of_mem _ member)) earlier
        · exact others entry member (List.mem_singleton.mp now)
      · rw [← List.concat_eq_append]
        exact held.once.concat unyielded
      · intro given member
        obtain earlier | rfl := List.mem_append.mp member |>.imp_right List.mem_singleton.mp
        · exact held.known given earlier
        · exact List.mem_map_of_mem (held.order.subset found)
      · intro _ shown
        cases shown
        simp only [count, List.length_append, List.length_singleton]
        omega
      · intro _ shown
        cases shown
        exact ready
      · intro _ shown
        cases shown
        rw [start]
        exact held.begun iteration going

theorem reached_tracking [IsOrderedAddMonoid τ] (positive : 0 < timeout) (reached : Reached timeout usage) :
    Tracking timeout usage := by
  refine reached.invariant (Tracking timeout) ?_ ?_
  · rintro ⟨cache, now, inserted, yielded, iteration⟩ ⟨rfl, rfl, rfl, rfl⟩
    constructor <;> simp [ahead, slot]
  · intro before after _ held step
    cases step with
    | tick later => exact tick_tracking held later
    | insert fresh => exact insert_tracking held positive fresh
    | pop => exact pop_tracking held
    | expired idle number => exact expired_tracking held idle number
    | next going => exact next_tracking held going

theorem due_nodup (held : Tracking timeout usage) (expire : τ) : (usage.due expire).Nodup :=
  held.distinct.sublist (List.filter_sublist.map Prod.fst)

theorem due_next {key : κ} (held : Tracking timeout usage) (going : usage.iteration = some iteration)
    (found : (usage.cache.next usage.now iteration.generator).1.map Prod.fst = some key) (expire : τ) :
    (usage.next iteration).due expire = (usage.due expire).filter (· ≠ key) ∧
      ∃ after, (usage.next iteration).iteration = some after ∧ after.number = iteration.number ∧
        after.keys.length = iteration.keys.length + 1 ∧ ∀ now timeout',
          after.generator.expire now timeout' = iteration.generator.expire usage.now timeout := by
  have outcome := TimeCache.next_outcome (held.ready iteration going) usage.now
  rw [held.constant] at outcome
  unfold next
  generalize usage.cache.next usage.now iteration.generator = result at outcome found ⊢
  cases outcome with
  | ended => cases found
  | yields gone left kept present old more count start ready =>
      cases found
      refine ⟨?_, _, rfl, rfl, List.length_append, start⟩
      simp only [due, kept.1, List.filter_map, List.filter_filter]
      refine congrArg _ (List.filter_congr fun entry member => ?_)
      rw [Bool.eq_iff_iff]
      simp only [List.mem_append, List.mem_singleton, decide_eq_true_eq, Function.comp_apply, Bool.and_eq_true]
      tauto

theorem due_popped {popped : Usage κ ν τ} (expire : τ)
    (body : Relation.ReflTransGen (fun before after => ∃ given ∈ before.yielded,
      after = { before with cache := (before.cache.pop given).2 }) usage popped) :
    popped.due expire = usage.due expire ∧ popped.iteration = usage.iteration ∧
      Relation.ReflTransGen Step usage popped := by
  induction body with
  | refl => exact ⟨rfl, rfl, .refl⟩
  | tail _ step ih =>
      obtain ⟨given, yielded, rfl⟩ := step
      refine ⟨?_, ih.2.1, ih.2.2.tail .pop⟩
      rw [← ih.1]
      refine congrArg _ (List.filter_congr fun entry member => ?_)
      have other : entry.1 ∉ _ → entry.1 ≠ given := fun unyielded same => unyielded (same ▸ yielded)
      rw [Bool.eq_iff_iff]
      simp only [TimeCache.pop, AList.mem_erase, decide_eq_true_eq]
      tauto

theorem consumes_take [IsOrderedAddMonoid τ] {keys : List κ} (positive : 0 < timeout)
    (reached : Reached timeout usage) (consumed : Consumes usage keys after)
    (going : usage.iteration = some iteration) :
    keys = (usage.due (iteration.generator.expire usage.now timeout)).take
      (iteration.number - iteration.keys.length).toNat := by
  induction consumed generalizing iteration with
  | stop going' spent =>
      cases going'.symm.trans going
      have spec := next_key (reached_tracking positive reached) going
      rw [spent, Option.map_none] at spec
      split_ifs at spec with more
      · rw [List.head?_eq_none_iff.mp spec.symm, List.take_nil]
      · rw [Int.toNat_of_nonpos (by omega), List.take_zero]
  | @next usage popped _ current key keys going' found body rest ih =>
      obtain rfl : current = iteration := Option.some.inj (going'.symm.trans going)
      have held := reached_tracking positive reached
      have spec := next_key held going
      rw [found] at spec
      split_ifs at spec with more
      obtain ⟨others, later, iterating, number, count, same⟩ :=
        due_next held going found (current.generator.expire usage.now timeout)
      obtain ⟨unchanged, kept, steps⟩ := due_popped (current.generator.expire usage.now timeout) body
      obtain ⟨start, isInitial, run⟩ := reached.next (.next going)
      have tail := ih ⟨start, isInitial, run.trans steps⟩ (kept.trans iterating)
      obtain ⟨rest, due⟩ : ∃ rest, usage.due (current.generator.expire usage.now timeout) = key :: rest := by
        cases due : usage.due (current.generator.expire usage.now timeout) with
        | nil => simp [due] at spec
        | cons first rest => exact ⟨rest, by simpa [due] using spec.symm⟩
      have distinct := due_nodup held (current.generator.expire usage.now timeout)
      rw [due, List.nodup_cons] at distinct
      have kept : ∀ other ∈ rest, other ≠ key := fun other member equal => distinct.1 (equal ▸ member)
      rw [same, unchanged, others, due, List.filter_cons_of_neg (by simp), List.filter_eq_self.mpr (by simpa using kept),
        number, count] at tail
      have more : (current.number - current.keys.length).toNat =
          (current.number - ↑(current.keys.length + 1)).toNat + 1 := by omega
      rw [tail, due, more, List.take_succ_cons]

/-- A key is only yielded once its time has come, and only once; a key that is present
and was not yielded is still kept; each call of `next` yields the first key, in the order
of insertion, that is due, until the number is reached; and so an iteration gives the
first `number` of them. -/
theorem expired_oldest_first [IsOrderedAddMonoid τ] (positive : 0 < timeout) (reached : Reached timeout usage) :
    usage.yielded.Nodup ∧
      (∀ entry ∈ usage.inserted, entry.1 ∈ usage.cache.store → entry.1 ∉ usage.yielded →
        entry ∈ usage.cache.time ∨ usage.cache.last = some entry) ∧
      (∀ iteration, usage.iteration = some iteration →
        iteration.generator.expire usage.now timeout ≤ usage.now - timeout ∧
        (usage.cache.next usage.now iteration.generator).1.map Prod.fst =
          if iteration.keys.length < iteration.number then
            (usage.due (iteration.generator.expire usage.now timeout)).head? else none) ∧
      ∀ number keys after, usage.iteration = none → 1 ≤ number →
        Consumes { usage with iteration := some { number } } keys after →
          keys = (usage.due (usage.now - timeout)).take number.toNat := by
  have held := reached_tracking positive reached
  refine ⟨held.once, ?_, ?_, ?_⟩
  · intro entry member present unyielded
    rcases List.mem_append.mp (held.waiting entry member present unyielded) with inSlot | tabled
    · exact .inr (slot_last inSlot)
    · exact .inl tabled
  · exact fun iteration going => ⟨held.begun iteration going, next_key held going⟩
  · intro number keys after idle least consumed
    have count : (number - (([] : List κ).length : Int)).toNat = number.toNat := by
      rw [List.length_nil]
      omega
    rw [← count]
    exact consumes_take positive (reached.next (.expired idle least)) consumed rfl

/-- Of two sockets, inserted at 0 and at 5, only the first has been idle for 10 at 12. -/
theorem expired_first_socket : ∃ usage after : Usage Nat Unit Int, Reached 10 usage ∧ usage.due 2 = [1] ∧
    usage.yielded.Nodup ∧ Consumes { usage with iteration := some { number := 2 } } [1] after ∧
      ∀ keys after, Consumes { usage with iteration := some { number := 2 } } keys after → keys = [1] := by
  let made : Usage Nat Unit Int := { cache := { timeout := 10 }, now := 0 }
  let first := { made with cache := made.cache.setitem 1 () 0, inserted := [(1, 0)] }
  let later := { first with now := 5 }
  let second := { later with cache := later.cache.setitem 2 () 5, inserted := [(1, 0), (2, 5)] }
  have reached : Reached 10 { second with now := 12 } := by
    have start : Reached 10 made := .start ⟨rfl, rfl, rfl, rfl⟩
    have inserted : Reached 10 first := start.next (.insert (by decide))
    have ticked : Reached 10 later := inserted.next (.tick (by decide))
    have both : Reached 10 second := ticked.next (.insert (by decide))
    exact both.next (.tick (by decide))
  have spec := expired_oldest_first (by decide) reached
  refine ⟨_, _, reached, by decide, spec.1, .next rfl rfl .refl (.stop rfl rfl), fun keys after consumed => ?_⟩
  exact spec.2.2.2 2 keys after rfl (by decide) consumed

end Usage

end ExaProxy.Util
