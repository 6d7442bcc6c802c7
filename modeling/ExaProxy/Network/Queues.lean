import ExaProxy.Data.Transition
import ExaProxy.Network.Pollers
import Mathlib.Data.Finset.Option
import Mathlib.Data.Finset.Union

namespace ExaProxy.Network

open ExaProxy.Data

/-! `KQueuePoller`, and that it and `EPoller` are what the managers take a poller for.  The
sockets are open: each has a descriptor of its own, so that `EPoller` keeps none as an error. -/

/-- What `KQueuePoller` keeps for a name; `poller` has what the name's queue waits for: the
descriptors, each with its filter. -/
structure Queue where
  sockets : Finset Sock := ∅
  poller : Finset (Nat × Direction) := ∅
  fdtosock : AList (fun _ : Nat => Sock) := ∅
  corked : Finset Sock := ∅

namespace Queue

variable (fileno : Sock → Nat) (queue : Queue) (direction : Direction) (sock : Sock)

/-- `poller.control` with `KQ_EV_ADD` -/
def enable : Queue := { queue with poller := insert (fileno sock, direction) queue.poller }

/-- `poller.control` with `KQ_EV_DELETE`, which raises for what the queue does not wait for. -/
def disable : Option Queue :=
  if (fileno sock, direction) ∈ queue.poller then
    some { queue with poller := queue.poller.erase (fileno sock, direction) }
  else none

/-- `addReadSocket`, with `none` where the assertion fails. -/
def add : Option Queue :=
  if sock ∈ queue.sockets then some queue
  else if fileno sock ∈ queue.fdtosock then none
  else
    let known : Queue := { queue with
      sockets := insert sock queue.sockets
      fdtosock := queue.fdtosock.insert (fileno sock) sock }
    some (known.enable fileno direction sock)

def remove : Option Queue :=
  if sock ∈ queue.sockets then
    let removed : Queue := { queue with
      fdtosock := queue.fdtosock.erase (fileno sock)
      sockets := queue.sockets.erase sock }
    if sock ∉ queue.corked then removed.disable fileno direction sock
    else some { removed with corked := queue.corked.erase sock }
  else some queue

def cork : Option Queue :=
  if sock ∈ queue.sockets ∧ sock ∉ queue.corked then
    let held : Queue := { queue with corked := insert sock queue.corked }
    held.disable fileno direction sock
  else some queue

def uncork : Option Queue :=
  if sock ∈ queue.sockets ∧ sock ∈ queue.corked then
    let freed : Queue := { queue with corked := queue.corked.erase sock }
    some (freed.enable fileno direction sock)
  else some queue

def act : Action → Option Queue
  | .add => queue.add fileno direction sock
  | .remove => queue.remove fileno direction sock
  | .cork => queue.cork fileno direction sock
  | .uncork => queue.uncork fileno direction sock

end Queue

/-- An event of a name's queue, where `error` is `KQ_EV_ERROR`. -/
structure KEvent where
  ident : Nat
  filter : Direction
  error : Bool := false
deriving DecidableEq

/-- A name's queue while its events are gone through, with the sockets that are reported
and those that are given up. -/
structure Seen where
  queue : Queue
  response : List Sock := []
  failed : List Sock := []

/-- An event of a descriptor without a socket is skipped. -/
def Seen.report (fileno : Sock → Nat) (seen : Seen) (event : KEvent) : Option Seen :=
  match seen.queue.fdtosock.lookup event.ident with
  | none => some seen
  | some sock =>
      let response := seen.response ++ [sock]
      if event.error then do
        let popped : Queue := { seen.queue with fdtosock := seen.queue.fdtosock.erase event.ident }
        let queue ← popped.disable fileno event.filter sock
        if sock ∈ queue.sockets then
          let queue : Queue := { queue with sockets := queue.sockets.erase sock }
          return { queue, response, failed := seen.failed ++ [sock] }
        else failure
      else some { seen with response }

variable {ν : Type}

/-- `errors` has the sockets that were given up, each with its name. -/
structure KQueuePoller (ν : Type) where
  sockets : ν → Option Queue := fun _ => none
  errors : AList (fun _ : Sock => ν) := ∅

/-- `poll` of epoll gives no more events than `FD_SETSIZE - 1` where it is not told how many. -/
def EPoller.maxEvents : Nat := 1023

def KQueuePoller.maxEvents : Nat := 10000

variable [DecidableEq ν]

/-- `none` where the call raises, as it does under a name that was not set up. -/
def KQueuePoller.operate (fileno : Sock → Nat) (kqueue : KQueuePoller ν) : Operation ν → Option (KQueuePoller ν)
  | .setup _ name =>
      match kqueue.sockets name with
      | some _ => some kqueue
      | none => some { kqueue with sockets := Function.update kqueue.sockets name (some {}) }
  | .act action direction name sock => do
      let queue ← kqueue.sockets name
      let queue ← queue.act fileno direction sock action
      return {
        sockets := Function.update kqueue.sockets name (some queue)
        errors := if action = .remove then kqueue.errors.erase sock else kqueue.errors }

/-- The body of the loop of `poll`, where `events` has the descriptors that the epoll object
of a name reports; `none` is a `KeyError`. -/
def EPoller.report (epoll : EPoller ν) (events : ν → List Nat) (response : ν → List Sock) (name : ν) :
    Option (ν → List Sock) := do
  let table ← epoll.sockets name
  let socks ← (events name).mapM table.fdtosock.lookup
  return Function.update response name socks

/-- `poll`, where `res` has the names that the master reports. -/
def EPoller.poll (epoll : EPoller ν) (res : List ν) (events : ν → List Nat) : Option (ν → List Sock) :=
  res.foldlM (epoll.report events) fun _ => []

def KQueuePoller.report (fileno : Sock → Nat) (events : ν → List KEvent)
    (polled : KQueuePoller ν × (ν → List Sock)) (name : ν) : Option (KQueuePoller ν × (ν → List Sock)) := do
  let (kqueue, response) := polled
  let queue ← kqueue.sockets name
  let seen ← (events name).foldlM (Seen.report fileno) { queue }
  let errors := seen.failed.foldl (fun errors sock => if sock ∈ errors then errors else errors.insert sock name)
    kqueue.errors
  return ({ sockets := Function.update kqueue.sockets name (some seen.queue), errors },
    Function.update response name (response name ++ seen.response))

/-- `poll`, which reports the sockets with errors besides, until they are removed. -/
def KQueuePoller.poll (fileno : Sock → Nat) (kqueue : KQueuePoller ν) (res : List ν) (events : ν → List KEvent) :
    Option (KQueuePoller ν × (ν → List Sock)) := do
  let (kqueue, response) ← res.foldlM (KQueuePoller.report fileno events) (kqueue, fun _ => [])
  let errors (name : ν) := (kqueue.errors.entries.filter fun entry => entry.2 = name).map Sigma.fst
  return (kqueue, fun name => response name ++ errors name)

/-- What an operation means to the managers. -/
def Poller.perform (poller : Poller ν) : Operation ν → Poller ν
  | .setup _ _ => poller
  | .act .add _ name sock => poller.add name sock
  | .act .remove _ name sock => poller.remove name sock
  | .act .cork _ name sock => poller.cork name sock
  | .act .uncork _ name sock => poller.uncork name sock

theorem Poller.interest_perform {poller : Poller ν} {action : Action} {direction : Direction} {name : ν}
    {sock : Sock} :
    (poller.perform (.act action direction name sock)).interest =
      Function.update poller.interest name
        (Function.update (poller.interest name) sock (action.effect (poller.interest name sock))) := by
  funext other member
  by_cases same : other = name
  · subst same
    rw [Function.update_self, Function.update_apply]
    cases action <;> cases before : poller.interest other sock <;>
      simp only [perform, Poller.interest_add, Poller.interest_remove, Poller.interest_cork,
        Poller.interest_uncork, before, Action.effect] <;> grind
  · rw [Function.update_of_ne same]
    cases action <;>
      simp [perform, Poller.interest_add, Poller.interest_remove, Poller.interest_cork, Poller.interest_uncork, same]

/-- The queue is kept as the table is, where the name is used in one direction. -/
structure Queue.Mirrors (fileno : Sock → Nat) (direction : Direction) (queue : Queue) (table : Table) : Prop where
  sockets : queue.sockets = table.sockets
  fdtosock : queue.fdtosock = table.fdtosock
  corked : queue.corked = table.corked
  waits : ∀ fd way, (fd, way) ∈ queue.poller ↔ table.poller.lookup fd = some way
  directed : ∀ fd way, table.poller.lookup fd = some way → way = direction
  filed : ∀ fd ∈ table.fdtosock, ∃ sock ∈ table.sockets, fileno sock = fd

namespace Queue.Mirrors

variable {fileno : Sock → Nat} {direction : Direction} {queue : Queue} {table after : Table} {sock : Sock}

theorem enabled (mirrors : queue.Mirrors fileno direction table)
    (ok : table.register fileno direction sock = some after) :
    (queue.enable fileno direction sock).Mirrors fileno direction after := by
  unfold Table.register at ok
  split at ok
  · cases ok
  · next fresh =>
      cases ok
      refine ⟨mirrors.sockets, mirrors.fdtosock, mirrors.corked, ?_, ?_, mirrors.filed⟩
      · intro fd way
        have absent : table.poller.lookup (fileno sock) = none := AList.lookup_eq_none.mpr fresh
        simp only [enable, Finset.mem_insert, Prod.mk.injEq, mirrors.waits, lookup_insert_iff]
        grind
      · intro fd way found
        obtain ⟨_, same⟩ | ⟨_, earlier⟩ := lookup_insert_iff.mp found
        · exact same
        · exact mirrors.directed fd way earlier

theorem disabled (mirrors : queue.Mirrors fileno direction table)
    (ok : table.unregister fileno sock = some after) :
    ∃ changed, queue.disable fileno direction sock = some changed ∧ changed.Mirrors fileno direction after := by
  unfold Table.unregister at ok
  split at ok
  · next registered =>
      cases ok
      obtain ⟨way, found⟩ := Option.isSome_iff_exists.mp (AList.lookup_isSome.mpr registered)
      obtain rfl := mirrors.directed _ _ found
      have waits : (fileno sock, way) ∈ queue.poller := (mirrors.waits _ _).mpr found
      refine ⟨_, if_pos waits, mirrors.sockets, mirrors.fdtosock, mirrors.corked, ?_, ?_, mirrors.filed⟩
      · intro fd other
        simp only [Finset.mem_erase, ne_eq, Prod.mk.injEq, mirrors.waits, lookup_erase_iff]
        have same := mirrors.directed fd other
        grind
      · intro fd other found
        exact mirrors.directed fd other (lookup_erase_iff.mp found).2
  · cases ok

/-- Where the table's call does not raise, the queue's call does the same. -/
theorem add (mirrors : queue.Mirrors fileno direction table) (distinct : Function.Injective fileno)
    (ok : table.add fileno direction sock = some after) :
    ∃ changed, queue.add fileno direction sock = some changed ∧ changed.Mirrors fileno direction after := by
  unfold Table.add at ok
  unfold Queue.add
  rw [mirrors.sockets, mirrors.fdtosock]
  by_cases known : sock ∈ table.sockets
  · rw [if_pos known] at ok ⊢
    cases ok
    exact ⟨queue, rfl, mirrors⟩
  · rw [if_neg known] at ok ⊢
    have free : fileno sock ∉ table.fdtosock := by
      intro filed
      obtain ⟨other, member, same⟩ := mirrors.filed _ filed
      exact known (distinct same ▸ member)
    rw [if_neg free]
    obtain ⟨registered, registers, rfl⟩ := Option.map_eq_some_iff.mp ok
    have entered : Queue.Mirrors fileno direction
        { queue with sockets := insert sock table.sockets, fdtosock := table.fdtosock }
        { table with sockets := insert sock table.sockets } := by
      refine ⟨rfl, rfl, mirrors.corked, mirrors.waits, mirrors.directed, ?_⟩
      intro fd filed
      obtain ⟨other, member, same⟩ := mirrors.filed fd filed
      exact ⟨other, Finset.mem_insert_of_mem member, same⟩
    have enabled := entered.enabled registers
    refine ⟨_, rfl, enabled.sockets, ?_, enabled.corked, enabled.waits, enabled.directed, ?_⟩
    · exact congrArg (AList.insert (fileno sock) sock) enabled.fdtosock
    · intro fd filed
      obtain rfl | held := (AList.mem_insert _).mp filed
      · exact ⟨sock, enabled.sockets ▸ Finset.mem_insert_self sock table.sockets, rfl⟩
      · exact enabled.filed fd held

theorem remove (mirrors : queue.Mirrors fileno direction table)
    (ok : table.remove fileno sock = some after) :
    ∃ changed, queue.remove fileno direction sock = some changed ∧ changed.Mirrors fileno direction after := by
  unfold Table.remove at ok
  unfold Queue.remove
  rw [mirrors.sockets, mirrors.fdtosock, mirrors.corked]
  by_cases known : sock ∈ table.sockets
  · rw [if_pos known] at ok ⊢
    have removed : Queue.Mirrors fileno direction
        { queue with
          sockets := table.sockets.erase sock
          fdtosock := table.fdtosock.erase (fileno sock)
          corked := table.corked }
        { table with
          fdtosock := table.fdtosock.erase (fileno sock)
          sockets := table.sockets.erase sock } := by
      refine ⟨rfl, rfl, rfl, mirrors.waits, mirrors.directed, ?_⟩
      intro fd filed
      obtain ⟨other, held⟩ := AList.mem_erase.mp filed
      obtain ⟨member, present, rfl⟩ := mirrors.filed fd held
      exact ⟨member, Finset.mem_erase.mpr ⟨fun same => other (same ▸ rfl), present⟩, rfl⟩
    by_cases corked : sock ∈ table.corked
    · simp only [corked, not_true_eq_false, if_true, if_false] at ok ⊢
      cases ok
      exact ⟨_, rfl, removed.sockets, removed.fdtosock, rfl, removed.waits, removed.directed, removed.filed⟩
    · simp only [corked, not_false_eq_true, if_true, if_false] at ok ⊢
      exact removed.disabled ok
  · rw [if_neg known] at ok ⊢
    cases ok
    exact ⟨queue, rfl, mirrors⟩

theorem cork (mirrors : queue.Mirrors fileno direction table) (ok : table.cork fileno sock = some after) :
    ∃ changed, queue.cork fileno direction sock = some changed ∧ changed.Mirrors fileno direction after := by
  unfold Table.cork at ok
  unfold Queue.cork
  rw [mirrors.sockets, mirrors.corked]
  split at ok
  · next free =>
      rw [if_pos free]
      have held : Queue.Mirrors fileno direction
          { queue with sockets := table.sockets, corked := insert sock table.corked }
          { table with corked := insert sock table.corked } :=
        ⟨rfl, mirrors.fdtosock, rfl, mirrors.waits, mirrors.directed, mirrors.filed⟩
      exact held.disabled ok
  · next other =>
      rw [if_neg other]
      cases ok
      exact ⟨queue, rfl, mirrors⟩

theorem uncork (mirrors : queue.Mirrors fileno direction table) (ok : table.uncork fileno direction sock = some after) :
    ∃ changed, queue.uncork fileno direction sock = some changed ∧ changed.Mirrors fileno direction after := by
  unfold Table.uncork at ok
  unfold Queue.uncork
  rw [mirrors.sockets, mirrors.corked]
  split at ok
  · next held =>
      rw [if_pos held]
      have freed : Queue.Mirrors fileno direction
          { queue with sockets := table.sockets, corked := table.corked.erase sock }
          { table with corked := table.corked.erase sock } :=
        ⟨rfl, mirrors.fdtosock, rfl, mirrors.waits, mirrors.directed, mirrors.filed⟩
      exact ⟨_, rfl, freed.enabled ok⟩
  · next other =>
      rw [if_neg other]
      cases ok
      exact ⟨queue, rfl, mirrors⟩

theorem act (mirrors : queue.Mirrors fileno direction table) (distinct : Function.Injective fileno)
    {action : Action} (ok : table.act fileno direction sock action = some after) :
    ∃ changed, queue.act fileno direction sock action = some changed ∧ changed.Mirrors fileno direction after := by
  cases action with
  | add => exact mirrors.add distinct ok
  | remove => exact mirrors.remove ok
  | cork => exact mirrors.cork ok
  | uncork => exact mirrors.uncork ok

end Queue.Mirrors

/-- A loop in which each item is found what belongs to its key. -/
theorem mapM_keyed {α β κ : Type*} {find : α → Option β} {keyOf : β → κ} {key : α → κ} {items : List α}
    (found : ∀ item ∈ items, ∃ value, find item = some value ∧ keyOf value = key item) :
    ∃ values, items.mapM find = some values ∧ values.map keyOf = items.map key := by
  induction items with
  | nil => exact ⟨[], rfl, rfl⟩
  | cons item items ih =>
      obtain ⟨value, here, same⟩ := found item (List.mem_cons_self ..)
      obtain ⟨values, there, all⟩ := ih fun other member => found other (List.mem_cons_of_mem item member)
      refine ⟨value :: values, ?_, by rw [List.map_cons, List.map_cons, same, all]⟩
      rw [List.mapM_cons, here, there]
      rfl

/-- What a call that gives up to `most` of the events gives, where `waiting` are those there are. -/
structure Selects {α : Type*} (most : Nat) (waiting : α → Prop) (events : List α) : Prop where
  once : events.Nodup
  ready : ∀ event ∈ events, waiting event
  short : events.length ≤ most
  full : events.length < most → ∀ event, waiting event → event ∈ events

/-- The calls of one `poll`: the master's, and that of each name it reports. -/
structure Polled {α : Type*} (most : Nat) (waits : ν → α → Prop) (res : List ν) (events : ν → List α) :
    Prop where
  names : Selects most (fun name => ∃ event, waits name event) res
  events : ∀ name ∈ res, Selects most (waits name) (events name)

/-- The sockets of a response are reported rightly, each once, and under a name all of
them unless that name or the master gave as many events as it can. -/
structure Answers (most : Nat) (reported : ν → Sock → Prop) (res : List ν) (response : ν → List Sock) :
    Prop where
  once : ∀ name, (response name).Nodup
  ready : ∀ name, ∀ sock ∈ response name, reported name sock
  whole : res.length < most → ∀ name, (response name).length < most →
    ∀ sock, reported name sock → sock ∈ response name

/-- Where each event is that of one socket, the sockets are selected as the events are. -/
theorem Selects.found {α : Type*} {most : Nat} {waiting : α → Prop} {events : List α} {reported : Sock → Prop}
    {eventOf : Sock → α} {find : α → Option Sock} (selects : Selects most waiting events)
    (one : Function.Injective eventOf)
    (same : ∀ event, waiting event ↔ ∃ sock, reported sock ∧ eventOf sock = event)
    (finds : ∀ sock, reported sock → find (eventOf sock) = some sock) :
    ∃ socks, events.mapM find = some socks ∧ Selects most reported socks := by
  have found : ∀ event ∈ events, ∃ sock, find event = some sock ∧ eventOf sock = id event := by
    intro event member
    obtain ⟨sock, reports, rfl⟩ := (same event).mp (selects.ready event member)
    exact ⟨sock, finds sock reports, rfl⟩
  obtain ⟨socks, mapped, keys⟩ := mapM_keyed found
  rw [List.map_id] at keys
  subst keys
  refine ⟨socks, mapped, selects.once.of_map, ?_, ?_, ?_⟩
  · intro sock member
    obtain ⟨other, reports, equal⟩ := (same _).mp (selects.ready _ (List.mem_map_of_mem member))
    exact one equal ▸ reports
  · simpa using selects.short
  · intro short sock reports
    rw [← List.mem_map_of_injective one]
    exact selects.full (by simpa using short) _ ((same _).mpr ⟨sock, reports, rfl⟩)

/-- What is found for the names that are reported, one by one, is an answer. -/
theorem Polled.answers {α : Type*} {most : Nat} {waits : ν → α → Prop} {res : List ν} {events : ν → List α}
    {reported : ν → Sock → Prop} {found : ν → List Sock → Prop} (polled : Polled most waits res events)
    (occurs : ∀ name sock, reported name sock → ∃ event, waits name event)
    (each : ∀ name ∈ res, ∃ socks, found name socks ∧ Selects most (reported name) socks) :
    ∃ socks : ν → List Sock, (∀ name ∈ res, found name (socks name)) ∧
      Answers most reported res fun name => if name ∈ res then socks name else [] := by
  have total : ∀ name, ∃ socks, name ∈ res → found name socks ∧ Selects most (reported name) socks := by
    intro name
    by_cases member : name ∈ res
    · obtain ⟨socks, told⟩ := each name member
      exact ⟨socks, fun _ => told⟩
    · exact ⟨[], fun absent => absurd absent member⟩
  choose socks told using total
  refine ⟨socks, fun name member => (told name member).1, ?_, ?_, ?_⟩
  · intro name
    split
    · next member => exact (told name member).2.once
    · exact List.nodup_nil
  · intro name sock reports
    split at reports
    · next member => exact (told name member).2.ready sock reports
    · cases reports
  · intro short name fewer sock reports
    have member : name ∈ res := polled.names.full short name (occurs name sock reports)
    rw [if_pos member] at fewer ⊢
    exact (told name member).2.full fewer sock reports

/-- The names are gone through once each. -/
theorem EPoller.poll_eq {epoll : EPoller ν} {res : List ν} {events : ν → List Nat} {socks : ν → List Sock}
    (found : ∀ name ∈ res, ∃ table, epoll.sockets name = some table ∧
      (events name).mapM table.fdtosock.lookup = some (socks name)) :
    epoll.poll res events = some fun name => if name ∈ res then socks name else [] := by
  have loop (response : ν → List Sock) : res.foldlM (epoll.report events) response =
      some fun name => if name ∈ res then socks name else response name := by
    induction res generalizing response with
    | nil => simp
    | cons name res ih =>
        obtain ⟨table, held, reports⟩ := found name (List.mem_cons_self ..)
        have step : epoll.report events response name = some (Function.update response name (socks name)) := by
          simp only [EPoller.report, held, reports, Option.bind_eq_bind, Option.bind_some, Option.pure_def]
        rw [List.foldlM_cons, step]
        simp only [Option.bind_eq_bind, Option.bind_some]
        rw [ih fun other member => found other (List.mem_cons_of_mem name member)]
        congr 1
        funext other
        by_cases same : other = name
        · subst same
          simp
        · simp [same]
  exact loop _

/-- Events without errors change nothing in the queue. -/
theorem Seen.reports {fileno : Sock → Nat} {seen : Seen} {events : List KEvent} {socks : List Sock}
    (plain : ∀ event ∈ events, event.error = false)
    (found : events.mapM (fun event => seen.queue.fdtosock.lookup event.ident) = some socks) :
    events.foldlM (Seen.report fileno) seen = some { seen with response := seen.response ++ socks } := by
  induction events generalizing seen socks with
  | nil =>
      cases found
      simp
  | cons event events ih =>
      rw [List.mapM_cons] at found
      obtain ⟨sock, here, rest⟩ := Option.bind_eq_some_iff.mp found
      obtain ⟨others, there, same⟩ := Option.bind_eq_some_iff.mp rest
      cases same
      have unflagged := plain event (List.mem_cons_self ..)
      have step : seen.report fileno event = some { seen with response := seen.response ++ [sock] } := by
        simp only [Seen.report, here, unflagged, Bool.false_eq_true, if_false]
      rw [List.foldlM_cons, step]
      have last : List.foldlM (Seen.report fileno) { seen with response := seen.response ++ [sock] } events = _ :=
        ih (fun other member => plain other (List.mem_cons_of_mem event member)) there
      simpa using last

theorem KQueuePoller.poll_eq {fileno : Sock → Nat} {kqueue : KQueuePoller ν} {res : List ν}
    {events : ν → List KEvent} {socks : ν → List Sock} (once : res.Nodup) (untroubled : kqueue.errors = ∅)
    (plain : ∀ name ∈ res, ∀ event ∈ events name, event.error = false)
    (found : ∀ name ∈ res, ∃ queue, kqueue.sockets name = some queue ∧
      (events name).mapM (fun event => queue.fdtosock.lookup event.ident) = some (socks name)) :
    kqueue.poll fileno res events = some (kqueue, fun name => if name ∈ res then socks name else []) := by
  have loop (response : ν → List Sock) : res.foldlM (KQueuePoller.report fileno events) (kqueue, response) =
      some (kqueue, fun name => if name ∈ res then response name ++ socks name else response name) := by
    induction res generalizing response with
    | nil => simp
    | cons name res ih =>
        obtain ⟨queue, held, finds⟩ := found name (List.mem_cons_self ..)
        obtain ⟨absent, once⟩ := List.nodup_cons.mp once
        have seen : (events name).foldlM (Seen.report fileno) { queue } = some { queue, response := socks name } :=
          Seen.reports (plain name (List.mem_cons_self ..)) finds
        have step : KQueuePoller.report fileno events (kqueue, response) name =
            some (kqueue, Function.update response name (response name ++ socks name)) := by
          simp only [KQueuePoller.report, held, seen, Option.bind_eq_bind, Option.bind_some, Option.pure_def,
            List.foldl_nil]
          rw [← held, Function.update_eq_self]
        rw [List.foldlM_cons, step]
        simp only [Option.bind_eq_bind, Option.bind_some]
        rw [ih once (fun other member => plain other (List.mem_cons_of_mem name member))
          fun other member => found other (List.mem_cons_of_mem name member)]
        congr 2
        funext other
        by_cases same : other = name
        · subst same
          simp [absent]
        · simp [same]
  unfold KQueuePoller.poll
  rw [loop]
  simp [untroubled]

section Reporting

variable {fileno : Sock → Nat} {direction : Direction} {queue : Queue} {table : Table} {state : Sock → Interest}
  {ready : Nat → Direction → Bool}

/-- What is to be reported under a name: `ready` says for what the descriptors are ready. -/
def Reported (fileno : Sock → Nat) (direction : Direction) (state : Sock → Interest)
    (ready : Nat → Direction → Bool) (sock : Sock) : Prop :=
  state sock = .watched ∧ ready (fileno sock) direction = true

/-- A descriptor that is registered and ready. -/
def Table.Waits (table : Table) (ready : Nat → Direction → Bool) (fd : Nat) : Prop :=
  ∃ direction, table.poller.lookup fd = some direction ∧ ready fd direction = true

/-- An event that the queue waits for, and that is no error. -/
def Queue.Waits (queue : Queue) (ready : Nat → Direction → Bool) (event : KEvent) : Prop :=
  (event.ident, event.filter) ∈ queue.poller ∧ ready event.ident event.filter = true ∧ event.error = false

theorem Queue.Mirrors.table_waits (mirrors : queue.Mirrors fileno direction table)
    (shown : table.Shows fileno state) (fd : Nat) :
    table.Waits ready fd ↔ ∃ sock, Reported fileno direction state ready sock ∧ fileno sock = fd := by
  constructor
  · intro ⟨way, found, reads⟩
    obtain ⟨sock, watched, rfl⟩ := (shown.registered fd).mp (lookup_mem found)
    exact ⟨sock, ⟨watched, mirrors.directed _ _ found ▸ reads⟩, rfl⟩
  · rintro ⟨sock, ⟨watched, reads⟩, rfl⟩
    have registered := (shown.registered _).mpr ⟨sock, watched, rfl⟩
    obtain ⟨way, found⟩ := Option.isSome_iff_exists.mp (AList.lookup_isSome.mpr registered)
    obtain rfl := mirrors.directed _ _ found
    exact ⟨way, found, reads⟩

theorem Queue.Mirrors.waits_iff (mirrors : queue.Mirrors fileno direction table) (shown : table.Shows fileno state)
    (event : KEvent) : queue.Waits ready event ↔
      ∃ sock, Reported fileno direction state ready sock ∧ ⟨fileno sock, direction, false⟩ = event := by
  obtain ⟨fd, way, flagged⟩ := event
  constructor
  · intro ⟨waits, reads, plain⟩
    have found := (mirrors.waits fd way).mp waits
    obtain ⟨sock, reports, same⟩ := (mirrors.table_waits shown fd).mp ⟨way, found, reads⟩
    exact ⟨sock, reports, by rw [same, mirrors.directed fd way found, ← plain]⟩
  · rintro ⟨sock, reports, same⟩
    cases same
    obtain ⟨way, found, reads⟩ := (mirrors.table_waits shown _).mpr ⟨sock, reports, rfl⟩
    obtain rfl := mirrors.directed _ _ found
    exact ⟨(mirrors.waits _ _).mpr found, reads, rfl⟩

theorem Queue.Mirrors.table_found {most : Nat} {events : List Nat} (mirrors : queue.Mirrors fileno direction table)
    (shown : table.Shows fileno state) (distinct : Function.Injective fileno)
    (selects : Selects most (table.Waits ready) events) :
    ∃ socks, events.mapM table.fdtosock.lookup = some socks ∧
      Selects most (Reported fileno direction state ready) socks := by
  apply selects.found distinct (mirrors.table_waits shown)
  intro sock ⟨watched, _⟩
  exact shown.reported sock (by rw [watched]; decide)

theorem Queue.Mirrors.found {most : Nat} {events : List KEvent} (mirrors : queue.Mirrors fileno direction table)
    (shown : table.Shows fileno state) (distinct : Function.Injective fileno)
    (selects : Selects most (queue.Waits ready) events) :
    ∃ socks, events.mapM (fun event => queue.fdtosock.lookup event.ident) = some socks ∧
      Selects most (Reported fileno direction state ready) socks := by
  have one : Function.Injective fun sock => KEvent.mk (fileno sock) direction false := by
    intro sock other same
    exact distinct (KEvent.mk.inj same).1
  apply selects.found one (mirrors.waits_iff shown)
  intro sock ⟨watched, _⟩
  rw [mirrors.fdtosock]
  exact shown.reported sock (by rw [watched]; decide)

end Reporting

/-- A descriptor that is registered under a name, and ready. -/
def EPoller.Waits (epoll : EPoller ν) (ready : Nat → Direction → Bool) (name : ν) (fd : Nat) : Prop :=
  ∃ table, epoll.sockets name = some table ∧ table.Waits ready fd

omit [DecidableEq ν] in
theorem EPoller.waits_eq {epoll : EPoller ν} {ready : Nat → Direction → Bool} {name : ν} {table : Table}
    (held : epoll.sockets name = some table) : epoll.Waits ready name = table.Waits ready := by
  funext fd
  simp [EPoller.Waits, held]

def KQueuePoller.Waits (kqueue : KQueuePoller ν) (ready : Nat → Direction → Bool) (name : ν) (event : KEvent) :
    Prop :=
  ∃ queue, kqueue.sockets name = some queue ∧ queue.Waits ready event

omit [DecidableEq ν] in
theorem KQueuePoller.waits_eq {kqueue : KQueuePoller ν} {ready : Nat → Direction → Bool} {name : ν}
    {queue : Queue} (held : kqueue.sockets name = some queue) : kqueue.Waits ready name = queue.Waits ready := by
  funext event
  simp [KQueuePoller.Waits, held]

/-- Both pollers, and what the managers take them for. -/
structure Backends (ν : Type) where
  poller : Poller ν := {}
  epoll : EPoller ν := {}
  kqueue : KQueuePoller ν := {}

namespace Backends

variable (fileno : Sock → Nat) (way : ν → Direction)

/-- The same call for each, where it raises for none. -/
def operate (backends : Backends ν) (operation : Operation ν) : Option (Backends ν) := do
  let epoll ← backends.epoll.operate fileno operation
  let kqueue ← backends.kqueue.operate fileno operation
  return { poller := backends.poller.perform operation, epoll, kqueue }

/-- A name is set up before it is used, and for one direction only. -/
def Suits (backends : Backends ν) : Operation ν → Prop
  | .setup direction name => direction = way name
  | .act _ direction name _ => direction = way name ∧ (backends.epoll.sockets name).isSome

def Step (before after : Backends ν) : Prop :=
  ∃ operation, before.Suits way operation ∧ before.operate fileno operation = some after

abbrev Run : Backends ν → Prop := Reachable (· = {}) (Step fileno way)

/-- What holds after every call. -/
structure Sound (backends : Backends ν) : Prop where
  set_up : ∀ name table, backends.epoll.sockets name = some table →
    table.Shows fileno (backends.poller.interest name) ∧
      ∃ queue, backends.kqueue.sockets name = some queue ∧ queue.Mirrors fileno (way name) table
  unknown : ∀ name, backends.epoll.sockets name = none →
    backends.kqueue.sockets name = none ∧ backends.poller.interest name = fun _ => .absent
  untroubled : backends.kqueue.errors = ∅

variable {fileno way} {backends : Backends ν} {direction : Direction} {name : ν} {sock : Sock} {action : Action}

omit [DecidableEq ν] in
theorem Sound.initial : Sound fileno way ({} : Backends ν) where
  set_up name table found := by cases found
  unknown name absent := ⟨rfl, rfl⟩
  untroubled := rfl

theorem Sound.put (sound : backends.Sound fileno way) {poller : Poller ν} {state : Sock → Interest} {table : Table}
    {queue : Queue} {errors : AList fun _ : Sock => ν}
    (meant : poller.interest = Function.update backends.poller.interest name state)
    (shown : table.Shows fileno state) (mirrors : queue.Mirrors fileno (way name) table) (none : errors = ∅) :
    Sound fileno way
      { poller
        epoll := { sockets := Function.update backends.epoll.sockets name (some table) }
        kqueue := { sockets := Function.update backends.kqueue.sockets name (some queue), errors } } where
  set_up := by
    intro other held found
    dsimp only at found ⊢
    rw [meant]
    by_cases same : other = name
    · subst same
      rw [Function.update_self] at found
      cases found
      simp only [Function.update_self]
      exact ⟨shown, queue, rfl, mirrors⟩
    · rw [Function.update_of_ne same] at found
      simp only [Function.update_of_ne same]
      exact sound.set_up other held found
  unknown := by
    intro other absent
    dsimp only at absent ⊢
    rw [meant]
    by_cases same : other = name
    · subst same
      rw [Function.update_self] at absent
      cases absent
    · rw [Function.update_of_ne same] at absent
      simp only [Function.update_of_ne same]
      exact sound.unknown other absent
  untroubled := none

/-- A name is set up once. -/
theorem Sound.setup (sound : backends.Sound fileno way) (direction : Direction) (name : ν) :
    ∃ after, backends.operate fileno (.setup direction name) = some after ∧ after.Sound fileno way := by
  cases found : backends.epoll.sockets name with
  | some table =>
      obtain ⟨_, queue, found', _⟩ := sound.set_up name table found
      refine ⟨backends, ?_, sound⟩
      simp only [operate, EPoller.operate, KQueuePoller.operate, found, found', Poller.perform]
      rfl
  | none =>
      obtain ⟨found', absent⟩ := sound.unknown name found
      have empty : ({} : Table).Shows fileno fun _ => .absent := by constructor <;> simp
      have mirrors : ({} : Queue).Mirrors fileno (way name) {} := by constructor <;> simp
      have kept : backends.poller.interest = Function.update backends.poller.interest name fun _ => .absent := by
        rw [← absent, Function.update_eq_self]
      refine ⟨_, ?_, sound.put kept empty mirrors sound.untroubled⟩
      simp only [operate, EPoller.operate, KQueuePoller.operate, found, found', Poller.perform]
      rfl

/-- No call raises, and each does what the managers take it for. -/
theorem Sound.act (sound : backends.Sound fileno way) (distinct : Function.Injective fileno)
    (action : Action) (sock : Sock) (set_up : (backends.epoll.sockets name).isSome) :
    ∃ after, backends.operate fileno (.act action (way name) name sock) = some after ∧ after.Sound fileno way := by
  obtain ⟨table, found⟩ := Option.isSome_iff_exists.mp set_up
  obtain ⟨shown, queue, found', mirrors⟩ := sound.set_up name table found
  obtain ⟨changed, acts, shows⟩ := shown.act distinct action (way name) sock
  obtain ⟨waiting, acts', mirrors'⟩ := mirrors.act distinct acts
  have meant : (backends.poller.perform (.act action (way name) name sock)).interest = _ := Poller.interest_perform
  have none : (if action = .remove then backends.kqueue.errors.erase sock else backends.kqueue.errors) = ∅ := by
    rw [sound.untroubled]
    split <;> rfl
  refine ⟨_, ?_, sound.put meant shows mirrors' none⟩
  simp only [operate, EPoller.operate, KQueuePoller.operate, found, found', acts, acts', bind, Option.bind, pure]

theorem Sound.operates (sound : backends.Sound fileno way) (distinct : Function.Injective fileno)
    {operation : Operation ν} (suits : backends.Suits way operation) :
    ∃ after, backends.operate fileno operation = some after ∧ after.Sound fileno way := by
  cases operation with
  | setup direction name => exact sound.setup direction name
  | act action direction name sock =>
      obtain ⟨rfl, set_up⟩ := suits
      exact sound.act distinct action sock set_up

/-- What is to be reported under each name. -/
def Reported (backends : Backends ν) (fileno : Sock → Nat) (way : ν → Direction)
    (ready : Nat → Direction → Bool) (name : ν) : Sock → Prop :=
  Network.Reported fileno (way name) (backends.poller.interest name) ready

variable {ready : Nat → Direction → Bool} {res : List ν}

omit [DecidableEq ν] in
/-- What the pollers have of a name that was set up, and of one that was not. -/
theorem Sound.known (sound : backends.Sound fileno way) (name : ν) :
    (∃ table queue, backends.epoll.sockets name = some table ∧ backends.kqueue.sockets name = some queue ∧
      table.Shows fileno (backends.poller.interest name) ∧ queue.Mirrors fileno (way name) table) ∨
    backends.epoll.sockets name = none ∧ backends.kqueue.sockets name = none ∧
      ∀ sock, backends.poller.interest name sock ≠ .watched := by
  cases found : backends.epoll.sockets name with
  | some table =>
      obtain ⟨shown, queue, found', mirrors⟩ := sound.set_up name table found
      exact .inl ⟨table, queue, rfl, found', shown, mirrors⟩
  | none =>
      obtain ⟨found', absent⟩ := sound.unknown name found
      refine .inr ⟨rfl, found', fun sock => ?_⟩
      rw [absent]
      simp

theorem Sound.epoll_poll (sound : backends.Sound fileno way) (distinct : Function.Injective fileno)
    {events : ν → List Nat} (polled : Polled EPoller.maxEvents (backends.epoll.Waits ready) res events) :
    ∃ response, backends.epoll.poll res events = some response ∧
      Answers EPoller.maxEvents (backends.Reported fileno way ready) res response := by
  have occurs : ∀ name sock, backends.Reported fileno way ready name sock →
      ∃ fd, backends.epoll.Waits ready name fd := by
    intro name sock reports
    obtain ⟨table, queue, held, _, shown, mirrors⟩ | ⟨_, _, none⟩ := sound.known name
    · exact ⟨fileno sock, table, held, (mirrors.table_waits shown _).mpr ⟨sock, reports, rfl⟩⟩
    · exact absurd reports.1 (none sock)
  have each : ∀ name ∈ res, ∃ socks, (∃ table, backends.epoll.sockets name = some table ∧
      (events name).mapM table.fdtosock.lookup = some socks) ∧
        Selects EPoller.maxEvents (backends.Reported fileno way ready name) socks := by
    intro name member
    obtain ⟨_, table, held, _⟩ := polled.names.ready name member
    obtain ⟨shown, queue, _, mirrors⟩ := sound.set_up name table held
    have selects := polled.events name member
    rw [EPoller.waits_eq held] at selects
    obtain ⟨socks, mapped, selected⟩ := mirrors.table_found shown distinct selects
    exact ⟨socks, ⟨table, held, mapped⟩, selected⟩
  obtain ⟨socks, found, answers⟩ := polled.answers occurs each
  exact ⟨_, EPoller.poll_eq found, answers⟩

theorem Sound.kqueue_poll (sound : backends.Sound fileno way) (distinct : Function.Injective fileno)
    {events : ν → List KEvent} (polled : Polled KQueuePoller.maxEvents (backends.kqueue.Waits ready) res events) :
    ∃ response, backends.kqueue.poll fileno res events = some (backends.kqueue, response) ∧
      Answers KQueuePoller.maxEvents (backends.Reported fileno way ready) res response := by
  have occurs : ∀ name sock, backends.Reported fileno way ready name sock →
      ∃ event, backends.kqueue.Waits ready name event := by
    intro name sock reports
    obtain ⟨table, queue, _, held, shown, mirrors⟩ | ⟨_, _, none⟩ := sound.known name
    · exact ⟨_, queue, held, (mirrors.waits_iff shown _).mpr ⟨sock, reports, rfl⟩⟩
    · exact absurd reports.1 (none sock)
  have each : ∀ name ∈ res, ∃ socks, (∃ queue, backends.kqueue.sockets name = some queue ∧
      (events name).mapM (fun event => queue.fdtosock.lookup event.ident) = some socks) ∧
        Selects KQueuePoller.maxEvents (backends.Reported fileno way ready name) socks := by
    intro name member
    obtain ⟨_, queue, held, _⟩ := polled.names.ready name member
    have selects := polled.events name member
    rw [KQueuePoller.waits_eq held] at selects
    obtain ⟨table, same, _, held', shown, mirrors⟩ | ⟨_, absent, _⟩ := sound.known name
    · cases held.symm.trans held'
      obtain ⟨socks, mapped, selected⟩ := mirrors.found shown distinct selects
      exact ⟨socks, ⟨queue, held, mapped⟩, selected⟩
    · cases held.symm.trans absent
  have plain : ∀ name ∈ res, ∀ event ∈ events name, event.error = false := by
    intro name member event given
    obtain ⟨_, _, _, _, unflagged⟩ := (polled.events name member).ready event given
    exact unflagged
  obtain ⟨socks, found, answers⟩ := polled.answers occurs each
  exact ⟨_, KQueuePoller.poll_eq polled.names.once sound.untroubled plain found, answers⟩

theorem Run.sound (run : Run fileno way backends) (distinct : Function.Injective fileno) :
    backends.Sound fileno way := by
  apply Reachable.invariant run (Sound fileno way)
  · intro start initial
    exact initial ▸ .initial
  · intro before after _ sound ⟨operation, suits, ok⟩
    obtain ⟨next, ok', sound'⟩ := sound.operates distinct suits
    rw [ok] at ok'
    exact Option.some.inj ok' ▸ sound'

/-- In every run in which each name is set up before it is used, and used in one direction,
no call raises, and what either poller reports under a name, whatever descriptors are ready,
are sockets that are ready of those that the managers take to be watched, each once: all of
them, where fewer are given than one call can, and where no event of a queue is an error. -/
theorem pollers_refine (distinct : Function.Injective fileno) (run : Run fileno way backends) :
    (∀ operation, backends.Suits way operation → ∃ after, backends.operate fileno operation = some after) ∧
      ∀ ready res,
        (∀ events, Polled EPoller.maxEvents (backends.epoll.Waits ready) res events →
          ∃ response, backends.epoll.poll res events = some response ∧
            Answers EPoller.maxEvents (backends.Reported fileno way ready) res response) ∧
        ∀ events, Polled KQueuePoller.maxEvents (backends.kqueue.Waits ready) res events →
          ∃ response, backends.kqueue.poll fileno res events = some (backends.kqueue, response) ∧
            Answers KQueuePoller.maxEvents (backends.Reported fileno way ready) res response := by
  have sound := run.sound distinct
  constructor
  · intro operation suits
    obtain ⟨after, ok, _⟩ := sound.operates distinct suits
    exact ⟨after, ok⟩
  · intro ready res
    exact ⟨fun events polled => sound.epoll_poll distinct polled,
      fun events polled => sound.kqueue_poll distinct polled⟩

instance (backends : Backends ν) : DecidablePred (backends.Suits way)
  | .setup direction name => inferInstanceAs (Decidable (direction = way name))
  | .act _ direction name _ =>
      inferInstanceAs (Decidable (direction = way name ∧ (backends.epoll.sockets name).isSome))

def move (fileno : Sock → Nat) (way : ν → Direction) (backends : Backends ν) (operation : Operation ν) :
    Option (Backends ν) :=
  if backends.Suits way operation then backends.operate fileno operation else none

theorem move_step {after : Backends ν} {operation : Operation ν}
    (moved : move fileno way backends operation = some after) : Step fileno way backends after := by
  unfold move at moved
  split at moved
  · next suits => exact ⟨operation, suits, moved⟩
  · cases moved

/-- Of two connections, one is corked. -/
def halfCorked : List (Operation Unit) :=
  [.setup .read (), .act .add .read () 3, .act .add .read () 4, .act .cork .read () 3]

/-- The queue waits for one descriptor, which is ready. -/
theorem Polled.single {kqueue : KQueuePoller Unit} {queue : Queue} {fd : Nat}
    (held : kqueue.sockets () = some queue) (waits : queue.poller = {(fd, .read)}) :
    Polled KQueuePoller.maxEvents (kqueue.Waits fun _ _ => true) [()] fun _ => [⟨fd, .read, false⟩] := by
  have one (event : KEvent) : kqueue.Waits (fun _ _ => true) () event ↔ event = ⟨fd, .read, false⟩ := by
    rw [KQueuePoller.waits_eq held, Queue.Waits, waits, KEvent.mk.injEq]
    simp [and_assoc]
  have short : 1 ≤ KQueuePoller.maxEvents := by decide
  constructor
  · exact ⟨by simp, fun _ _ => ⟨_, (one _).mpr rfl⟩, short, by simp⟩
  · exact fun _ _ => ⟨by simp, by simp [one], short, by simp [one]⟩

theorem pollers_refine_corked : ∃ backends : Backends Unit, ∃ response,
    backends.kqueue.poll id [()] (fun _ => [⟨4, .read, false⟩]) = some (backends.kqueue, response) ∧
      4 ∈ response () ∧ 3 ∉ response () := by
  have seen : ((halfCorked.foldlM (move id fun _ => .read) {}).map fun backends =>
      ((backends.kqueue.sockets ()).map Queue.poller, backends.poller.interest () 3,
        backends.poller.interest () 4,
        (backends.kqueue.poll id [()] fun _ => [⟨4, .read, false⟩]).map fun polled => (polled.2 ()).length)) =
          some (some {(4, .read)}, .corked, .watched, some 1) := by decide +kernel
  obtain ⟨backends, followed, same⟩ := Option.map_eq_some_iff.mp seen
  obtain ⟨waits, interests⟩ := Prod.mk.inj same
  obtain ⟨corked, others⟩ := Prod.mk.inj interests
  obtain ⟨watched, one⟩ := Prod.mk.inj others
  obtain ⟨queue, held, polls⟩ := Option.map_eq_some_iff.mp waits
  have start : Run id (fun _ : Unit => .read) {} := .start rfl
  have run : Run id (fun _ => .read) backends := start.foldlM (fun _ _ _ moved => move_step moved) followed
  obtain ⟨response, reports, answers⟩ :=
    ((pollers_refine Function.injective_id run).2 (fun _ _ => true) [()]).2 _ (Polled.single held polls)
  rw [reports] at one
  refine ⟨backends, response, reports, ?_, ?_⟩
  · apply answers.whole (by decide) ()
    · have fewer : (response ()).length = 1 := Option.some.inj one
      rw [fewer]
      decide
    · exact ⟨watched, rfl⟩
  · intro member
    have kept := (answers.ready () 3 member).1
    rw [corked] at kept
    cases kept

/-- A socket with an error is reported twice, and no more waited for. -/
example : (({ sockets := fun _ => some { sockets := {4}, poller := {(4, .read)}, fdtosock := AList.singleton 4 4 } } :
    KQueuePoller Unit).poll id [()] fun _ => [⟨4, .read, true⟩]).map (fun (kqueue, response) =>
      (response (), (kqueue.sockets ()).map Queue.poller)) = some ([4, 4], some ∅) := by decide +kernel

end Backends

end ExaProxy.Network
