import ExaProxy.Data.Dictionary
import ExaProxy.Network.Poller
import Mathlib.Data.Finset.Basic
import Mathlib.Data.List.Infix

namespace ExaProxy.Network

open ExaProxy.Data

/-! `EPoller` and `SelectPoller`, and what they watch.  A call that raises leaves its
poller as it was. -/

inductive Direction where
  | read | write
deriving DecidableEq, Repr

def Direction.other : Direction → Direction
  | .read => .write
  | .write => .read

inductive Action where
  | add | remove | cork | uncork
deriving DecidableEq, Repr

/-- `setupRead` or `setupWrite`, and the calls for one socket. -/
inductive Operation (ν : Type) where
  | setup (direction : Direction) (name : ν)
  | act (action : Action) (direction : Direction) (name : ν) (sock : Sock)

/-- What `EPoller` keeps for a name; `poller` has the descriptors that the name's epoll
object is registered for. -/
structure Table where
  sockets : Finset Sock := ∅
  poller : AList (fun _ : Nat => Direction) := ∅
  fdtosock : AList (fun _ : Nat => Sock) := ∅
  corked : Finset Sock := ∅

namespace Table

variable (fileno : Sock → Nat) (table : Table) (direction : Direction) (sock : Sock)

/-- `poller.register`, which raises for a descriptor that is registered already. -/
def register : Option Table :=
  if fileno sock ∈ table.poller then none
  else some { table with poller := table.poller.insert (fileno sock) direction }

/-- `poller.unregister`, which raises for a descriptor that is not registered. -/
def unregister : Option Table :=
  if fileno sock ∈ table.poller then some { table with poller := table.poller.erase (fileno sock) }
  else none

def add : Option Table :=
  if sock ∈ table.sockets then some table
  else
    let known : Table := { table with sockets := insert sock table.sockets }
    (known.register fileno direction sock).map fun table =>
      { table with fdtosock := table.fdtosock.insert (fileno sock) sock }

def remove : Option Table :=
  if sock ∈ table.sockets then
    let removed : Table := { table with
      fdtosock := table.fdtosock.erase (fileno sock)
      sockets := table.sockets.erase sock }
    if sock ∈ table.corked then some { removed with corked := table.corked.erase sock }
    else removed.unregister fileno sock
  else some table

def cork : Option Table :=
  if sock ∈ table.sockets ∧ sock ∉ table.corked then
    let held : Table := { table with corked := insert sock table.corked }
    held.unregister fileno sock
  else some table

def uncork : Option Table :=
  if sock ∈ table.sockets ∧ sock ∈ table.corked then
    let freed : Table := { table with corked := table.corked.erase sock }
    freed.register fileno direction sock
  else some table

def act : Action → Option Table
  | .add => table.add fileno direction sock
  | .remove => table.remove fileno sock
  | .cork => table.cork fileno sock
  | .uncork => table.uncork fileno direction sock

end Table

structure EPoller (ν : Type) where
  sockets : ν → Option Table := fun _ => none

/-- The lists of the sockets watched for reading and for writing. -/
structure SelectPoller (ν : Type) where
  sockets : Direction → ν → Option (List Sock) := fun _ _ => none

variable {ν : Type}

section Calls

variable [DecidableEq ν]

/-- `none` where the call raises, as it does under a name that was not set up. -/
def EPoller.operate (fileno : Sock → Nat) (epoll : EPoller ν) : Operation ν → Option (EPoller ν)
  | .setup _ name =>
      match epoll.sockets name with
      | some _ => some epoll
      | none => some { sockets := Function.update epoll.sockets name (some {}) }
  | .act action direction name sock => do
      let table ← epoll.sockets name
      let table ← table.act fileno direction sock action
      return { sockets := Function.update epoll.sockets name (some table) }

def EPoller.next (fileno : Sock → Nat) (epoll : EPoller ν) (operation : Operation ν) : EPoller ν :=
  (epoll.operate fileno operation).getD epoll

/-- The change to a list of sockets; `corkReadSocket` is `removeReadSocket`, and
`uncorkReadSocket` is `addReadSocket`. -/
def SelectPoller.change (sockets : List Sock) (sock : Sock) : Action → List Sock
  | .add | .uncork => if sock ∈ sockets then sockets else sockets ++ [sock]
  | .remove | .cork => sockets.erase sock

def SelectPoller.put (select : SelectPoller ν) (direction : Direction) (name : ν) (sockets : List Sock) :
    SelectPoller ν where
  sockets other := if other = direction then Function.update (select.sockets other) name (some sockets)
    else select.sockets other

def SelectPoller.operate (select : SelectPoller ν) : Operation ν → Option (SelectPoller ν)
  | .setup direction name =>
      match select.sockets direction name with
      | some _ => some select
      | none => some (select.put direction name [])
  | .act action direction name sock =>
      (select.sockets direction name).map fun sockets =>
        select.put direction name (SelectPoller.change sockets sock action)

def SelectPoller.next (select : SelectPoller ν) (operation : Operation ν) : SelectPoller ν :=
  (select.operate operation).getD select

/-- Both pollers, used in the same way. -/
structure Pollers (ν : Type) where
  epoll : EPoller ν := {}
  select : SelectPoller ν := {}

namespace Pollers

def next (fileno : Sock → Nat) (pollers : Pollers ν) (operation : Operation ν) : Pollers ν where
  epoll := pollers.epoll.next fileno operation
  select := pollers.select.next operation

def run (fileno : Sock → Nat) (operations : List (Operation ν)) : Pollers ν :=
  operations.foldl (next fileno) {}

end Pollers

end Calls

/-- The name's epoll object is registered for the socket. -/
def EPoller.Watches (fileno : Sock → Nat) (epoll : EPoller ν) (name : ν) (sock : Sock) : Prop :=
  ∃ table, epoll.sockets name = some table ∧ fileno sock ∈ table.poller

def SelectPoller.Holds (select : SelectPoller ν) (direction : Direction) (name : ν) (sock : Sock) : Prop :=
  ∃ sockets, select.sockets direction name = some sockets ∧ sock ∈ sockets

def SelectPoller.Watches (select : SelectPoller ν) (name : ν) (sock : Sock) : Prop :=
  ∃ direction, select.Holds direction name sock

/-- The descriptors that are registered are told by the sockets that were added. -/
def EPoller.Reports (fileno : Sock → Nat) (epoll : EPoller ν) : Prop :=
  ∀ name table, epoll.sockets name = some table → ∀ fd ∈ table.poller, ∃ sock ∈ table.sockets,
    fileno sock = fd ∧ table.fdtosock.lookup fd = some sock

/-- The pollers watch the same sockets for each name, and what is reported is right. -/
def Pollers.Alike (fileno : Sock → Nat) (pollers : Pollers ν) : Prop :=
  (∀ name sock, pollers.epoll.Watches fileno name sock ↔ pollers.select.Watches name sock) ∧
    pollers.epoll.Reports fileno

def Table.interest (table : Table) (sock : Sock) : Interest :=
  if sock ∉ table.sockets then .absent else if sock ∈ table.corked then .corked else .watched

def EPoller.interest (epoll : EPoller ν) (name : ν) (sock : Sock) : Interest :=
  (epoll.sockets name).elim .absent fun table => table.interest sock

/-- The operation does the same to the sockets that the pollers watch: nothing is added
that is corked, nothing is uncorked that is not known, nothing is removed or corked that is
also watched in the other direction, and under a name that is set up for the other
direction alone there is nothing to do. -/
def Pollers.Fits (pollers : Pollers ν) : Operation ν → Prop
  | .setup _ _ => True
  | .act .add direction name sock =>
      if (pollers.select.sockets direction name).isSome then pollers.epoll.interest name sock ≠ .corked
      else (pollers.select.sockets direction.other name).isSome → pollers.epoll.interest name sock ≠ .absent
  | .act .uncork direction name sock =>
      if (pollers.select.sockets direction name).isSome then pollers.epoll.interest name sock ≠ .absent
      else pollers.epoll.interest name sock ≠ .corked
  | .act .remove direction name sock | .act .cork direction name sock =>
      ¬ pollers.select.Holds direction.other name sock

/-- What becomes of a socket. -/
def Action.effect : Action → Interest → Interest
  | .add, .absent => .watched
  | .remove, _ => .absent
  | .cork, .watched => .corked
  | .uncork, .corked => .watched
  | _, interest => interest

/-- The table shows which sockets are watched and which are corked. -/
structure Table.Shows (fileno : Sock → Nat) (table : Table) (state : Sock → Interest) : Prop where
  known : ∀ sock, sock ∈ table.sockets ↔ state sock ≠ .absent
  corked : ∀ sock, sock ∈ table.corked ↔ state sock = .corked
  registered : ∀ fd, fd ∈ table.poller ↔ ∃ sock, state sock = .watched ∧ fileno sock = fd
  reported : ∀ sock, state sock ≠ .absent → table.fdtosock.lookup (fileno sock) = some sock

section Tables

variable {fileno : Sock → Nat} {table after : Table} {state : Sock → Interest} {direction : Direction}
  {sock : Sock}

theorem Table.Shows.registered_iff (shown : table.Shows fileno state) (distinct : Function.Injective fileno) :
    fileno sock ∈ table.poller ↔ state sock = .watched := by
  rw [shown.registered]
  constructor
  · intro ⟨other, watched, same⟩
    rwa [← distinct same]
  · exact fun watched => ⟨sock, watched, rfl⟩

theorem Table.Shows.interest (shown : table.Shows fileno state) (sock : Sock) : table.interest sock = state sock := by
  have known := shown.known sock
  have corked := shown.corked sock
  unfold Table.interest
  cases same : state sock <;> simp_all

theorem Table.Shows.watched (shown : table.Shows fileno state) (direction : Direction) (sock : Sock) (fd : Nat) :
    fd ∈ table.poller.insert (fileno sock) direction ↔
      ∃ member, Function.update state sock .watched member = .watched ∧ fileno member = fd := by
  rw [AList.mem_insert, shown.registered]
  constructor
  · rintro (rfl | ⟨member, watched, rfl⟩)
    · exact ⟨sock, by simp, rfl⟩
    · refine ⟨member, ?_, rfl⟩
      rw [Function.update_apply]
      split
      · rfl
      · exact watched
  · intro ⟨member, watched, same⟩
    rw [Function.update_apply] at watched
    split at watched
    · next equal =>
        rw [← same, equal]
        exact .inl rfl
    · exact .inr ⟨member, watched, same⟩

variable (distinct : Function.Injective fileno)
include distinct

theorem Table.Shows.unwatched (shown : table.Shows fileno state) {interest : Interest}
    (different : interest ≠ .watched) (sock : Sock) (fd : Nat) :
    fd ∈ table.poller.erase (fileno sock) ↔
      ∃ member, Function.update state sock interest member = .watched ∧ fileno member = fd := by
  rw [AList.mem_erase, shown.registered]
  constructor
  · intro ⟨other, member, watched, same⟩
    refine ⟨member, ?_, same⟩
    rw [Function.update_of_ne]
    · exact watched
    · intro equal
      exact other (same.symm.trans (congrArg fileno equal))
  · intro ⟨member, watched, same⟩
    rw [Function.update_apply] at watched
    split at watched
    · exact absurd watched different
    · next other => exact ⟨fun equal => other (distinct (same.trans equal)), member, watched, same⟩

theorem Table.Shows.add (shown : table.Shows fileno state) (direction : Direction) (sock : Sock) :
    ∃ after, table.add fileno direction sock = some after ∧
      after.Shows fileno (Function.update state sock (Action.add.effect (state sock))) := by
  unfold Table.add
  by_cases known : sock ∈ table.sockets
  · have kept : Action.add.effect (state sock) = state sock := by
      have present := (shown.known sock).mp known
      cases same : state sock <;> simp_all [Action.effect]
    rw [if_pos known, kept, Function.update_eq_self]
    exact ⟨table, rfl, shown⟩
  · have absent : state sock = .absent := by simpa [shown.known] using known
    have fresh : fileno sock ∉ table.poller := by
      rw [shown.registered_iff distinct, absent]
      simp
    rw [if_neg known, absent]
    simp only [Table.register, if_neg fresh, Option.map_some, Action.effect]
    refine ⟨_, rfl, ⟨?_, ?_, shown.watched direction sock, ?_⟩⟩
    · intro member
      simp only [Finset.mem_insert, shown.known, Function.update_apply]
      split <;> simp_all
    · intro member
      simp only [shown.corked, Function.update_apply]
      split <;> simp_all
    · intro member present
      by_cases same : member = sock
      · rw [same, AList.lookup_insert]
      · rw [Function.update_of_ne same] at present
        rw [AList.lookup_insert_ne (fun equal => same (distinct equal))]
        exact shown.reported member present

theorem Table.Shows.remove (shown : table.Shows fileno state) (sock : Sock) :
    ∃ after, table.remove fileno sock = some after ∧
      after.Shows fileno (Function.update state sock (Action.remove.effect (state sock))) := by
  have gone : Action.remove.effect (state sock) = .absent := rfl
  rw [gone]
  unfold Table.remove
  by_cases known : sock ∈ table.sockets
  · have sockets : ∀ member, member ∈ table.sockets.erase sock ↔
        Function.update state sock .absent member ≠ .absent := by
      intro member
      simp only [Finset.mem_erase, shown.known, Function.update_apply]
      split <;> simp_all
    have reported : ∀ member, Function.update state sock .absent member ≠ .absent →
        (table.fdtosock.erase (fileno sock)).lookup (fileno member) = some member := by
      intro member present
      by_cases same : member = sock
      · simp [same] at present
      · rw [Function.update_of_ne same] at present
        rw [AList.lookup_erase_ne (fun equal => same (distinct equal))]
        exact shown.reported member present
    rw [if_pos known]
    by_cases corked : sock ∈ table.corked
    · have unregistered : fileno sock ∉ table.poller := by
        rw [shown.registered_iff distinct, (shown.corked sock).mp corked]
        simp
      have registered := shown.unwatched distinct (show Interest.absent ≠ .watched by decide) sock
      rw [erase_absent unregistered] at registered
      simp only [if_pos corked]
      refine ⟨_, rfl, ⟨sockets, ?_, registered, reported⟩⟩
      intro member
      simp only [Finset.mem_erase, shown.corked, Function.update_apply]
      split <;> simp_all
    · have free := mt (shown.corked sock).mpr corked
      have registered : fileno sock ∈ table.poller := by
        rw [shown.registered_iff distinct]
        have present := (shown.known sock).mp known
        cases same : state sock <;> simp_all
      simp only [if_neg corked, Table.unregister, if_pos registered]
      refine ⟨_, rfl, ⟨sockets, ?_, shown.unwatched distinct (by decide) sock, reported⟩⟩
      intro member
      simp only [shown.corked, Function.update_apply]
      split <;> simp_all
  · have absent : state sock = .absent := by simpa [shown.known] using known
    rw [if_neg known, ← absent, Function.update_eq_self]
    exact ⟨table, rfl, shown⟩

theorem Table.Shows.cork (shown : table.Shows fileno state) (sock : Sock) :
    ∃ after, table.cork fileno sock = some after ∧
      after.Shows fileno (Function.update state sock (Action.cork.effect (state sock))) := by
  unfold Table.cork
  by_cases watched : state sock = .watched
  · have known : sock ∈ table.sockets ∧ sock ∉ table.corked := by simp [shown.known, shown.corked, watched]
    have registered := (shown.registered_iff distinct).mpr watched
    rw [if_pos known, watched]
    simp only [Table.unregister, if_pos registered, Action.effect]
    refine ⟨_, rfl, ⟨?_, ?_, shown.unwatched distinct (by decide) sock, ?_⟩⟩
    · intro member
      simp only [shown.known, Function.update_apply]
      split <;> simp_all
    · intro member
      simp only [Finset.mem_insert, shown.corked, Function.update_apply]
      split <;> simp_all
    · intro member present
      refine shown.reported member ?_
      rw [Function.update_apply] at present
      split at present <;> simp_all
  · have kept : Action.cork.effect (state sock) = state sock := by
      cases same : state sock <;> simp_all [Action.effect]
    have other : ¬ (sock ∈ table.sockets ∧ sock ∉ table.corked) := by
      rw [shown.known, shown.corked]
      cases same : state sock <;> simp_all
    rw [if_neg other, kept, Function.update_eq_self]
    exact ⟨table, rfl, shown⟩

theorem Table.Shows.uncork (shown : table.Shows fileno state) (direction : Direction) (sock : Sock) :
    ∃ after, table.uncork fileno direction sock = some after ∧
      after.Shows fileno (Function.update state sock (Action.uncork.effect (state sock))) := by
  unfold Table.uncork
  by_cases corked : state sock = .corked
  · have known : sock ∈ table.sockets ∧ sock ∈ table.corked := by simp [shown.known, shown.corked, corked]
    have unregistered : fileno sock ∉ table.poller := by
      rw [shown.registered_iff distinct, corked]
      simp
    rw [if_pos known, corked]
    simp only [Table.register, if_neg unregistered, Action.effect]
    refine ⟨_, rfl, ⟨?_, ?_, shown.watched direction sock, ?_⟩⟩
    · intro member
      simp only [shown.known, Function.update_apply]
      split <;> simp_all
    · intro member
      simp only [Finset.mem_erase, shown.corked, Function.update_apply]
      split <;> simp_all
    · intro member present
      refine shown.reported member ?_
      rw [Function.update_apply] at present
      split at present <;> simp_all
  · have kept : Action.uncork.effect (state sock) = state sock := by
      cases same : state sock <;> simp_all [Action.effect]
    have other : ¬ (sock ∈ table.sockets ∧ sock ∈ table.corked) := by
      rw [shown.corked]
      exact fun both => corked both.2
    rw [if_neg other, kept, Function.update_eq_self]
    exact ⟨table, rfl, shown⟩

/-- A call for a socket does not raise, and changes what becomes of that socket alone. -/
theorem Table.Shows.act (shown : table.Shows fileno state) (action : Action) (direction : Direction) (sock : Sock) :
    ∃ after, table.act fileno direction sock action = some after ∧
      after.Shows fileno (Function.update state sock (action.effect (state sock))) := by
  cases action with
  | add => exact shown.add distinct direction sock
  | remove => exact shown.remove distinct sock
  | cork => exact shown.cork distinct sock
  | uncork => exact shown.uncork distinct direction sock

end Tables

end ExaProxy.Network
