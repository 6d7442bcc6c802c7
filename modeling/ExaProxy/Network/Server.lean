import ExaProxy.Data.Dictionary
import ExaProxy.Data.Str
import ExaProxy.Data.Transition
import ExaProxy.Network.Poller
import Mathlib.Data.Finset.Basic

namespace ExaProxy.Network

open ExaProxy.Data

structure Binding where
  ip : Str
  port : Nat
  timeout : Nat
  backlog : Nat
deriving DecidableEq, Repr

/-- What `_listen` comes to; `failed` is a `socket.error`. -/
inductive Listened where
  | socket (sock : Sock)
  | nothing
  | failed
deriving DecidableEq, Repr

structure Server (ν : Type) where
  socks : AList (fun _ : Sock => Str × Nat) := ∅
  poller : Poller ν := {}
  readName : ν
  maxClients : Int
  clientCount : Int := 0
  saturated : Bool := false
  binding : Finset Binding := ∅
  serving : Bool

namespace Poller

variable {ν : Type} [DecidableEq ν] {poller : Poller ν} {name other : ν} {socks : List Sock} {member : Sock}

/-- `removeReadSocket` for each of the sockets. -/
def removeAll (poller : Poller ν) (name : ν) (socks : List Sock) : Poller ν :=
  socks.foldl (fun poller sock => poller.remove name sock) poller

/-- `addReadSocket` for each of the sockets. -/
def addAll (poller : Poller ν) (name : ν) (socks : List Sock) : Poller ν :=
  socks.foldl (fun poller sock => poller.add name sock) poller

theorem interest_removeAll : (poller.removeAll name socks).interest other member =
    if other = name ∧ member ∈ socks then .absent else poller.interest other member := by
  induction socks generalizing poller with
  | nil => simp [removeAll]
  | cons sock socks ih =>
      have later : (poller.removeAll name (sock :: socks)).interest other member =
          ((poller.remove name sock).removeAll name socks).interest other member := rfl
      rw [later, ih, interest_remove]
      grind

theorem interest_addAll : (poller.addAll name socks).interest other member =
    if other = name ∧ member ∈ socks ∧ poller.interest name member = .absent then .watched
    else poller.interest other member := by
  induction socks generalizing poller with
  | nil => simp [addAll]
  | cons sock socks ih =>
      have later : (poller.addAll name (sock :: socks)).interest other member =
          ((poller.add name sock).addAll name socks).interest other member := rfl
      rw [later, ih, interest_add, interest_add]
      grind

end Poller

namespace Server

variable {ν : Type} [DecidableEq ν] (server : Server ν)

def listen (binding : Binding) : Listened → Server ν
  | .socket sock =>
      { server with
        binding := insert binding server.binding
        socks := server.socks.insert sock (binding.ip, binding.port)
        poller :=
          if server.clientCount < server.maxClients then server.poller.add server.readName sock
          else server.poller }
  | .nothing | .failed => server

/-- The loop of `accepting` over the bindings. -/
def relisten (server : Server ν) : List (Binding × Listened) → Server ν × Bool
  | [] => ({ server with serving := true }, true)
  | (_, .failed) :: _ => (server, false)
  | (binding, listened) :: rest => relisten (server.listen binding listened) rest

def accepting (attempts : List (Binding × Listened)) : Server ν × Bool :=
  if server.serving then (server, true) else server.relisten attempts

def rejecting : Server ν :=
  if server.serving then
    { server with
      poller := server.poller.removeAll server.readName server.socks.keys
      socks := ∅
      serving := false }
  else server

/-- The `finally` of `accept`. -/
def saturate : Server ν :=
  if server.clientCount ≥ server.maxClients then
    { server with
      saturated := true
      poller := server.poller.removeAll server.readName server.socks.keys }
  else server

/-- `accept`, once its caller has dealt with the connection that it yields, if there
is one. -/
def accept (accepted : Bool) : Server ν :=
  if accepted then { server with clientCount := server.clientCount + 1 }.saturate else server.saturate

def notifyClose (count : Nat) : Server ν :=
  let paused : Bool := server.clientCount ≥ server.maxClients
  let clientCount := server.clientCount - count
  { server with
    clientCount
    poller :=
      if paused ∧ clientCount < server.maxClients then
        server.poller.addAll server.readName server.socks.keys
      else server.poller }

/-- The sockets that the attempts to listen have opened. -/
def opened (attempts : List (Binding × Listened)) : List Sock :=
  attempts.filterMap fun
    | (_, .socket sock) => some sock
    | _ => none

/-- One operation.  A socket that was just opened is none of those that are listened on,
and what others do under their own names leaves what is polled for the server. -/
inductive Step : Server ν → Server ν → Prop where
  | listen {server : Server ν} (binding : Binding) (listened : Listened)
      (fresh : ∀ sock, listened = .socket sock → sock ∉ server.socks) :
      Step server (server.listen binding listened)
  | accept {server : Server ν} (accepted : Bool) : Step server (server.accept accepted)
  | notifyClose {server : Server ν} (count : Nat) (positive : 1 ≤ count) : Step server (server.notifyClose count)
  | rejecting {server : Server ν} : Step server server.rejecting
  | accepting {server : Server ν} (attempts : List (Binding × Listened))
      (bindings : (attempts.map Prod.fst).Nodup ∧ (attempts.map Prod.fst).toFinset = server.binding)
      (fresh : (opened attempts).Nodup ∧ ∀ sock ∈ opened attempts, sock ∉ server.socks) :
      Step server (server.accepting attempts).1
  | elsewhere {server : Server ν} (poller : Poller ν)
      (same : poller.interest server.readName = server.poller.interest server.readName) :
      Step server { server with poller }

/-- A server that listens nowhere yet, whether it is enabled or not. -/
def Start (server : Server ν) : Prop :=
  ∃ readName maxClients serving, server = { readName, maxClients, serving }

def Watches (sock : Sock) : Prop := server.poller.interest server.readName sock = .watched

/-- The sockets that the server listens on are polled as long as it may have more
clients, and no others. -/
def Gated : Prop := ∀ sock, server.poller.interest server.readName sock =
  if sock ∈ server.socks ∧ server.clientCount < server.maxClients then .watched else .absent

variable {server} {before after : Server ν} {attempts : List (Binding × Listened)}

theorem Gated.listen (gated : server.Gated) (binding : Binding) {listened : Listened}
    (fresh : ∀ sock, listened = .socket sock → sock ∉ server.socks) : (server.listen binding listened).Gated := by
  intro member
  cases listened with
  | socket sock =>
      have unknown := gated sock
      have known := gated member
      rw [if_neg fun listed => fresh sock rfl listed.1] at unknown
      simp only [Server.listen, AList.mem_insert]
      split
      · next room =>
          rw [Poller.interest_add, unknown, known]
          simp only [room]
          grind
      · next full =>
          rw [known]
          simp [full]
  | nothing => exact gated member
  | failed => exact gated member

theorem Gated.removeAll (gated : server.Gated) (sock : Sock) :
    (server.poller.removeAll server.readName server.socks.keys).interest server.readName sock = .absent := by
  rw [Poller.interest_removeAll]
  split
  · rfl
  · next unlisted =>
      rw [gated sock, if_neg]
      intro listed
      exact unlisted ⟨rfl, AList.mem_keys.mpr listed.1⟩

theorem Gated.rejecting (gated : server.Gated) : server.rejecting.Gated := by
  unfold Server.rejecting
  split
  · intro sock
    simp [gated.removeAll sock]
  · exact gated

theorem saturate_gated (count : Int) (gated : Gated { server with clientCount := count })
    (grown : count ≤ server.clientCount) : server.saturate.Gated := by
  intro sock
  unfold saturate
  split
  · next full =>
      have unwatched : (server.poller.removeAll server.readName server.socks.keys).interest server.readName sock =
          .absent := gated.removeAll sock
      simp [unwatched, not_lt.mpr full]
  · next room =>
      have known : server.poller.interest server.readName sock = if sock ∈ server.socks ∧ count < server.maxClients
          then .watched else .absent := gated sock
      have before : count < server.maxClients := by omega
      simp only [before, and_true] at known
      simp only [not_le.mp room, and_true]
      exact known

theorem Gated.accept (gated : server.Gated) (accepted : Bool) : (server.accept accepted).Gated := by
  unfold Server.accept
  split
  · exact saturate_gated server.clientCount gated (Int.le_add_one (le_refl _))
  · exact saturate_gated server.clientCount gated (le_refl _)

/-- Nothing changes unless the count falls below its limit. -/
theorem Gated.notifyClose (gated : server.Gated) (count : Nat) : (server.notifyClose count).Gated := by
  intro sock
  have known := gated sock
  simp only [Server.notifyClose, decide_eq_true_eq]
  split
  · next reopened =>
      obtain ⟨paused, room⟩ := reopened
      rw [Poller.interest_addAll]
      simp only [not_lt.mpr paused, and_false, if_false] at known
      simp only [known, AList.mem_keys, room, true_and, and_true]
  · next kept =>
      rw [known]
      have same : server.clientCount < server.maxClients ↔ server.clientCount - count < server.maxClients := by
        omega
      simp only [same]

theorem Gated.relisten (gated : server.Gated) (distinct : (opened attempts).Nodup)
    (fresh : ∀ sock ∈ opened attempts, sock ∉ server.socks) : (server.relisten attempts).1.Gated := by
  induction attempts generalizing server with
  | nil => exact gated
  | cons attempt attempts ih =>
      obtain ⟨binding, listened⟩ := attempt
      cases listened with
      | failed => exact gated
      | nothing => exact ih gated distinct fresh
      | socket sock =>
          have made : opened ((binding, .socket sock) :: attempts) = sock :: opened attempts := rfl
          rw [made] at distinct fresh
          rw [List.nodup_cons] at distinct
          rw [List.forall_mem_cons] at fresh
          refine ih (gated.listen binding fun other same => ?_) distinct.2 fun other member => ?_
          · cases same
            exact fresh.1
          · simp only [Server.listen, AList.mem_insert, not_or]
            refine ⟨?_, fresh.2 other member⟩
            intro same
            exact distinct.1 (same ▸ member)

theorem Step.gated (gated : before.Gated) (step : Step before after) : after.Gated := by
  cases step with
  | listen binding listened fresh => exact gated.listen binding fresh
  | accept accepted => exact gated.accept accepted
  | notifyClose count => exact gated.notifyClose count
  | rejecting => exact gated.rejecting
  | accepting attempts bindings fresh =>
      unfold Server.accepting
      split
      · exact gated
      · exact gated.relisten fresh.1 fresh.2
  | elsewhere poller same =>
      intro sock
      exact (congrFun same sock).trans (gated sock)

omit [DecidableEq ν] in
theorem Start.gated (started : Start server) : server.Gated := by
  obtain ⟨readName, maxClients, serving, rfl⟩ := started
  intro sock
  simp [AList.notMem_empty]

/-- In every state that a server comes to it watches the sockets it listens on if and only if
it may have more clients, and it watches no others. -/
theorem listening_gated (reached : Reachable Start Step server) :
    (∀ sock ∈ server.socks, server.Watches sock ↔ server.clientCount < server.maxClients) ∧
      ∀ sock, sock ∉ server.socks → ¬ server.Watches sock := by
  have gated : server.Gated :=
    reached.invariant Gated (fun _ started => started.gated) fun _ _ _ gated step => step.gated gated
  constructor
  · intro sock listed
    rw [Watches, gated sock]
    simp [listed]
  · intro sock unlisted
    rw [Watches, gated sock]
    simp [unlisted]

/-- A server for one client, on two sockets, which has two clients for a while. -/
def crowded : Server Unit :=
  let server : Server Unit := { readName := (), maxClients := 1, serving := true }
  let listening := (server.listen ⟨[], 80, 5, 200⟩ (.socket 3)).listen ⟨[], 81, 5, 200⟩ (.socket 4)
  ((listening.accept true).accept true).notifyClose 2

theorem listening_gated_crowded :
    (∀ sock ∈ crowded.socks, crowded.Watches sock ↔ crowded.clientCount < crowded.maxClients) ∧
      ∀ sock, sock ∉ crowded.socks → ¬ crowded.Watches sock := by
  have first : Reachable Start Step { readName := (), maxClients := 1, serving := true } :=
    .start ⟨(), 1, true, rfl⟩
  have second := first.next (.listen ⟨[], 80, 5, 200⟩ (.socket 3) fun _ _ => AList.notMem_empty _)
  have third := second.next (.listen ⟨[], 81, 5, 200⟩ (.socket 4) fun _ same => by cases same; decide)
  exact listening_gated (((third.next (.accept true)).next (.accept true)).next (.notifyClose 2 (by decide)))

end Server

end ExaProxy.Network
