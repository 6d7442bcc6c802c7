import ExaProxy.Data.Dictionary
import ExaProxy.Data.Str
import Mathlib.Algebra.GroupWithZero.Nat
import Mathlib.Data.Finset.Card

namespace ExaProxy.Resolver

open ExaProxy.Data

/-! `ResolverManager`: the lookups the proxy is waiting for.  The UDP worker is
`worker` and stays; `workers` holds the TCP workers by their sockets.  What a
worker reads or manages to send, and the clock, come from outside. -/

abbrev ClientId := Nat
abbrev Sock := Nat

/-- The next value of `next_identifier`, which counts from 1 to 0xfffe and
starts again; 0 stands for a counter that was not used yet. -/
def nextIdentifier (drawn : Nat) : Nat := drawn % 0xfffe + 1

structure Worker where
  wId : Nat
  socket : Sock
  drawn : Nat := 0
deriving DecidableEq, Repr

structure Configuration where
  timeout : Nat
  retries : Nat
  ttl : Nat
  fqdn : Bool
  maxWorkers : Int
deriving DecidableEq, Repr

/-- A decision that names a host first. -/
structure Decision (α : Type) where
  hostname : Str
  args : α
deriving DecidableEq, Repr

/-- Whom a query is for and what it asks. -/
structure Lookup (α : Type) where
  clientId : ClientId
  original : Str
  hostname : Str
  command : Str
  decision : Decision α
deriving DecidableEq, Repr

structure ClientData where
  wId : Nat
  identifier : Nat
  activeTime : Nat
  resolveCount : Nat
deriving DecidableEq, Repr

structure Active where
  time : Nat
  clientId : ClientId
  socket : Sock
deriving DecidableEq, Repr

/-- A lookup that waits for a TCP worker. -/
structure Waiting (α : Type) where
  clientId : ClientId
  command : Str
  decision : Decision α
  resolveCount : Nat
deriving DecidableEq, Repr

/-- What is answered: the decision with the address in the place of the name,
or an error page. -/
inductive Response (α : Type) where
  | resolved (command ip : Str) (args : α)
  | rewrite (fields : List Str)
deriving DecidableEq, Repr

/-- What `DNSClient.getResponse` makes of an answer it could parse; `followUp`
is the host of a new query, and whether that was sent completely. -/
structure Result where
  identifier : Option Nat
  forhost : Option Str
  ip : Option Str
  completed : Bool
  followUp : Option (Str × Bool)
deriving DecidableEq, Repr

structure ResolverManager (α : Type) where
  configuration : Configuration
  worker : Worker := { wId := 0, socket := 0 }
  workers : AList (fun _ : Sock => Worker) := ∅
  clients : AList (fun _ : ClientId => ClientData) := ∅
  resolving : AList (fun _ : Nat × Nat => Lookup α) := ∅
  sending : AList (fun _ : Sock => Lookup α) := ∅
  active : List Active := []
  cache : AList (fun _ : Str => Option Str) := ∅
  cached : List (Nat × List Str) := []
  workerCount : Int := 1
  waiting : List (Waiting α) := []
  chained : AList (fun _ : Nat => Nat) := ∅
  /-- the last identifier that was given to a TCP worker -/
  factoryDrawn : Nat := 0
  /-- the sockets polled under `read_resolver` and `write_resolver` -/
  reading : Finset Sock := {0}
  writing : Finset Sock := ∅
  /-- how many sockets were ever opened -/
  sockets : Nat := 1

namespace ResolverManager

variable {α : Type} (manager : ResolverManager α)

def isHostCommand (command : Str) : Bool :=
  command = ascii "download" || command = ascii "connect" || command = ascii "intercept"

/-- `extractHostname`, with `none` for an empty name too: every caller tests it. -/
def extractHostname (command : Str) (decision : Decision α) : Option Str :=
  if isHostCommand command ∧ decision.hostname ≠ [] then some decision.hostname else none

def parts (hostname : Str) : List Str := hostname.splitOn 46

/-- `self.workers.get(sock)` -/
def workerOf (sock : Sock) : Option Worker :=
  if sock = manager.worker.socket then some manager.worker else manager.workers.lookup sock

/-- A worker with a new value of its counter. -/
def putWorker (worker : Worker) : ResolverManager α :=
  if worker.socket = manager.worker.socket then { manager with worker }
  else { manager with workers := manager.workers.insert worker.socket worker }

/-- The entries made for a query: under its key in `resolving`, under its
client in `clients`, and in `active` with a socket. -/
def track (wId identifier now resolveCount : Nat) (socket : Sock) (lookup : Lookup α) :
    ResolverManager α :=
  { manager with
    resolving := manager.resolving.insert (wId, identifier) lookup
    clients := manager.clients.insert lookup.clientId ⟨wId, identifier, now, resolveCount⟩
    active := manager.active ++ [⟨now, lookup.clientId, socket⟩] }

/-- The socket's answer is waited for. -/
def expectAnswer (socket : Sock) : ResolverManager α :=
  { manager with reading := insert socket manager.reading }

/-- The rest of the socket's query is still to be sent. -/
def expectWrite (socket : Sock) (lookup : Lookup α) : ResolverManager α :=
  { manager with
    writing := insert socket manager.writing
    sending := manager.sending.insert socket lookup }

def errorPage (code protocol hostname : Str) : Response α :=
  .rewrite [code, ascii "dns.html", protocol, [], [], hostname, ascii "peer"]

/-- The page for a name that is not looked up. -/
def refusal (hostname : Str) : Option (Response α) :=
  if manager.configuration.fqdn ∧ 46 ∉ hostname then
    some (errorPage (ascii "200") (ascii "http") hostname)
  else if ∃ part ∈ parts hostname, part.length > 255 then
    some (errorPage (ascii "503") (ascii "http") hostname)
  else none

/-- The answer that needs no query; the cache is for a first query only. -/
def shortcut (hostname command : Str) (decision : Decision α) (first : Bool) :
    Option (Response α) :=
  match (if first then manager.cache.lookup hostname else none) with
  | some (some ip) => some (.resolved command ip decision.args)
  | some none => some (errorPage (ascii "503") (ascii "http") hostname)
  | none => manager.refusal hostname

/-- `self.worker.resolveHost`, which draws an identifier unless it is given one. -/
def resolveHost (identifier : Option Nat) : ResolverManager α × Nat :=
  match identifier with
  | some identifier => (manager, identifier)
  | none =>
      let drawn := nextIdentifier manager.worker.drawn
      ({ manager with worker := { manager.worker with drawn } }, drawn)

def startResolving (now : Nat) (clientId : ClientId) (command : Str) (decision : Decision α)
    (resolveCount : Nat) (identifier : Option Nat) :
    ResolverManager α × Option Nat × Option (Response α) :=
  match extractHostname command decision with
  | none => (manager, none, none)
  | some hostname =>
      match manager.shortcut hostname command decision identifier.isNone with
      | some response => (manager, none, some response)
      | none =>
          let (manager, identifier) := manager.resolveHost identifier
          (manager.track manager.worker.wId identifier now resolveCount manager.worker.socket
            ⟨clientId, hostname, hostname, command, decision⟩, some identifier, none)

/-- `newTCPResolver`: a new worker with a counter of its own.  The entry in
`active` carries the UDP worker's socket.  Where `connect` fails at once there is no
socket, so that `resolveHost` raises an `AttributeError`: no state follows. -/
def newTCPResolver (now : Nat) (allSent : Sock → Bool) (clientId : ClientId) (command : Str)
    (decision : Decision α) (resolveCount : Nat) : ResolverManager α × Option Nat :=
  match extractHostname command decision with
  | none => (manager, none)
  | some hostname =>
      let wId := nextIdentifier manager.factoryDrawn
      let socket := manager.sockets
      let identifier := nextIdentifier 0
      let lookup : Lookup α := ⟨clientId, hostname, hostname, command, decision⟩
      let opened := { manager with
        factoryDrawn := wId
        sockets := manager.sockets + 1
        workers := manager.workers.insert socket ⟨wId, socket, identifier⟩ }
      let tracked := opened.track wId identifier now resolveCount manager.worker.socket lookup
      if allSent socket then (tracked.expectAnswer socket, some identifier)
      else (tracked.expectWrite socket lookup, some identifier)

def beginResolvingTCP (now : Nat) (allSent : Sock → Bool) (clientId : ClientId) (command : Str)
    (decision : Decision α) (resolveCount : Nat) : ResolverManager α × Option Nat :=
  if manager.workerCount < manager.configuration.maxWorkers then
    let (started, identifier) :=
      manager.newTCPResolver now allSent clientId command decision resolveCount
    ({ started with workerCount := started.workerCount + 1 }, identifier)
  else
    ({ manager with waiting := manager.waiting ++ [⟨clientId, command, decision, resolveCount⟩] },
      none)

/-- The first lookup that waits gets a TCP worker. -/
def startWaiting (now : Nat) (allSent : Sock → Bool) : ResolverManager α :=
  match manager.waiting with
  | [] => manager
  | ⟨clientId, command, decision, resolveCount⟩ :: rest =>
      let started := ({ manager with waiting := rest }.newTCPResolver now allSent clientId command
        decision resolveCount).1
      { started with workerCount := started.workerCount + 1 }

def notifyClose (now : Nat) (allSent : Sock → Bool) : ResolverManager α :=
  let paused := manager.workerCount ≥ manager.configuration.maxWorkers
  let closed := { manager with workerCount := manager.workerCount - 1 }
  if paused ∧ closed.workerCount < closed.configuration.maxWorkers then
    (fun m : ResolverManager α => m.startWaiting now allSent)^[
      (closed.configuration.maxWorkers - closed.workerCount).toNat] closed
  else closed

/-- `worker.close()`, after which the socket is not polled any more. -/
def closeWorker (sock : Sock) (now : Nat) (allSent : Sock → Bool) : ResolverManager α :=
  { manager with
    reading := manager.reading.erase sock
    writing := manager.writing.erase sock
    workers := manager.workers.erase sock }.notifyClose now allSent

def cacheDestination (now : Nat) (hostname ip : Str) : ResolverManager α :=
  if hostname ∈ manager.cache then manager
  else
    let later := now + manager.configuration.ttl
    let expireTime := later - later % 5
    let cached := match manager.cached.getLast? with
      | some (latest, hosts) =>
          if expireTime > latest then manager.cached ++ [(expireTime, [hostname])]
          else manager.cached.dropLast ++ [(latest, hosts ++ [hostname])]
      | none => manager.cached ++ [(expireTime, [hostname])]
    { manager with cache := manager.cache.insert hostname (some ip), cached }

/-- `max_entries` -/
def maxEntries : Nat := 1024 * 20

def expireCache (now : Nat) : ResolverManager α :=
  match manager.cached with
  | [] => manager
  | (expireTime, hosts) :: rest =>
      if now ≥ expireTime ∨ manager.cache.keys.length > maxEntries then
        { manager with
          cached := rest
          cache := hosts.foldl (fun cache hostname => cache.erase hostname) manager.cache }
      else manager

/-- `chained`: the count of an answered query passes to its follow-up. -/
def chain (identifier : Option Nat) (newidentifier : Option Nat) : ResolverManager α :=
  let count := (identifier.bind manager.chained.lookup).getD 0
  let popped := identifier.elim manager.chained manager.chained.erase
  { manager with
    chained := match newidentifier with
      | some newidentifier => popped.insert newidentifier (count + 1)
      | none => popped }

/-- What is done with an answer for `lookup`, whose entry was `clidata`; the
worker has drawn `newidentifier` for a follow-up query, if it made one. -/
def answer (now : Nat) (allSent : Sock → Bool) (worker : Worker) (result : Result)
    (identifier : Nat) (newidentifier : Option Nat) (lookup : Lookup α)
    (clidata : Option ClientData) : ResolverManager α × Option (Response α) :=
  if result.completed then
    match newidentifier, result.followUp with
    | some newidentifier, some (newhost, newcomplete) =>
        let tracked := manager.track worker.wId newidentifier now 1 worker.socket
          { lookup with hostname := newhost }
        if newcomplete then (tracked.expectAnswer worker.socket, none)
        else (tracked.expectWrite worker.socket lookup, none)
    | _, _ =>
        if result.forhost ≠ some lookup.hostname then
          -- the wrong answer: the query is put back
          match clidata with
          | none => (manager, none) -- unpacking `None` raises, see `unpacksNone`
          | some clidata =>
              (manager.track worker.wId identifier now clidata.resolveCount worker.socket lookup,
                none)
        else
          match result.ip with
          | some ip =>
              (manager.cacheDestination now lookup.original ip,
                some (.resolved lookup.command ip lookup.decision.args))
          | none => (manager, some (errorPage (ascii "503") (ascii "http") lookup.hostname))
  else
    ((manager.beginResolvingTCP now allSent lookup.clientId lookup.command lookup.decision 1).1, none)

/-- The lookup an answer of the worker is about, with its identifier. -/
def answered (worker : Worker) (result : Result) : Option (Nat × Lookup α) :=
  result.identifier.bind fun identifier =>
    (manager.resolving.lookup (worker.wId, identifier)).map fun data => (identifier, data)

/-- The identifier the worker draws for a follow-up query. -/
def followUp (worker : Worker) (result : Result) : Option Nat :=
  result.followUp.map fun _ => nextIdentifier worker.drawn

def drawFollowUp (worker : Worker) (result : Result) : ResolverManager α :=
  match followUp worker result with
  | some drawn => manager.putWorker { worker with drawn }
  | none => manager

/-- `self.resolving.pop((worker.w_id, identifier), None)` -/
def popResolving (worker : Worker) (result : Result) : ResolverManager α :=
  match result.identifier with
  | some identifier =>
      { manager with resolving := manager.resolving.erase (worker.wId, identifier) }
  | none => manager

/-- The worker has read an answer, and the answer's entry is gone. -/
def receive (worker : Worker) (result : Result) : ResolverManager α :=
  ((manager.drawFollowUp worker result).popResolving worker result).chain result.identifier
    (followUp worker result)

/-- The query an answer is for is taken out of the tables. -/
def popLookup (sock : Sock) (lookup : Lookup α) : ResolverManager α :=
  { manager with
    clients := manager.clients.erase lookup.clientId
    active := match manager.clients.lookup lookup.clientId with
      | some clidata => manager.active.erase ⟨clidata.activeTime, lookup.clientId, sock⟩
      | none => manager.active }

/-- `getResponse`, on what the worker of `sock` makes of its answer; `none` is
an answer it could not parse. -/
def getResponse (now : Nat) (allSent : Sock → Bool) (sock : Sock) (result : Option Result) :
    ResolverManager α × Option (ClientId × Response α) :=
  match manager.workerOf sock with
  | none => (manager, none)
  | some worker =>
      match result with
      | none =>
          if sock = manager.worker.socket then (manager, none)
          else (manager.closeWorker sock now allSent, none)
      | some result =>
          let received := manager.receive worker result
          match manager.answered worker result with
          | none => (received, none)
          | some (identifier, lookup) =>
              let (acted, response) := (received.popLookup sock lookup).answer now allSent worker
                result identifier (followUp worker result) lookup
                (received.clients.lookup lookup.clientId)
              match response with
              | none => (acted, none)
              | some response =>
                  if sock = manager.worker.socket then (acted, some (lookup.clientId, response))
                  else (acted.closeWorker sock now allSent, some (lookup.clientId, response))

/-- The answer is put back for a client that has no entry: this is where `getResponse`
raises, so that the resolver makes no such step. -/
def unpacksNone (sock : Sock) (result : Option Result) : Bool :=
  (manager.workerOf sock).any fun worker => result.any fun result =>
    (manager.answered worker result).any fun (_, lookup) => result.completed ∧ result.followUp = none ∧
      result.forhost ≠ some lookup.hostname ∧ manager.clients.lookup lookup.clientId = none

/-- `continueSending`, when the worker's `continueSending` returns `False`; for
its other results nothing changes.  The dictionary of workers is indexed. -/
def continueSending (sock : Sock) : Option (ResolverManager α) :=
  match manager.workerOf sock with
  | none => none
  | some _ =>
      let written := { manager with writing := manager.writing.erase sock }
      match manager.sending.lookup sock with
      | none => some written
      | some lookup =>
          match manager.clients.lookup lookup.clientId with
          | none => some written
          | some clidata =>
              some { written with
                sending := manager.sending.erase sock
                resolving := manager.resolving.insert (clidata.wId, clidata.identifier) lookup
                reading := insert sock manager.reading }

/-- One turn of the loop in `cleanup`: what is done about an entry of `active`
that has timed out, and the answer that is yielded. -/
def expire (now : Nat) (entry : Active) :
    ResolverManager α × Option (ClientId × Response α) :=
  let closed (m : ResolverManager α) : ResolverManager α :=
    if entry.socket = m.worker.socket then m
    else { m with workers := m.workers.erase entry.socket }
  match manager.clients.lookup entry.clientId with
  | none => (closed manager, none)
  | some clidata =>
      let forgotten := { manager with clients := manager.clients.erase entry.clientId }
      let (popped, data) :=
        match manager.resolving.lookup (clidata.wId, clidata.identifier) with
        | some data =>
            ({ forgotten with
              resolving := manager.resolving.erase (clidata.wId, clidata.identifier) }, some data)
        | none =>
            ({ forgotten with sending := manager.sending.erase entry.socket },
              manager.sending.lookup entry.socket)
      match data with
      | none => (closed popped, none)
      | some lookup =>
          if clidata.resolveCount < manager.configuration.retries ∧
              entry.socket = manager.worker.socket then
            ((popped.startResolving now lookup.clientId lookup.command lookup.decision
              (clidata.resolveCount + 1) (some clidata.identifier)).1, none)
          else
            (closed popped, some (lookup.clientId,
              .rewrite [ascii "503", ascii "dns.html", [], [], [], lookup.hostname, ascii "peer"]))

/-- The loop of `cleanup`, which also walks the entries that are added to
`active` on the way; `count` entries have been seen. -/
def cleanupLoop (clock : Nat → Nat) (cutoff : Int) :
    Nat → Nat → ResolverManager α → Option (ResolverManager α × List (ClientId × Response α))
  | 0, _, _ => none
  | fuel + 1, count, manager =>
      let finish := { manager with active := manager.active.drop count }
      match manager.active[count]? with
      | none => some (finish, [])
      | some entry =>
          if (entry.time : Int) > cutoff then some (finish, [])
          else
            let (expired, response) := manager.expire (clock count) entry
            (cleanupLoop clock cutoff fuel (count + 1) expired).map fun (m, responses) =>
              (m, response.toList ++ responses)

/-- `cleanup`, run to its end; `clock count` is the time at which a query is
sent again for entry number `count`. -/
def cleanup (now : Nat) (clock : Nat → Nat) (fuel : Nat) :
    Option (ResolverManager α × List (ClientId × Response α)) :=
  manager.cleanupLoop clock ((now : Int) - manager.configuration.timeout) fuel 0

end ResolverManager

end ExaProxy.Resolver
