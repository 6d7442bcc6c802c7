import ExaProxy.Client.Readers
import ExaProxy.Data.Transition

namespace ExaProxy

open ExaProxy.Data ExaProxy.Network
open ExaProxy.Client (Source Recv Yielded Readers ClientManager)
open ExaProxy.Content (Send Site Decision ContentManager)

/-! The handlers of `Reactor`, each for one of the sockets that it is called
with: a handler's loop takes one turn after the other. -/

/-- The managers and the counters of the servers.  `asked` are the names of the
clients whose requests `decider.sendRequest` was given. -/
structure Reactor (ρ : Type) where
  client : ClientManager ρ := {}
  content : ContentManager := {}
  asked : List Nat := []
  clientCount : Source → Int := fun _ => 0

namespace Reactor

variable {ρ : Type} (readers : Readers ρ) (reactor : Reactor ρ)

/-- `Server.notifyClose` -/
def notifyClose (source : Source) : Reactor ρ :=
  { reactor with
    clientCount := Function.update reactor.clientCount source (reactor.clientCount source - 1) }

def sendRequest (name : Nat) : Reactor ρ := { reactor with asked := reactor.asked ++ [name] }

/-- What becomes of a connection that `Server.accept` yields and counts. -/
def acceptConnection (source : Source) : Reactor ρ :=
  let reactor := { reactor with
    clientCount := Function.update reactor.clientCount source (reactor.clientCount source + 1) }
  match source with
  | .passthrough =>
      let (client, name) := reactor.client.passthroughConnection readers
      { reactor with client }.sendRequest name
  | .proxy | .web | .icap | .tls =>
      { reactor with client := reactor.client.connection readers source }

def closeClient : Option Source → Reactor ρ
  | some source => reactor.notifyClose source
  | none => reactor

/-- The servers that are told of a client whose download was closed. -/
def closeServed : Option Source → Reactor ρ
  | some .proxy => reactor.notifyClose .proxy
  | some .tls => reactor.notifyClose .tls
  | some .passthrough => reactor.notifyClose .passthrough
  | some .icap | some .web | none => reactor

/-- `self.content.endClientDownload(client)` -/
def endDownload (client : Sock) : Reactor ρ :=
  { reactor with content := reactor.content.endClientDownload client }

/-- The client is read no further while the buffer for its server is filled. -/
def noteUpload (client : Sock) (status bufferChange : Option Bool) : Reactor ρ :=
  if bufferChange = some true then
    if status = some true then { reactor with client := reactor.client.corkUpload client }
    else { reactor with client := reactor.client.uncorkUpload client }
  else reactor

/-- The client's data is passed on to the server. -/
def relay (client : Sock) (data : Str) (send : Send) : Reactor ρ :=
  let (content, status, bufferChange) := reactor.content.sendClientData send client data
  { reactor with content }.noteUpload client status bufferChange

/-- `opening_client` -/
def incomingRequest (client : Sock) (recv : List Recv) : Except Raised (Reactor ρ) :=
  let (manager, read) := reactor.client.readRequest readers client recv
  let reactor := { reactor with client := manager }
  match read with
  | some (_, _, .raised error) => .error error
  | some (name, _, .request _) => .ok (reactor.sendRequest name)
  | some (_, source, .closed) => .ok (reactor.notifyClose source)
  | some (_, _, .content _) | some (_, _, .nothing) | none => .ok reactor

/-- `read_client` -/
def incomingClientData (client : Sock) (recv : List Recv) (send : Send) : Except Raised (Reactor ρ) :=
  let (manager, read) := reactor.client.readData readers client recv
  let reactor := { reactor with client := manager }
  match read with
  | some (_, _, .raised error) => .error error
  | some (name, _, .request _) => .ok (reactor.sendRequest name)
  | some (_, _, .content data) => .ok (if data = [] then reactor else reactor.relay client data send)
  | some (_, source, .closed) => .ok ((reactor.endDownload client).notifyClose source)
  | some (_, _, .nothing) | none => .ok reactor

/-- `write_client` -/
def flushClientOutput (client : Sock) (send : Send) : Except Raised (Reactor ρ) :=
  (reactor.client.sendData client (some []) send).map fun (manager, sent) =>
    let reactor := { reactor with client := manager }
    let reactor :=
      if sent.status = none ∧ sent.name ≠ none then
        (reactor.endDownload client).closeClient sent.source
      else reactor
    if sent.bufferChange = some true then
      if sent.status = some true then
        { reactor with content := reactor.content.corkClientDownload client }
      else { reactor with content := reactor.content.uncorkClientDownload client }
    else reactor

/-- The answer of a connection that was opened is sent to its client. -/
def answerClient (client : Sock) (response : Str) (send : Send) : Except Raised (Reactor ρ) :=
  (reactor.client.sendData client (some response) send).map fun (manager, sent) =>
    let reactor := { reactor with client := manager }
    if sent.status = none then (reactor.closeServed sent.source).endDownload client
    else if sent.bufferChange = some true then
      if sent.status = some true then
        { reactor with content := reactor.content.corkClientDownload client }
      else { reactor with content := reactor.content.uncorkClientDownload client }
    else reactor

/-- `opening_download` -/
def completeWebConnection (fetcher : Sock) (site : Site) (send clientSend : Send) :
    Except Raised (Reactor ρ) :=
  let (content, client, response, bufferChange) := reactor.content.startDownload site send fetcher
  let reactor := { reactor with content }
  match client with
  | none => .ok reactor
  | some client =>
      let reactor :=
        if bufferChange = some true then
          { reactor with client := reactor.client.uncorkUpload client }
        else reactor
      match response with
      | none | some [] => .ok reactor
      | some response =>
          if client ∈ reactor.client.bysock then reactor.answerClient client response clientSend
          else .ok reactor

/-- `read_download` -/
def incomingWebData (fetcher : Sock) (recv : Recv) (send : Send) : Except Raised (Reactor ρ) :=
  let (content, client, pageData) := reactor.content.readData fetcher recv
  let reactor := { reactor with content }
  match client with
  | none => .ok reactor
  | some client =>
      (reactor.client.sendData client pageData send).map fun (manager, sent) =>
        let reactor := { reactor with client := manager }
        if sent.status = none then -- the client went away
          let reactor := reactor.closeServed sent.source
          if pageData ≠ none then reactor.endDownload client else reactor
        else if sent.bufferChange = some true ∧ sent.status = some true then
          { reactor with content := reactor.content.corkClientDownload client }
        else reactor

/-- `write_download` -/
def flushWebOutput (fetcher : Sock) (send : Send) : Reactor ρ :=
  let (content, status, bufferChange, client) := reactor.content.sendSocketData send fetcher []
  let reactor := { reactor with content }
  match client with
  | none => reactor
  | some client => reactor.noteUpload client status bufferChange

/-- What comes from outside while a decision is enacted: what the server's socket
does with the request, what the client's does with the answer and has still to
read, and what the server's does with that. -/
structure Outside where
  site : Site
  request : Send
  answer : Send
  file : Option Str
  recv : List Recv
  upload : Send

/-- `enactDecisions`, for one decision. -/
def enactDecision (client : Sock) (decision : Decision) (outside : Outside) :
    Except Raised (Reactor ρ) := do
  let (content, answer) ←
    reactor.content.getContent outside.site outside.request client decision
  let reactor := { reactor with content }.noteUpload client answer.buffered answer.bufferChange
  let (manager, data, source) ← reactor.client.startData readers client answer.content
    answer.length outside.answer outside.file outside.recv
  let reactor := { reactor with client := manager }
  match data with
  | none => return (reactor.endDownload client).closeClient source
  | some [] => return reactor
  | some data => return reactor.relay client data outside.upload

/-- One turn of `expire` in the supervisor, which counts what has expired. -/
def expire (client : Sock) : Reactor ρ :=
  let (manager, source) := reactor.client.expireOne client
  { reactor with client := manager }.closeClient source

/-- The turns of the handlers, with what comes from outside. -/
inductive Turn where
  | acceptConnection (source : Source)
  | incomingRequest (client : Sock) (recv : List Recv)
  | incomingClientData (client : Sock) (recv : List Recv) (send : Send)
  | flushClientOutput (client : Sock) (send : Send)
  | completeWebConnection (fetcher : Sock) (site : Site) (send clientSend : Send)
  | incomingWebData (fetcher : Sock) (recv : Recv) (send : Send)
  | flushWebOutput (fetcher : Sock) (send : Send)
  | enactDecision (client : Sock) (decision : Decision) (outside : Outside)
  | expire (client : Sock)

/-- The reactor after a turn, if that does not raise. -/
def take : Turn → Except Raised (Reactor ρ)
  | .acceptConnection source => .ok (reactor.acceptConnection readers source)
  | .incomingRequest client recv => reactor.incomingRequest readers client recv
  | .incomingClientData client recv send => reactor.incomingClientData readers client recv send
  | .flushClientOutput client send => reactor.flushClientOutput client send
  | .completeWebConnection fetcher site send clientSend =>
      reactor.completeWebConnection fetcher site send clientSend
  | .incomingWebData fetcher recv send => reactor.incomingWebData fetcher recv send
  | .flushWebOutput fetcher send => .ok (reactor.flushWebOutput fetcher send)
  | .enactDecision client decision outside => reactor.enactDecision readers client decision outside
  | .expire client => .ok (reactor.expire client)

/-- The reactors that turns lead to, in any order, where `allows` says which ones. -/
abbrev Run (readers : Readers ρ) (allows : Reactor ρ → Turn → Prop) : Reactor ρ → Prop :=
  Reachable (· = {}) fun before after => ∃ turn, allows before turn ∧ before.take readers turn = .ok after

/-- The reactor after some turns, if all are allowed and none of them raises. -/
def follow (readers : Readers ρ) (allows : Reactor ρ → Turn → Prop) [∀ reactor, DecidablePred (allows reactor)] :
    List Turn → Reactor ρ → Option (Reactor ρ)
  | [], reactor => some reactor
  | turn :: turns, reactor =>
      if allows reactor turn then
        match reactor.take readers turn with
        | .ok after => follow readers allows turns after
        | .error _ => none
      else none

variable {reactor} {after : Reactor ρ} {client fetcher : Sock} {site : Site} {send clientSend : Send}

theorem follow_run {allows : Reactor ρ → Turn → Prop} [∀ reactor, DecidablePred (allows reactor)]
    {turns : List Turn} (run : Run readers allows reactor)
    (followed : follow readers allows turns reactor = some after) : Run readers allows after := by
  induction turns generalizing reactor with
  | nil =>
      cases followed
      exact run
  | cons turn turns ih =>
      simp only [follow] at followed
      split at followed
      · next allowed =>
          split at followed
          · next next ok => exact ih (run.next ⟨turn, allowed, ok⟩) followed
          · cases followed
      · cases followed

/-- A connection that is waited for no longer: its client may be read again if
data for the server is waiting, and is sent what there is to say. -/
theorem completeWebConnection_ok
    (ok : reactor.completeWebConnection fetcher site send clientSend = .ok after) :
    let started := reactor.content.startDownload site send fetcher
    (started.2.1 = none ∧ after = { reactor with content := started.1 }) ∨
      ∃ client, started.2.1 = some client ∧
        let noted := { reactor with content := started.1 }.noteUpload client none started.2.2.2
        after = noted ∨ ∃ response, started.2.2.1 = some response ∧ response ≠ [] ∧
          noted.answerClient client response clientSend = .ok after := by
  unfold completeWebConnection at ok
  generalize reactor.content.startDownload site send fetcher = started at ok ⊢
  obtain ⟨content, owner, response, bufferChange⟩ := started
  cases owner with
  | none =>
      cases ok
      exact .inl ⟨rfl, rfl⟩
  | some client =>
      have noted : (if bufferChange = some true then
          { reactor with content, client := reactor.client.uncorkUpload client }
          else { reactor with content } : Reactor ρ) =
            { reactor with content }.noteUpload client none bufferChange := rfl
      apply Or.inr
      refine ⟨client, rfl, ?_⟩
      simp only [noted] at ok ⊢
      split at ok
      · cases ok
        exact .inl rfl
      · cases ok
        exact .inl rfl
      · next nonempty =>
          split at ok
          · exact .inr ⟨_, rfl, fun empty => nonempty (by rw [empty]), ok⟩
          · cases ok
            exact .inl rfl

end Reactor

end ExaProxy
