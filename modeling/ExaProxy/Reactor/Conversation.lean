import ExaProxy.Client.Pipelined
import ExaProxy.Reactor.Gate

namespace ExaProxy

open ExaProxy.Data ExaProxy.Network ExaProxy.Client
open ExaProxy.Content (Send Decision ContentManager)

/-- What is decided of the requests of a client: each is answered with a stream, and has
no body.  The client takes what it is sent, or is not ready for it. -/
structure Streaming (client : Sock) where
  decide : Nat → ContentManager → Decision × Reactor.Outside
  streams : ∀ count (content : ContentManager), ∃ after data buffered bufferChange,
    content.getContent (decide count content).2.site (decide count content).2.request client (decide count content).1 =
      .ok (after, ⟨some (.stream data), .number 0, buffered, bufferChange⟩)
  stays : ∀ count content, (decide count content).2.answer ≠ .failed
  /-- what the server's socket does with data for it -/
  upload : Send

namespace Reactor

section Receive

variable {ρ : Type} (readers : Readers ρ) (reactor : Reactor ρ) (client : Sock)

/-- The request that was read by a handler. -/
def requestOf : Option (Nat × Source × Yielded) → Option Str
  | some (_, _, .request text) => some text
  | _ => none

/-- The handler that the poller calls for a client with data to read, with the request
that it gives to `decider.sendRequest`. -/
def receive (recv : List Recv) (send : Send) : Except Raised (Reactor ρ × Option Str) :=
  if reactor.client.poller.interest .openingClient client = .watched then
    (reactor.incomingRequest readers client recv).map fun after =>
      (after, requestOf (reactor.client.readRequest readers client recv).2)
  else if reactor.client.poller.interest .readClient client = .watched then
    (reactor.incomingClientData readers client recv send).map fun after =>
      (after, requestOf (reactor.client.readData readers client recv).2)
  else .ok (reactor, none)

variable {readers reactor client} {recv : List Recv} {send : Send}

theorem receive_opening (watched : reactor.client.poller.interest .openingClient client = .watched) :
    reactor.receive readers client recv send = (reactor.incomingRequest readers client recv).map fun after =>
      (after, requestOf (reactor.client.readRequest readers client recv).2) := by
  rw [receive, if_pos watched]

theorem receive_serving (opened : reactor.client.poller.interest .openingClient client = .absent)
    (watched : reactor.client.poller.interest .readClient client = .watched) :
    reactor.receive readers client recv send = (reactor.incomingClientData readers client recv send).map fun after =>
      (after, requestOf (reactor.client.readData readers client recv).2) := by
  rw [receive, if_neg (by rw [opened]; decide), if_pos watched]

variable (reactor client) in
/-- The client was not closed. -/
def Holds : Prop := client ∈ reactor.client.norequest ∨ client ∈ reactor.client.bysock

end Receive

variable {ι : Type} {settings : Settings} {icap : Readers ι} {reactor : Reactor (AnyReader ι)} {sock : Sock} {name : Nat}
  {pending piece text rest buffer : Str} {send : Send}

/-- The client waits for the rest of a request, of which `pending` has come. -/
inductive Listening (reactor : Reactor (AnyReader ι)) (sock : Sock) (name : Nat) (pending : Str) : Prop
  | opening (client : Connected (AnyReader ι)) (found : reactor.client.norequest.lookup sock = some client)
      (named : client.name = name) (reads : client.reader = .http ⟨false, waiting pending 0⟩)
      (writes : client.writer.wBuffer = [])
      (watched : reactor.client.poller.interest .openingClient sock = .watched)
      (unread : reactor.client.poller.interest .readClient sock = .absent)
      (buffered : reactor.client.buffered.count sock = 0)
  | serving (client : Connected (AnyReader ι)) (found : reactor.client.bysock.lookup sock = some client)
      (named : client.name = name) (reads : client.reader = .http ⟨false, waiting pending 0⟩)
      (watched : reactor.client.poller.interest .readClient sock = .watched)
      (opened : reactor.client.poller.interest .openingClient sock = .absent)
      (buffered : reactor.client.buffered.count sock = if client.writer.wBuffer = [] then 0 else 1)

/-- A request of the client is with the decider; `rest` has come behind it. -/
inductive Asked (reactor : Reactor (AnyReader ι)) (sock : Sock) (name : Nat) (rest : Str) : Prop
  | intro (client : Connected (AnyReader ι)) (found : reactor.client.bysock.lookup sock = some client)
      (named : client.name = name) (reads : client.reader = .http ⟨false, answered rest⟩)
      (known : reactor.client.poller.interest .readClient sock ≠ .absent)
      (opened : reactor.client.poller.interest .openingClient sock = .absent)
      (buffered : reactor.client.buffered.count sock = if client.writer.wBuffer = [] then 0 else 1)

theorem Listening.holds (listening : Listening reactor sock name pending) : reactor.Holds sock := by
  cases listening with
  | opening client found => exact .inl (lookup_mem found)
  | serving client found => exact .inr (lookup_mem found)

theorem cleanup_absent (manager : ClientManager (AnyReader ι)) (sock : Sock) (name : Nat) :
    sock ∉ (manager.cleanup sock name).norequest ∧ sock ∉ (manager.cleanup sock name).bysock :=
  ⟨fun held => (AList.mem_erase.mp held).1 rfl, fun held => (AList.mem_erase.mp held).1 rfl⟩

theorem resume_direct (settings : Settings) (mode : Mode) (nbToSend : Nat) (recv : List Recv) (reader : Reader) :
    HttpReader.resume settings mode nbToSend recv ⟨false, reader⟩ =
      ((reader.resume settings.httpMaxBuffer mode nbToSend (recv.headD .wouldBlock)).1,
        ⟨false, (reader.resume settings.httpMaxBuffer mode nbToSend (recv.headD .wouldBlock)).2⟩) := by
  cases recv with
  | nil => rfl
  | cons first recv => cases first <;> rfl

theorem readData_waiting (settings : Settings) (icap : Readers ι) (pending : Str) (nonempty : piece ≠ []) :
    (readers settings icap).readData (.http ⟨false, waiting pending 0⟩) [.data piece] =
      (((waiting (pending ++ piece) 0).readHttp settings.httpMaxBuffer).1,
        .http ⟨false, ((waiting (pending ++ piece) 0).readHttp settings.httpMaxBuffer).2⟩) := by
  cases piece with
  | nil => exact absurd rfl nonempty
  | cons byte piece => rfl

section Receive

variable (icap send)

theorem Listening.receive_nothing (listening : Listening reactor sock name pending) (nonempty : piece ≠ [])
    (read : (waiting (pending ++ piece) 0).readHttp settings.httpMaxBuffer = (.nothing, waiting buffer 0)) :
    ∃ after, reactor.receive (readers settings icap) sock [.data piece] send = .ok (after, none) ∧
      Listening after sock name buffer ∧ after.asked = reactor.asked := by
  have resumed := readData_waiting settings icap pending nonempty
  rw [read] at resumed
  cases listening with
  | opening client found named reads writes watched unread buffered =>
      rw [← reads] at resumed
      have opened : reactor.client.readRequest (readers settings icap) sock [.data piece] =
          ({ reactor.client with
            norequest := reactor.client.norequest.insert sock { client with reader := .http ⟨false, waiting buffer 0⟩ } },
            some (client.name, client.source, .nothing)) := by
        simp only [ClientManager.readRequest, found, resumed]
      rw [receive_opening watched, incomingRequest, opened]
      exact ⟨_, rfl, .opening _ (AList.lookup_insert _) named rfl writes watched unread buffered, rfl⟩
  | serving client found named reads watched opened buffered =>
      rw [← reads] at resumed
      have reading : reactor.client.readData (readers settings icap) sock [.data piece] =
          (reactor.client.put sock { client with reader := .http ⟨false, waiting buffer 0⟩ },
            some (client.name, client.source, .nothing)) := by
        simp only [ClientManager.readData, found, resumed]
      rw [receive_serving opened watched, incomingClientData, reading]
      exact ⟨_, rfl, .serving _ (AList.lookup_insert _) named rfl watched opened buffered, rfl⟩

theorem Listening.receive_closed (listening : Listening reactor sock name pending) (nonempty : piece ≠ [])
    (read : ((waiting (pending ++ piece) 0).readHttp settings.httpMaxBuffer).1 = .closed) :
    ∃ after, reactor.receive (readers settings icap) sock [.data piece] send = .ok (after, none) ∧
      ¬ after.Holds sock := by
  have resumed := readData_waiting settings icap pending nonempty
  rw [read] at resumed
  cases listening with
  | opening client found named reads writes watched unread buffered =>
      rw [← reads] at resumed
      have opened : reactor.client.readRequest (readers settings icap) sock [.data piece] =
          (reactor.client.cleanup sock client.name, some (client.name, client.source, .closed)) := by
        simp only [ClientManager.readRequest, found, resumed]
      have gone := cleanup_absent reactor.client sock client.name
      rw [receive_opening watched, incomingRequest, opened]
      exact ⟨_, rfl, fun held => held.elim gone.1 gone.2⟩
  | serving client found named reads watched opened buffered =>
      rw [← reads] at resumed
      have reading : reactor.client.readData (readers settings icap) sock [.data piece] =
          (reactor.client.cleanup sock client.name, some (client.name, client.source, .closed)) := by
        simp only [ClientManager.readData, found, resumed]
      have gone := cleanup_absent reactor.client sock client.name
      rw [receive_serving opened watched, incomingClientData, reading]
      exact ⟨_, rfl, fun held => held.elim gone.1 gone.2⟩

theorem Listening.receive_request (listening : Listening reactor sock name pending) (nonempty : piece ≠ [])
    (read : (waiting (pending ++ piece) 0).readHttp settings.httpMaxBuffer = (.request text, answered rest)) :
    ∃ after, reactor.receive (readers settings icap) sock [.data piece] send = .ok (after, some text) ∧
      Asked after sock name rest ∧ after.asked = reactor.asked ++ [name] := by
  have resumed := readData_waiting settings icap pending nonempty
  rw [read] at resumed
  cases listening with
  | opening client found named reads writes watched unread buffered =>
      rw [← reads] at resumed
      have opened : reactor.client.readRequest (readers settings icap) sock [.data piece] =
          ({ reactor.client with
            norequest := reactor.client.norequest.erase sock
            bysock := reactor.client.bysock.insert sock { client with reader := .http ⟨false, answered rest⟩ }
            poller := ((reactor.client.poller.add .readClient sock).remove .openingClient sock).cork .readClient sock },
            some (client.name, client.source, .request text)) := by
        simp only [ClientManager.readRequest, found, resumed]
      rw [receive_opening watched, incomingRequest, opened]
      refine ⟨_, rfl, ⟨_, AList.lookup_insert _, named, rfl, ?_, ?_, ?_⟩, by rw [← named]; rfl⟩
      · simp [sendRequest, Poller.interest_cork, Poller.interest_remove, Poller.interest_add, unread]
      · simp [sendRequest, Poller.interest_cork, Poller.interest_remove]
      · simpa [sendRequest, writes] using buffered
  | serving client found named reads watched opened buffered =>
      rw [← reads] at resumed
      have reading : reactor.client.readData (readers settings icap) sock [.data piece] =
          ({ reactor.client.put sock { client with reader := .http ⟨false, answered rest⟩ } with
            poller := reactor.client.poller.cork .readClient sock },
            some (client.name, client.source, .request text)) := by
        simp only [ClientManager.readData, found, resumed]
        rfl
      rw [receive_serving opened watched, incomingClientData, reading]
      refine ⟨_, rfl, ⟨_, AList.lookup_insert _, named, rfl, ?_, ?_, buffered⟩, by rw [← named]; rfl⟩
      · simp [sendRequest, Poller.interest_cork, watched]
      · simp [sendRequest, Poller.interest_cork, opened]

end Receive

theorem Asked.noteUpload (asked : Asked reactor sock name rest) (content : ContentManager)
    (status bufferChange : Option Bool) :
    Asked ({ reactor with content }.noteUpload sock status bufferChange) sock name rest := by
  obtain ⟨client, found, named, reads, known, opened, buffered⟩ := asked
  have held : sock ∈ reactor.client.bysock := lookup_mem found
  unfold Reactor.noteUpload
  split
  · split
    · refine ⟨client, ?_, named, reads, ?_, ?_, ?_⟩
      all_goals simp only [ClientManager.corkUpload, held, if_true]
      · exact found
      · rwa [Ne, Poller.cork_known]
      · rwa [Poller.cork_known]
      · exact buffered
    · refine ⟨client, ?_, named, reads, ?_, ?_, ?_⟩
      all_goals simp only [ClientManager.uncorkUpload, held, if_true]
      · exact found
      · rwa [Ne, Poller.uncork_known]
      · rwa [Poller.uncork_known]
      · exact buffered
  · exact ⟨client, found, named, reads, known, opened, buffered⟩

theorem turn_stream (wBuffer data : Str) (stays : send ≠ .failed) : ∃ after,
    Writer.turn false wBuffer (some data) send = (some (decide (after.wBuffer ≠ []), decide (wBuffer ≠ [])), after) := by
  refine ⟨(Writer.turn false wBuffer (some data) send).2, ?_⟩
  unfold Writer.turn
  simp only [Option.getD_some, Option.isNone_some, Bool.or_false, Bool.false_eq_true, false_and, if_false]
  split
  · cases send with
    | accepted count => rfl
    | wouldBlock => rfl
    | failed => exact absurd rfl stays
  · rfl

theorem startBuffer_filled {manager : ClientManager (AnyReader ι)} {before : Str} (after : Str)
    (buffered : manager.buffered.count sock = if before = [] then 0 else 1) : ∃ started,
    manager.startBuffer sock (decide (after ≠ [])) (decide (before ≠ [])) = .ok started ∧
      started.bysock = manager.bysock ∧ started.buffered.count sock = (if after = [] then 0 else 1) ∧
      ∀ event, event ≠ .writeClient → started.poller.interest event sock = manager.poller.interest event sock := by
  unfold ClientManager.startBuffer
  by_cases filled : after = [] <;> by_cases wasFilled : before = []
  · rw [if_pos wasFilled] at buffered
    refine ⟨manager, by simp [filled, wasFilled], rfl, ?_, fun _ _ => rfl⟩
    rw [if_pos filled, buffered]
  · rw [if_neg wasFilled] at buffered
    have listed : sock ∈ manager.buffered := List.count_pos_iff.mp (by omega)
    refine ⟨{ manager with
      buffered := manager.buffered.erase sock
      poller := manager.poller.remove .writeClient sock }, by simp [filled, wasFilled, listed], rfl, ?_, ?_⟩
    · rw [if_pos filled, List.count_erase_self, buffered]
    · intro event other
      simp [Poller.interest_remove, other]
  · rw [if_pos wasFilled] at buffered
    refine ⟨{ manager with
      buffered := manager.buffered ++ [sock]
      poller := manager.poller.add .writeClient sock }, by simp [filled, wasFilled], rfl, ?_, ?_⟩
    · rw [if_neg filled, List.count_append, buffered, List.count_singleton_self]
    · intro event other
      simp [Poller.interest_add, other]
  · rw [if_neg wasFilled] at buffered
    refine ⟨manager, by simp [filled, wasFilled], rfl, ?_, fun _ _ => rfl⟩
    rw [if_neg filled, buffered]

theorem readRelated_answered (settings : Settings) (icap : Readers ι) (rest : Str) (recv : List Recv) :
    (readers settings icap).readRelated (.http ⟨false, answered rest⟩) .newRequest 0 recv =
      (((waiting rest 0).readHttp settings.httpMaxBuffer).1,
        .http ⟨false, ((waiting rest 0).readHttp settings.httpMaxBuffer).2⟩) := by
  simp only [readers, resume_direct]
  rfl

section StartData

variable (icap) {manager : ClientManager (AnyReader ι)} {client : Connected (AnyReader ι)} (file : Option Str) (recv : List Recv)

/-- A stream is started, and no request is whole in what came behind the last one. -/
theorem startData_nothing (found : manager.bysock.lookup sock = some client)
    (reads : client.reader = .http ⟨false, answered rest⟩)
    (buffered : manager.buffered.count sock = if client.writer.wBuffer = [] then 0 else 1)
    (data : Str) (stays : send ≠ .failed)
    (read : (waiting rest 0).readHttp settings.httpMaxBuffer = (.nothing, waiting buffer 0)) : ∃ started writer,
    manager.startData (readers settings icap) sock (some (.stream data)) (.number 0) send file recv =
        .ok (started, some [], some client.source) ∧
      started.bysock.lookup sock = some { client with reader := .http ⟨false, waiting buffer 0⟩, writer } ∧
      started.buffered.count sock = (if writer.wBuffer = [] then 0 else 1) ∧
      ∀ event, event ≠ .writeClient → started.poller.interest event sock =
        (manager.poller.uncork .readClient sock).interest event sock := by
  obtain ⟨writer, written⟩ := turn_stream client.writer.wBuffer data stays
  have related := readRelated_answered settings icap rest recv
  rw [read, ← reads] at related
  obtain ⟨started, ok, bysock, count, polled⟩ := startBuffer_filled writer.wBuffer
    (show ({ manager.put sock { client with writer, reader := .http ⟨false, waiting buffer 0⟩ } with
      poller := manager.poller.uncork .readClient sock } : ClientManager (AnyReader ι)).buffered.count sock = _ from buffered)
  refine ⟨started, writer, ?_, ?_, count, polled⟩
  · simp only [ClientManager.startData, found, Writer.startData, written, bind, Except.bind, ClientManager.startReading,
      parseRemaining, gt_iff_lt, lt_self_iff_false, if_false, if_true, related, pure, Except.pure]
    simp only [ClientManager.put] at ok ⊢
    rw [ok]
    rfl
  · rw [bysock]
    exact AList.lookup_insert _

/-- A stream is started, and a request is whole behind the last one, or there is too much:
the connection is closed. -/
theorem startData_closed (found : manager.bysock.lookup sock = some client)
    (reads : client.reader = .http ⟨false, answered rest⟩) (data : Str) (stays : send ≠ .failed)
    (read : ((waiting rest 0).readHttp settings.httpMaxBuffer).1 = .closed ∨
      ∃ text, ((waiting rest 0).readHttp settings.httpMaxBuffer).1 = .request text) : ∃ closed,
    manager.startData (readers settings icap) sock (some (.stream data)) (.number 0) send file recv =
        .ok (closed, none, some client.source) ∧ sock ∉ closed.norequest ∧ sock ∉ closed.bysock := by
  obtain ⟨writer, written⟩ := turn_stream client.writer.wBuffer data stays
  have related := readRelated_answered settings icap rest recv
  rw [← reads] at related
  refine ⟨_, ?_, cleanup_absent ({ manager.put sock
    { client with writer, reader := .http ⟨false, ((waiting rest 0).readHttp settings.httpMaxBuffer).2⟩ } with
      poller := manager.poller.uncork .readClient sock }) sock client.name⟩
  simp only [ClientManager.startData, found, Writer.startData, written, bind, Except.bind, ClientManager.startReading,
    parseRemaining, gt_iff_lt, lt_self_iff_false, if_false, if_true, related, pure, Except.pure]
  rcases read with closed | ⟨text, asked⟩
  · rw [closed]
    rfl
  · rw [asked]
    rfl

end StartData

theorem noteUpload_asked (status bufferChange : Option Bool) :
    (reactor.noteUpload sock status bufferChange).asked = reactor.asked := by
  unfold Reactor.noteUpload
  split
  · split <;> rfl
  · rfl

variable (icap) in
theorem Asked.enact_nothing (asked : Asked reactor sock name rest) (streaming : Streaming sock) (count : Nat)
    (read : (waiting rest 0).readHttp settings.httpMaxBuffer = (.nothing, waiting buffer 0)) :
    let decided := streaming.decide count reactor.content
    ∃ after, reactor.enactDecision (readers settings icap) sock decided.1 decided.2 = .ok after ∧
      Listening after sock name buffer ∧ after.asked = reactor.asked := by
  obtain ⟨content, data, status, bufferChange, streams⟩ := streaming.streams count reactor.content
  have stays := streaming.stays count reactor.content
  generalize streaming.decide count reactor.content = decided at streams stays ⊢
  obtain ⟨decision, outside⟩ := decided
  have kept : ({ reactor with content }.noteUpload sock status bufferChange).asked = reactor.asked :=
    noteUpload_asked status bufferChange
  obtain ⟨client, found, named, reads, known, opened, buffered⟩ := asked.noteUpload content status bufferChange
  obtain ⟨started, writer, ok, found', filled, polled⟩ :=
    startData_nothing icap outside.file outside.recv found reads buffered data stays read
  simp only [enactDecision, streams, bind, Except.bind, ok]
  refine ⟨_, rfl, .serving _ found' named rfl ?_ ?_ filled, kept⟩
  · rw [polled .readClient (by decide), Poller.interest_uncork]
    split
    · rfl
    · next still =>
        cases interest : ({ reactor with content }.noteUpload sock status bufferChange).client.poller.interest .readClient sock with
        | absent => exact absurd interest known
        | watched => rfl
        | corked => exact absurd ⟨rfl, rfl, interest⟩ still
  · rwa [polled .openingClient (by decide), Poller.uncork_known]

variable (icap) in
theorem Asked.enact_closed (asked : Asked reactor sock name rest) (streaming : Streaming sock) (count : Nat)
    (read : ((waiting rest 0).readHttp settings.httpMaxBuffer).1 = .closed ∨
      ∃ text, ((waiting rest 0).readHttp settings.httpMaxBuffer).1 = .request text) :
    let decided := streaming.decide count reactor.content
    ∃ after, reactor.enactDecision (readers settings icap) sock decided.1 decided.2 = .ok after ∧ ¬ after.Holds sock := by
  obtain ⟨content, data, status, bufferChange, streams⟩ := streaming.streams count reactor.content
  have stays := streaming.stays count reactor.content
  generalize streaming.decide count reactor.content = decided at streams stays ⊢
  obtain ⟨decision, outside⟩ := decided
  obtain ⟨client, found, named, reads, known, opened, buffered⟩ := asked.noteUpload content status bufferChange
  obtain ⟨closed, ok, absent, unserved⟩ := startData_closed icap outside.file outside.recv found reads data stays read
  simp only [enactDecision, streams, bind, Except.bind, ok]
  refine ⟨_, rfl, ?_⟩
  unfold closeClient
  split
  · exact fun held => held.elim absent unserved
  · exact fun held => held.elim absent unserved

end Reactor

/-- A client of a reactor, with the requests of it that `decider.sendRequest` was given. -/
structure Conversation (ρ : Type) where
  reactor : Reactor ρ
  sent : List Str := []

namespace Conversation

section Run

variable {ρ : Type} (readers : Readers ρ) {sock : Sock} (streaming : Streaming sock)

/-- The client sends a piece.  If that makes a request, it is decided and answered. -/
def next (conversation : Conversation ρ) (piece : Str) : Except Raised (Conversation ρ) :=
  match conversation.reactor.receive readers sock [.data piece] streaming.upload with
  | .error raised => .error raised
  | .ok (reactor, none) => .ok { conversation with reactor }
  | .ok (reactor, some text) =>
      let (decision, outside) := streaming.decide conversation.sent.length reactor.content
      (reactor.enactDecision readers sock decision outside).map fun reactor => ⟨reactor, conversation.sent ++ [text]⟩

def run (conversation : Conversation ρ) (pieces : List Str) : Except Raised (Conversation ρ) :=
  pieces.foldlM (next readers streaming) conversation

end Run

open Reactor

variable {ι : Type} {settings : Settings} {icap : Readers ι} {sock : Sock} {name : Nat} {asked : List Nat}
  {texts pieces : List Str} {received piece pending : Str} {conversation : Conversation (AnyReader ι)}

section Next

variable {text rest : Str}

section Steps

variable {ρ : Type} {readers : Readers ρ} {conversation : Conversation ρ} {streaming : Streaming sock}

theorem next_unasked {after : Reactor ρ}
    (unasked : conversation.reactor.receive readers sock [.data piece] streaming.upload = .ok (after, none)) :
    conversation.next readers streaming piece = .ok ⟨after, conversation.sent⟩ := by
  unfold next
  rw [unasked]

theorem next_asked {reactor : Reactor ρ}
    (asked : conversation.reactor.receive readers sock [.data piece] streaming.upload = .ok (reactor, some text)) :
    let decided := streaming.decide conversation.sent.length reactor.content
    conversation.next readers streaming piece = (reactor.enactDecision readers sock decided.1 decided.2).map
      fun reactor => ⟨reactor, conversation.sent ++ [text]⟩ := by
  unfold next
  rw [asked]

end Steps

variable (icap)

theorem next_kept (listening : Listening conversation.reactor sock name pending) (streaming : Streaming sock)
    (nonempty : piece ≠ [])
    (read : (waiting (pending ++ piece) 0).readHttp settings.httpMaxBuffer = (.nothing, waiting (pending ++ piece) 0)) :
    ∃ reactor, conversation.next (readers settings icap) streaming piece = .ok ⟨reactor, conversation.sent⟩ ∧
      Listening reactor sock name (pending ++ piece) ∧ reactor.asked = conversation.reactor.asked := by
  obtain ⟨after, unasked, kept, asked⟩ := listening.receive_nothing icap streaming.upload nonempty read
  exact ⟨after, next_unasked unasked, kept, asked⟩

theorem next_closed (listening : Listening conversation.reactor sock name pending) (streaming : Streaming sock)
    (nonempty : piece ≠ []) (read : ((waiting (pending ++ piece) 0).readHttp settings.httpMaxBuffer).1 = .closed) :
    ∃ reactor, conversation.next (readers settings icap) streaming piece = .ok ⟨reactor, conversation.sent⟩ ∧
      ¬ reactor.Holds sock := by
  obtain ⟨after, unasked, gone⟩ := listening.receive_closed icap streaming.upload nonempty read
  exact ⟨after, next_unasked unasked, gone⟩

theorem next_answered (listening : Listening conversation.reactor sock name pending) (streaming : Streaming sock)
    (nonempty : piece ≠ [])
    (read : (waiting (pending ++ piece) 0).readHttp settings.httpMaxBuffer = (.request text, answered rest))
    (idle : (waiting rest 0).readHttp settings.httpMaxBuffer = (.nothing, waiting rest 0)) :
    ∃ reactor, conversation.next (readers settings icap) streaming piece = .ok ⟨reactor, conversation.sent ++ [text]⟩ ∧
      Listening reactor sock name rest ∧ reactor.asked = conversation.reactor.asked ++ [name] := by
  obtain ⟨reactor, request, asked, passed⟩ := listening.receive_request icap streaming.upload nonempty read
  obtain ⟨after, ok, listening', same⟩ := asked.enact_nothing icap streaming conversation.sent.length idle
  refine ⟨after, ?_, listening', same.trans passed⟩
  rw [next_asked request, ok]
  rfl

theorem next_overrun (listening : Listening conversation.reactor sock name pending) (streaming : Streaming sock)
    (nonempty : piece ≠ [])
    (read : (waiting (pending ++ piece) 0).readHttp settings.httpMaxBuffer = (.request text, answered rest))
    (busy : ((waiting rest 0).readHttp settings.httpMaxBuffer).1 = .closed ∨
      ∃ other, ((waiting rest 0).readHttp settings.httpMaxBuffer).1 = .request other) :
    ∃ reactor, conversation.next (readers settings icap) streaming piece = .ok ⟨reactor, conversation.sent ++ [text]⟩ ∧
      ¬ reactor.Holds sock := by
  obtain ⟨reactor, request, asked, passed⟩ := listening.receive_request icap streaming.upload nonempty read
  obtain ⟨after, ok, gone⟩ := asked.enact_closed icap streaming conversation.sent.length busy
  refine ⟨after, ?_, gone⟩
  rw [next_asked request, ok]
  rfl

end Next

end Conversation

end ExaProxy
