import ExaProxy.Client.Writing
import ExaProxy.Content.Owners
import ExaProxy.Data.Outlet
import ExaProxy.Reactor.Relay

namespace ExaProxy.Client.Writer

open ExaProxy.Data
open ExaProxy.Content (Send Reply)

variable {writer after : Writer} {data : Option Str} {send : Send} {source : Source} {reply : Reply}
  {file : Option Str} {state : Bool × Bool}

/-- The bytes that the socket takes in `startData`, for every class of clients; `file`
is what the local file holds, if it can be read. -/
def answerTaken (writer : Writer) (source : Source) (reply : Reply) (send : Send)
    (file : Option Str) : Str :=
  match reply, source with
  | .file header _, .icap => turnTaken false (header ++ (writer.wBuffer ++ file.getD [])) none send
  | .file _ _, .tls => []
  | .file _ _, .passthrough => []
  | reply, _ => writer.startTaken reply send (file.getD [])

/-- Where a writer is told to close, too, no byte is lost. -/
theorem close_conserves (wBuffer : Str) (data : Option Str) (send : Send) :
    turnTaken false wBuffer data send ++ (turn false wBuffer data send).2.resumeTaken none send ++
      ((turn false wBuffer data send).2.resume none send).2.wBuffer = wBuffer ++ data.getD [] := by
  have second : (turn false wBuffer data send).2.resumeTaken none send ++
      ((turn false wBuffer data send).2.resume none send).2.wBuffer =
      (turn false wBuffer data send).2.wBuffer ++ [] := resume_conserves rfl (.inl rfl)
  rw [List.append_assoc, second, List.append_nil, turn_conserves]

/-- The order of the bytes is kept, unless a client of the ICAP server is sent a file
while something is left to be sent before. -/
def InOrder (writer : Writer) (source : Source) (reply : Reply) : Prop :=
  source = .icap → ∀ header filename, reply = .file header filename → writer.wBuffer = []

/-- No byte of an answer is lost. -/
theorem answer_conserves (ordered : writer.InOrder source reply)
    (started : writer.startData source reply send file = .ok (some state, after)) :
    writer.answerTaken source reply send file ++ after.wBuffer =
      writer.wBuffer ++ passedBy reply (file.getD []) := by
  cases reply with
  | stream data =>
      have conserved := turn_conserves false writer.wBuffer (some data) send
      rwa [Except.ok.inj started] at conserved
  | close data =>
      have conserved := close_conserves writer.wBuffer data send
      have told : ∃ reported, writer.startData source (.close data) send file =
          .ok (reported, ((turn false writer.wBuffer data send).2.resume none send).2) := by
        cases source <;> exact ⟨_, rfl⟩
      obtain ⟨reported, told⟩ := told
      have last := (Prod.mk.inj (Except.ok.inj (told.symm.trans started))).2
      rw [last] at conserved
      exact conserved
  | file header filename =>
      have same (buffer : Str) : turnTaken false buffer none send ++ (turn false buffer none send).2.wBuffer =
          buffer := (turn_conserves ..).trans (List.append_nil buffer)
      cases file with
      | none => cases source <;> cases started
      | some file =>
          cases source with
          | tls | passthrough => cases started
          | proxy | web =>
              cases started
              have whole := same (writer.wBuffer ++ header ++ file)
              simpa [answerTaken, startTaken, passedBy] using whole
          | icap =>
              cases started
              have empty := ordered rfl header filename rfl
              have whole := same (header ++ (writer.wBuffer ++ file))
              simpa [answerTaken, passedBy, empty] using whole

/-- What the socket takes are the first bytes of those there are. -/
theorem resumeTaken_prefix (writer : Writer) (data : Option Str) (send : Send) :
    writer.resumeTaken data send <+: writer.wBuffer ++ data.getD [] := by
  unfold resumeTaken
  split
  · next finished stage => exact ⟨_, turn_conserves finished writer.wBuffer data send⟩
  · exact List.nil_prefix

theorem turnTaken_prefix (finished : Bool) (wBuffer : Str) (data : Option Str) (send : Send) :
    turnTaken finished wBuffer data send <+: wBuffer ++ data.getD [] :=
  ⟨_, turn_conserves finished wBuffer data send⟩

theorem answerTaken_prefix (ordered : writer.InOrder source reply) :
    writer.answerTaken source reply send file <+: writer.wBuffer ++ passedBy reply (file.getD []) := by
  cases reply with
  | stream data => exact turnTaken_prefix false writer.wBuffer (some data) send
  | close data => exact ⟨_, close_conserves writer.wBuffer data send⟩
  | file header filename =>
      cases source with
      | tls | passthrough => exact List.nil_prefix
      | proxy | web =>
          have first := turnTaken_prefix false (writer.wBuffer ++ header ++ file.getD []) none send
          simpa [answerTaken, startTaken, passedBy] using first
      | icap =>
          have empty := ordered rfl header filename rfl
          have first := turnTaken_prefix false (header ++ (writer.wBuffer ++ file.getD [])) none send
          simpa [answerTaken, passedBy, empty] using first

end ExaProxy.Client.Writer

namespace ExaProxy.Client.ClientManager

open ExaProxy.Data ExaProxy.Network
open ExaProxy.Content (Send Reply Remaining)

variable {ρ : Type} {readers : Readers ρ} {manager before after : ClientManager ρ} {sock other : Sock}
  {client : Connected ρ} {data : Option Str} {send : Send} {sent : Sent}

/-- The writer of a client that is held. -/
def writerOf (manager : ClientManager ρ) (sock : Sock) : Option Writer :=
  ((manager.bysock.lookup sock).or (manager.norequest.lookup sock)).map Connected.writer

theorem writerOf_found (found : manager.bysock.lookup sock = some client) :
    manager.writerOf sock = some client.writer := by
  rw [writerOf, found]
  rfl

theorem writerOf_waiting (missing : manager.bysock.lookup sock = none)
    (found : manager.norequest.lookup sock = some client) : manager.writerOf sock = some client.writer := by
  rw [writerOf, missing, found]
  rfl

theorem writerOf_none (missing : manager.bysock.lookup sock = none)
    (gone : manager.norequest.lookup sock = none) : manager.writerOf sock = none := by
  rw [writerOf, missing, gone]
  rfl

/-- The same clients, and no new one. -/
structure Still (before after : ClientManager ρ) : Prop extends Same before after where
  sockets : after.sockets = before.sockets

/-- A call for one client. -/
structure Confined (sock : Sock) (before after : ClientManager ρ) : Prop extends Apart sock before after where
  sockets : after.sockets = before.sockets

theorem Still.confined (still : Still before after) : Confined sock before after :=
  ⟨still.apart, still.sockets⟩

theorem Confined.trans {middle : ClientManager ρ} (first : Confined sock before middle)
    (second : Confined sock middle after) : Confined sock before after :=
  ⟨first.toApart.trans second.toApart, second.sockets.trans first.sockets⟩

theorem put_confined : Confined sock manager (manager.put sock client) := ⟨put_apart, rfl⟩

theorem cleanup_confined {name : Nat} : Confined sock manager (manager.cleanup sock name) :=
  ⟨cleanup_apart, rfl⟩

theorem noteBuffer_still (manager : ClientManager ρ) (sock : Sock) (buffered hadBuffer : Bool) :
    Still manager (manager.noteBuffer sock buffered hadBuffer).1 :=
  ⟨noteBuffer_same .., (noteBuffer_alike sock buffered hadBuffer).sockets⟩

theorem startBuffer_still {buffered hadBuffer : Bool} {started : ClientManager ρ}
    (ok : manager.startBuffer sock buffered hadBuffer = .ok started) : Still manager started :=
  ⟨startBuffer_same ok, (startBuffer_alike ok).sockets⟩

theorem Apart.writerOf (apart : Apart sock before after) (different : other ≠ sock) :
    after.writerOf other = before.writerOf other := by
  rw [ClientManager.writerOf, apart.bysock other different, apart.norequest other different]
  rfl

theorem Same.writerOf (same : Same before after) : after.writerOf = before.writerOf := by
  funext sock
  rw [ClientManager.writerOf, same.bysock, same.norequest]
  rfl

theorem put_writerOf : (manager.put sock client).writerOf sock = some client.writer :=
  writerOf_found (AList.lookup_insert _)

theorem cleanup_writerOf {name : Nat} : (manager.cleanup sock name).writerOf sock = none :=
  writerOf_none (AList.lookup_erase ..) (AList.lookup_erase ..)

/-- A call that gives one client data, of which its socket takes some bytes. -/
inductive Moves (before after : ClientManager ρ) (sock : Sock) (data part : Str) : Prop
  | kept (writer changed : Writer) (was : before.writerOf sock = some writer)
      (now : after.writerOf sock = some changed)
      (conserved : part ++ changed.wBuffer = writer.wBuffer ++ data) : Moves before after sock data part
  | closed (writer : Writer) (was : before.writerOf sock = some writer)
      (now : after.writerOf sock = none) (first : part <+: writer.wBuffer ++ data) :
      Moves before after sock data part
  | idle (same : after.writerOf sock = before.writerOf sock) (nothing : data = []) (none : part = []) :
      Moves before after sock data part

theorem Moves.of_same {middle : ClientManager ρ} {data part : Str} (moves : Moves middle after sock data part)
    (same : Still before middle) : Moves before after sock data part := by
  cases moves with
  | kept writer changed was now conserved =>
      exact .kept writer changed (same.writerOf ▸ was) now conserved
  | closed writer was now first => exact .closed writer (same.writerOf ▸ was) now first
  | idle unchanged nothing none => exact .idle (same.writerOf ▸ unchanged) nothing none

theorem Moves.to_same {middle : ClientManager ρ} {data part : Str} (moves : Moves before middle sock data part)
    (same : Still middle after) : Moves before after sock data part := by
  cases moves with
  | kept writer changed was now conserved =>
      exact .kept writer changed was (by rw [same.writerOf, now]) conserved
  | closed writer was now first => exact .closed writer was (by rw [same.writerOf, now]) first
  | idle unchanged nothing none => exact .idle (by rw [same.writerOf, unchanged]) nothing none

/-- The bytes that the socket takes in `sendData`. -/
def sendTaken (manager : ClientManager ρ) (sock : Sock) (data : Option Str) (send : Send) : Str :=
  match manager.bysock.lookup sock with
  | some client => client.writer.resumeTaken data send
  | none => []

theorem Same.sendTaken (same : Same before after) :
    after.sendTaken sock data send = before.sendTaken sock data send := by
  simp only [ClientManager.sendTaken, same.bysock]

theorem sendData_moves (ok : manager.sendData sock data send = .ok (after, sent))
    (held : data.getD [] ≠ [] → manager.bysock.lookup sock ≠ none) :
    Confined sock manager after ∧
      Moves manager after sock (data.getD []) (manager.sendTaken sock data send) := by
  have sending := sendData_sending ok
  unfold sendTaken
  cases sending with
  | absent missing =>
      rw [missing]
      refine ⟨⟨.refl, rfl⟩, .idle rfl ?_ rfl⟩
      by_contra some
      exact held some missing
  | closed client found ended =>
      rw [found]
      exact ⟨cleanup_confined, .closed client.writer (writerOf_found found) cleanup_writerOf
        (Writer.resumeTaken_prefix client.writer data send)⟩
  | kept client found writer buffered hadBuffer resumed =>
      rw [found]
      have noted := noteBuffer_still (manager.put sock { client with writer }) sock buffered hadBuffer
      have put : (manager.put sock { client with writer }).writerOf sock = some writer := put_writerOf
      refine ⟨put_confined.trans noted.confined, .kept client.writer writer (writerOf_found found) ?_ ?_⟩
      · rw [noted.writerOf, put]
      · exact Writer.resume_conserves resumed (.inr (.inl (by simp)))

/-- The bytes that the socket takes in `startData`. -/
def startTaken (manager : ClientManager ρ) (sock : Sock) (reply : Option Reply) (send : Send)
    (file : Option Str) : Str :=
  match manager.bysock.lookup sock, reply with
  | some client, some reply => client.writer.answerTaken client.source reply send file
  | _, _ => []

/-- The data that `startData` gives a client. -/
def startGiven (manager : ClientManager ρ) (sock : Sock) (reply : Option Reply)
    (file : Option Str) : Str :=
  match manager.bysock.lookup sock, reply with
  | some _, some reply => Writer.passedBy reply (file.getD [])
  | _, _ => []

theorem Same.startGiven (same : Same before after) {reply : Option Reply} {file : Option Str} :
    after.startGiven sock reply file = before.startGiven sock reply file := by
  simp only [ClientManager.startGiven, same.bysock]

theorem Same.startTaken (same : Same before after) {reply : Option Reply} {file : Option Str} :
    after.startTaken sock reply send file = before.startTaken sock reply send file := by
  simp only [ClientManager.startTaken, same.bysock]

/-- An answer to this client keeps the order of what it is sent. -/
def InOrder (manager : ClientManager ρ) (sock : Sock) (reply : Option Reply) : Prop :=
  ∀ client content, manager.bysock.lookup sock = some client → reply = some content →
    client.writer.InOrder client.source content

theorem startData_moves {reply : Option Reply} {remaining : Remaining} {file : Option Str}
    {recv : List Recv} {result : Option Str × Option Source} (ordered : manager.InOrder sock reply)
    (ok : manager.startData readers sock reply remaining send file recv = .ok (after, result)) :
    Confined sock manager after ∧
      Moves manager after sock (manager.startGiven sock reply file)
        (manager.startTaken sock reply send file) := by
  have starting := startData_starting ok
  unfold startGiven startTaken
  cases starting with
  | absent missing =>
      rw [missing]
      exact ⟨⟨.refl, rfl⟩, .idle rfl rfl rfl⟩
  | unanswered client found invalid =>
      subst invalid
      rw [found]
      exact ⟨⟨.refl, rfl⟩, .idle rfl rfl rfl⟩
  | closed client found =>
      refine ⟨cleanup_confined, ?_⟩
      rw [found]
      cases reply with
      | none => exact .closed client.writer (writerOf_found found) cleanup_writerOf List.nil_prefix
      | some content =>
          exact .closed client.writer (writerOf_found found) cleanup_writerOf
            (Writer.answerTaken_prefix (ordered client content found rfl))
  | kept client found content valid writer buffered hadBuffer answered yielded reader data read
      yields started noted =>
      subst valid
      rw [found]
      have same := startBuffer_still noted
      have put : (manager.put sock { client with writer, reader }).writerOf sock = some writer :=
        put_writerOf
      have moved : after.writerOf sock = some writer := by
        rw [same.writerOf]
        exact put
      have apart : Apart sock manager (manager.put sock { client with writer, reader }) := put_apart
      constructor
      · exact ⟨⟨fun other different => by rw [same.bysock]; exact apart.bysock other different,
          fun other different => by rw [same.norequest]; exact apart.norequest other different⟩, same.sockets⟩
      · exact .kept client.writer writer (writerOf_found found) moved
          (Writer.answer_conserves (ordered client content found rfl) answered)

end ExaProxy.Client.ClientManager

namespace ExaProxy

open ExaProxy.Data ExaProxy.Network
open ExaProxy.Client (Source Recv Readers ClientManager Writer)
open ExaProxy.Client.ClientManager (Confined Still Opening Reading Moves)
open ExaProxy.Content (Send Site Decision ContentManager)
open ExaProxy.Content.ContentManager (Altered Changes Fetching)

/-- What a client is given data by: a decision, or a connection that is opened or read. -/
inductive Origin where
  | decision
  | connection (fetcher : Sock)
  | page (fetcher : Sock)
deriving DecidableEq

/-- The connection that data comes from. -/
def Origin.fetcher : Origin → Option Sock
  | .decision => none
  | .connection fetcher | .page fetcher => some fetcher

/-- Data for a client. -/
structure Block where
  client : Sock
  origin : Origin
  data : Str
deriving DecidableEq

def Block.entry (block : Block) : Sock × Str := (block.client, block.data)

namespace Reactor

variable {ρ : Type} {readers : Readers ρ} {reactor before after : Reactor ρ} {client fetcher : Sock}
  {send : Send} {turn : Turn}

/-- The data that a turn has for a client. -/
def gives (reactor : Reactor ρ) : Turn → Option Block
  | .completeWebConnection fetcher site send _ =>
      match reactor.content.startDownload site send fetcher with
      | (_, some client, some response, _) => some ⟨client, .connection fetcher, response⟩
      | _ => none
  | .incomingWebData fetcher recv _ =>
      match reactor.content.readData fetcher recv with
      | (_, some client, some pageData) => some ⟨client, .page fetcher, pageData⟩
      | _ => none
  | .enactDecision client decision outside =>
      match reactor.content.getContent outside.site outside.request client decision with
      | .ok (_, answer) =>
          some ⟨client, .decision, reactor.client.startGiven client answer.content outside.file⟩
      | .error _ => none
  | _ => none

/-- The bytes that a client's socket takes in a turn. -/
def takes (reactor : Reactor ρ) : Turn → Option (Sock × Str)
  | .flushClientOutput client send =>
      some (client, reactor.client.sendTaken client (some []) send)
  | .completeWebConnection fetcher site send clientSend =>
      match reactor.content.startDownload site send fetcher with
      | (_, some client, some response, _) =>
          if response = [] then none
          else some (client, reactor.client.sendTaken client (some response) clientSend)
      | _ => none
  | .incomingWebData fetcher recv send =>
      match reactor.content.readData fetcher recv with
      | (_, some client, pageData) => some (client, reactor.client.sendTaken client pageData send)
      | _ => none
  | .enactDecision client decision outside =>
      match reactor.content.getContent outside.site outside.request client decision with
      | .ok (_, answer) =>
          some (client, reactor.client.startTaken client answer.content outside.answer outside.file)
      | .error _ => none
  | _ => none

/-- The connection that a turn opens, with the client whose decision asks for it. -/
def opens (reactor : Reactor ρ) : Turn → Option (Sock × Sock)
  | .enactDecision client decision outside =>
      match reactor.content.getContent outside.site outside.request client decision with
      | .ok (content, _) =>
          if reactor.content.sockets < content.sockets then some (reactor.content.sockets, client) else none
      | .error _ => none
  | _ => none

/-- The clients of the ICAP server are not sent files. -/
def Unfiled (reactor : Reactor ρ) : Turn → Prop
  | .enactDecision client decision _ =>
      decision.isFile = true → (reactor.client.sourceOf client).all (· ≠ .icap) = true
  | _ => True

instance (reactor : Reactor ρ) : DecidablePred reactor.Unfiled
  | .enactDecision client decision _ =>
      inferInstanceAs (Decidable (decision.isFile = true →
        (reactor.client.sourceOf client).all (· ≠ .icap) = true))
  | .acceptConnection .. | .incomingRequest .. | .incomingClientData .. | .flushClientOutput ..
  | .completeWebConnection .. | .incomingWebData .. | .flushWebOutput .. | .expire .. => .isTrue trivial

/-- The decisions that `decide` can come to for a client. -/
def Answerable (reactor : Reactor ρ) (turn : Turn) : Prop := reactor.Proper turn ∧ reactor.Unfiled turn

instance (reactor : Reactor ρ) : DecidablePred reactor.Answerable :=
  fun turn => inferInstanceAs (Decidable (reactor.Proper turn ∧ reactor.Unfiled turn))

@[simp] theorem endDownload_clients : (reactor.endDownload client).client = reactor.client := rfl

@[simp] theorem closeClient_clients {source : Option Source} :
    (reactor.closeClient source).client = reactor.client := by
  cases source <;> rfl

@[simp] theorem closeServed_clients {source : Option Source} :
    (reactor.closeServed source).client = reactor.client := by
  unfold closeServed
  split <;> rfl

theorem noteUpload_clients (reactor : Reactor ρ) (client : Sock) (status bufferChange : Option Bool) :
    Still reactor.client (reactor.noteUpload client status bufferChange).client := by
  unfold noteUpload ClientManager.corkUpload ClientManager.uncorkUpload
  split
  · split
    · dsimp only
      split <;> exact ⟨⟨rfl, rfl⟩, rfl⟩
    · dsimp only
      split <;> exact ⟨⟨rfl, rfl⟩, rfl⟩
  · exact ⟨⟨rfl, rfl⟩, rfl⟩

theorem relay_clients (reactor : Reactor ρ) (client : Sock) (data : Str) (send : Send) :
    Still reactor.client (reactor.relay client data send).client :=
  noteUpload_clients { reactor with content := (reactor.content.sendClientData send client data).1 } ..

/-- A turn that is about one client, whose socket takes a part of what it is given. -/
structure Serves (before after : Reactor ρ) (turn : Turn) (client : Sock) (data part : Str) : Prop where
  confined : Confined client before.client after.client
  moves : Moves before.client after.client client data part
  given : Logged ((before.gives turn).map Block.entry) client data
  taken : Logged (before.takes turn) client part

/-- A turn in which the client's socket takes nothing, and nothing is given. -/
theorem Serves.quiet (confined : Confined client before.client after.client)
    (moves : Moves before.client after.client client [] []) (given : before.gives turn = none)
    (taken : before.takes turn = none) : Serves before after turn client [] [] where
  confined := confined
  moves := moves
  given := .inr ⟨by rw [given]; rfl, rfl⟩
  taken := .inr ⟨taken, rfl⟩

theorem Serves.still (same : Still before.client after.client) (given : before.gives turn = none)
    (taken : before.takes turn = none) : Serves before after turn client [] [] :=
  .quiet same.confined (.idle (by rw [same.writerOf]) rfl rfl) given taken

theorem cleanup_moves {manager : ClientManager ρ} {name : Nat} :
    Moves manager (manager.cleanup client name) client [] [] := by
  cases held : manager.writerOf client with
  | none => exact .idle (by rw [ClientManager.cleanup_writerOf, held]) rfl rfl
  | some writer => exact .closed writer held ClientManager.cleanup_writerOf List.nil_prefix

theorem incomingRequest_serves (accounts : reactor.Accounts) {recv : List Recv}
    (ok : reactor.incomingRequest readers client recv = .ok after) :
    Serves reactor after (.incomingRequest client recv) client [] [] := by
  have opening : Opening readers reactor.client client recv _ := ClientManager.readRequest_opening recv
  -- a client that waits is served by no other writer
  have alone (held : Client.Connected ρ) (found : reactor.client.norequest.lookup client = some held) :
      reactor.client.bysock.lookup client = none := by
    have apart := accounts.distinct.apart client (by rw [ClientManager.waiting_found found]; simp)
    exact Option.map_eq_none_iff.mp apart
  unfold Reactor.incomingRequest at ok
  generalize reactor.client.readRequest readers client recv = result at opening ok
  cases opening with
  | absent missing =>
      cases ok
      exact .still ⟨⟨rfl, rfl⟩, rfl⟩ rfl rfl
  | raised => cases ok
  | asked held found text reader read =>
      cases ok
      apply Serves.quiet _ _ rfl rfl
      · exact ⟨⟨fun _ different => AList.lookup_insert_ne different,
          fun _ different => AList.lookup_erase_ne different⟩, rfl⟩
      · apply Moves.idle _ rfl rfl
        have serves : (reactor.client.bysock.insert client { held with reader }).lookup client =
            some { held with reader } := AList.lookup_insert _
        rw [ClientManager.writerOf_waiting (alone held found) found]
        simp only [ClientManager.writerOf, sendRequest, serves, Option.some_or, Option.map_some]
  | closed held found =>
      cases ok
      exact .quiet ClientManager.cleanup_confined cleanup_moves rfl rfl
  | kept held found yielded reader read quiet =>
      have moved : Serves reactor { reactor with client := { reactor.client with
          norequest := reactor.client.norequest.insert client { held with reader } } }
          (.incomingRequest client recv) client [] [] := by
        apply Serves.quiet _ _ rfl rfl
        · exact ⟨⟨fun _ _ => rfl, fun _ different => AList.lookup_insert_ne different⟩, rfl⟩
        · apply Moves.idle _ rfl rfl
          have waits : (reactor.client.norequest.insert client { held with reader }).lookup client =
              some { held with reader } := AList.lookup_insert _
          rw [ClientManager.writerOf_waiting (alone held found) found]
          simp only [ClientManager.writerOf, waits, alone held found, Option.none_or, Option.map_some]
      obtain rfl | ⟨data, rfl⟩ := quiet
      · cases ok
        exact moved
      · cases ok
        exact moved

theorem Serves.put {held : Client.Connected ρ} {reader : ρ}
    (found : before.client.bysock.lookup client = some held)
    (same : Still (before.client.put client { held with reader }) after.client)
    (given : before.gives turn = none) (taken : before.takes turn = none) :
    Serves before after turn client [] [] := by
  apply Serves.quiet _ _ given taken
  · exact ClientManager.put_confined.trans same.confined
  · apply Moves.idle _ rfl rfl
    rw [same.writerOf, ClientManager.writerOf_found found]
    exact ClientManager.put_writerOf

theorem incomingClientData_serves {recv : List Recv}
    (ok : reactor.incomingClientData readers client recv send = .ok after) :
    Serves reactor after (.incomingClientData client recv send) client [] [] := by
  have reading : Reading readers reactor.client client recv _ := ClientManager.readData_reading recv
  unfold Reactor.incomingClientData at ok
  generalize reactor.client.readData readers client recv = result at reading ok
  cases reading with
  | absent missing =>
      cases ok
      exact .still ⟨⟨rfl, rfl⟩, rfl⟩ rfl rfl
  | raised => cases ok
  | asked held found text reader read =>
      cases ok
      exact .put found ⟨⟨rfl, rfl⟩, rfl⟩ rfl rfl
  | closed held found =>
      cases ok
      exact .quiet ClientManager.cleanup_confined cleanup_moves rfl rfl
  | kept held found yielded reader read quiet =>
      obtain rfl | ⟨data, rfl⟩ := quiet
      · cases ok
        exact .put found ⟨⟨rfl, rfl⟩, rfl⟩ rfl rfl
      · cases ok
        by_cases empty : data = []
        · simp only [if_pos empty]
          exact .put found ⟨⟨rfl, rfl⟩, rfl⟩ rfl rfl
        · simp only [if_neg empty]
          exact .put found (relay_clients { reactor with
            client := reactor.client.put client { held with reader } } client data send) rfl rfl

theorem expire_serves : Serves reactor (reactor.expire client) (.expire client) client [] [] := by
  unfold Reactor.expire ClientManager.expireOne
  cases found : reactor.client.norequest.lookup client with
  | none => exact .still ⟨⟨rfl, rfl⟩, rfl⟩ rfl rfl
  | some held => exact .quiet ClientManager.cleanup_confined cleanup_moves rfl rfl

theorem flushWebOutput_serves : Serves reactor (reactor.flushWebOutput fetcher send)
    (.flushWebOutput fetcher send) client [] [] := by
  apply Serves.still _ rfl rfl
  unfold Reactor.flushWebOutput
  generalize reactor.content.sendSocketData send fetcher [] = result
  obtain ⟨content, status, bufferChange, owner⟩ := result
  cases owner with
  | none => exact ⟨⟨rfl, rfl⟩, rfl⟩
  | some owner => exact noteUpload_clients { reactor with content } owner status bufferChange

/-- The clients after a client's data was sent. -/
theorem flushClientOutput_client (ok : reactor.flushClientOutput client send = .ok after) :
    ∃ sent, reactor.client.sendData client (some []) send = .ok (after.client, sent) := by
  obtain ⟨⟨manager, sent⟩, sends, rfl⟩ := map_ok ok
  refine ⟨sent, ?_⟩
  dsimp only
  rw [sends]
  split
  · split
    · split <;> simp
    · split <;> simp
  · split <;> simp

theorem flushClientOutput_serves (ok : reactor.flushClientOutput client send = .ok after) :
    Serves reactor after (.flushClientOutput client send) client []
      (reactor.client.sendTaken client (some []) send) := by
  obtain ⟨sent, sends⟩ := flushClientOutput_client ok
  obtain ⟨apart, moves⟩ := ClientManager.sendData_moves sends (fun some => absurd rfl some)
  exact ⟨apart, moves, .inr ⟨rfl, rfl⟩, .inl rfl⟩

theorem answerClient_client {response : Str} (ok : reactor.answerClient client response send = .ok after) :
    ∃ sent, reactor.client.sendData client (some response) send = .ok (after.client, sent) := by
  obtain ⟨⟨manager, sent⟩, sends, rfl⟩ := map_ok ok
  refine ⟨sent, ?_⟩
  dsimp only
  rw [sends]
  split
  · simp
  · split
    · split <;> rfl
    · rfl

/-- A client with a connection is there to be sent what comes from it. -/
theorem Accounts.attended (accounts : reactor.Accounts)
    (byclient : reactor.content.byclient.lookup client = some fetcher) :
    reactor.client.bysock.lookup client ≠ none := by
  obtain ⟨identity, served, _⟩ := accounts.serves client fetcher byclient
  intro missing
  simp [ClientManager.served, missing] at served

theorem completeWebConnection_serves (accounts : reactor.Accounts) {site : Site} {clientSend : Send}
    (ok : reactor.completeWebConnection fetcher site send clientSend = .ok after) :
    ∃ client data part, Serves reactor after (.completeWebConnection fetcher site send clientSend) client
      data part := by
  have owns {client : Sock} (told : (reactor.content.startDownload site send fetcher).2.1 = some client) :=
    accounts.attended (ContentManager.startDownload_client accounts.registered told).2
  unfold Reactor.completeWebConnection at ok
  generalize started : reactor.content.startDownload site send fetcher = result at ok owns
  obtain ⟨content, owner, response, bufferChange⟩ := result
  cases owner with
  | none =>
      cases ok
      refine ⟨0, [], [], .still ⟨⟨rfl, rfl⟩, rfl⟩ ?_ ?_⟩
      · simp only [gives, started]
      · simp only [takes, started]
  | some client =>
      have attended := owns rfl
      have noted := noteUpload_clients { reactor with content } client none bufferChange
      have same : (if bufferChange = some true then
          { reactor with content, client := reactor.client.uncorkUpload client }
          else { reactor with content } : Reactor ρ) =
            { reactor with content }.noteUpload client none bufferChange := rfl
      simp only [same] at ok
      generalize { reactor with content }.noteUpload client none bufferChange = middle at ok noted
      have gone (response : Option Str) (nothing : response.getD [] = [])
          (starts : reactor.content.startDownload site send fetcher =
            (content, some client, response, bufferChange)) :
          Serves reactor middle (.completeWebConnection fetcher site send clientSend) client [] [] := by
        cases response with
        | none =>
            refine .still noted ?_ ?_
            · simp only [gives, starts]
            · simp only [takes, starts]
        | some response =>
            simp only [Option.getD_some] at nothing
            subst nothing
            refine ⟨noted.confined, .idle (by rw [noted.writerOf]) rfl rfl, .inl ?_, .inr ⟨?_, rfl⟩⟩
            · simp only [gives, starts, Block.entry, Option.map_some]
            · simp only [takes, starts, if_true]
      split at ok
      · cases ok
        exact ⟨client, [], [], gone _ rfl started⟩
      · cases ok
        exact ⟨client, [], [], gone _ rfl started⟩
      · next response nonempty =>
          have told : response ≠ [] := fun empty => nonempty (by rw [empty])
          have held : middle.client.bysock.lookup client ≠ none := by
            rw [noted.bysock]
            exact attended
          split at ok
          · obtain ⟨sent, sends⟩ := answerClient_client ok
            obtain ⟨apart, moves⟩ := ClientManager.sendData_moves sends fun _ => held
            refine ⟨client, response, middle.client.sendTaken client (some response) clientSend,
              noted.confined.trans apart, moves.of_same noted, .inl ?_, .inl ?_⟩
            · simp only [gives, started, Block.entry, Option.map_some]
            · simp only [takes, started, if_neg told, noted.sendTaken]
          · next missing => exact absurd (AList.lookup_eq_none.mpr missing) held

/-- The clients after a connection was read. -/
theorem incomingWebData_client {recv : Recv} (ok : reactor.incomingWebData fetcher recv send = .ok after) :
    let read := reactor.content.readData fetcher recv
    read.2.1 = none ∧ after.client = reactor.client ∨ ∃ client sent, read.2.1 = some client ∧
      reactor.client.sendData client read.2.2 send = .ok (after.client, sent) := by
  unfold Reactor.incomingWebData at ok
  generalize reactor.content.readData fetcher recv = read at ok ⊢
  obtain ⟨content, owner, pageData⟩ := read
  cases owner with
  | none =>
      cases ok
      exact .inl ⟨rfl, rfl⟩
  | some client =>
      obtain ⟨⟨manager, sent⟩, sends, rfl⟩ := map_ok ok
      refine .inr ⟨client, sent, rfl, ?_⟩
      dsimp only
      rw [sends]
      split
      · split <;> simp
      · split <;> rfl

theorem incomingWebData_serves (accounts : reactor.Accounts) {recv : Recv}
    (ok : reactor.incomingWebData fetcher recv send = .ok after) :
    ∃ client data part, Serves reactor after (.incomingWebData fetcher recv send) client data part := by
  have fetching := ContentManager.readData_fetching accounts.registered fetcher recv
  have reads := incomingWebData_client ok
  generalize read : reactor.content.readData fetcher recv = result at fetching reads
  obtain ⟨content, owner, pageData⟩ := result
  obtain ⟨unowned, same⟩ | ⟨client, sent, owned, sends⟩ := reads
  · subst unowned
    refine ⟨0, [], [], .still ⟨⟨by rw [same], by rw [same]⟩, by rw [same]⟩ ?_ ?_⟩
    · simp only [gives, read]
    · simp only [takes, read]
  · subst owned
    have attended : reactor.client.bysock.lookup client ≠ none := by
      cases fetching with
      | read _ byclient held data received => exact accounts.attended byclient
      | ended _ byclient held => exact accounts.attended byclient
    obtain ⟨apart, moves⟩ := ClientManager.sendData_moves sends fun _ => attended
    refine ⟨client, pageData.getD [], reactor.client.sendTaken client pageData send, apart, moves, ?_, .inl ?_⟩
    · cases pageData with
      | none => exact .inr ⟨by simp only [gives, read, Option.map_none], rfl⟩
      | some pageData =>
          exact .inl (by simp only [gives, read, Option.map_some, Block.entry, Option.getD_some])
    · simp only [takes, read]

/-- The clients after a decision was enacted. -/
theorem enactDecision_client {decision : Decision} {outside : Outside}
    (ok : reactor.enactDecision readers client decision outside = .ok after) :
    ∃ content answer manager result,
      reactor.content.getContent outside.site outside.request client decision = .ok (content, answer) ∧
      (({ reactor with content } : Reactor ρ).noteUpload client answer.buffered
        answer.bufferChange).client.startData readers client answer.content answer.length outside.answer
          outside.file outside.recv = .ok (manager, result) ∧ Still manager after.client := by
  obtain ⟨⟨content, answer⟩, enacts, ok⟩ := bind_ok ok
  obtain ⟨⟨manager, data, source⟩, starts, ok⟩ := bind_ok ok
  refine ⟨content, answer, manager, (data, source), enacts, starts, ?_⟩
  cases data with
  | none =>
      cases ok
      rw [closeClient_clients]
      exact ⟨⟨rfl, rfl⟩, rfl⟩
  | some data =>
      cases data with
      | nil =>
          cases ok
          exact ⟨⟨rfl, rfl⟩, rfl⟩
      | cons byte rest =>
          cases ok
          exact relay_clients { ({ reactor with content } : Reactor ρ).noteUpload client answer.buffered
            answer.bufferChange with client := manager } client (byte :: rest) outside.upload

/-- What a client is given by a decision. -/
theorem enactDecision_serves {decision : Decision} {outside : Outside}
    (answerable : reactor.Answerable (.enactDecision client decision outside))
    (ok : reactor.enactDecision readers client decision outside = .ok after) :
    ∃ data part, Serves reactor after (.enactDecision client decision outside) client data part := by
  obtain ⟨content, answer, manager, result, enacts, starts, clients⟩ := enactDecision_client ok
  have noted := noteUpload_clients { reactor with content } client answer.buffered answer.bufferChange
  have ordered : (({ reactor with content } : Reactor ρ).noteUpload client answer.buffered
      answer.bufferChange).client.InOrder client answer.content := by
    intro held reply found replies icap header filename file
    rw [noted.bysock] at found
    have known := ClientManager.sourceOf_served (ClientManager.served_found found)
    obtain ⟨⟨_, opens⟩, unfiled⟩ := answerable
    obtain opened | filed := ContentManager.getContent_file enacts (by rw [replies, file])
    · have downloads := opens opened
      rw [known] at downloads
      simp [icap, Source.downloads] at downloads
    · have other := unfiled filed
      rw [known] at other
      simp [icap] at other
  obtain ⟨apart, moves⟩ := ClientManager.startData_moves ordered starts
  refine ⟨_, _, (noted.confined.trans apart).trans clients.confined, (moves.of_same noted).to_same clients,
    .inl ?_, .inl ?_⟩
  · simp only [gives, enacts, Option.map_some, Block.entry, noted.startGiven]
  · simp only [takes, enacts, noted.startTaken]

/-- No turn gives a client anything that its socket does not get, as long as it is there. -/
theorem take_serves (accounts : before.Accounts) (answerable : before.Answerable turn)
    (ok : before.take readers turn = .ok after) :
    (∃ source, turn = .acceptConnection source) ∨
      ∃ client data part, Serves before after turn client data part := by
  cases turn with
  | acceptConnection source => exact .inl ⟨source, rfl⟩
  | incomingRequest client recv => exact .inr ⟨client, [], [], incomingRequest_serves accounts ok⟩
  | incomingClientData client recv send => exact .inr ⟨client, [], [], incomingClientData_serves ok⟩
  | flushClientOutput client send => exact .inr ⟨client, [], _, flushClientOutput_serves ok⟩
  | completeWebConnection fetcher site send clientSend =>
      exact .inr (completeWebConnection_serves accounts ok)
  | incomingWebData fetcher recv send => exact .inr (incomingWebData_serves accounts ok)
  | flushWebOutput fetcher send =>
      cases ok
      exact .inr ⟨0, [], [], flushWebOutput_serves⟩
  | enactDecision client decision outside =>
      exact .inr ⟨client, enactDecision_serves answerable ok⟩
  | expire client =>
      cases ok
      exact .inr ⟨client, [], [], expire_serves⟩

/-! ### The connections of a turn -/

@[simp] theorem closeClient_content {source : Option Source} :
    (reactor.closeClient source).content = reactor.content := by
  cases source <;> rfl

@[simp] theorem closeServed_content {source : Option Source} :
    (reactor.closeServed source).content = reactor.content := by
  unfold closeServed
  split <;> rfl

theorem endDownload_content :
    (reactor.endDownload client).content = reactor.content.endClientDownload client := rfl

theorem relay_altered (reactor : Reactor ρ) (registered : reactor.content.Registered) (client : Sock)
    (data : Str) (send : Send) : Altered reactor.content (reactor.relay client data send).content := by
  unfold relay
  simp only [noteUpload_content]
  exact ContentManager.sendClientData_altered registered client data

theorem incomingRequest_altered {recv : List Recv}
    (ok : reactor.incomingRequest readers client recv = .ok after) : Altered reactor.content after.content := by
  unfold incomingRequest at ok
  generalize reactor.client.readRequest readers client recv = result at ok
  obtain ⟨manager, read⟩ := result
  cases read with
  | none =>
      cases ok
      exact .refl
  | some read =>
      obtain ⟨name, source, yielded⟩ := read
      cases yielded <;> cases ok <;> exact .refl

theorem incomingClientData_altered (registered : reactor.content.Registered) {recv : List Recv}
    (ok : reactor.incomingClientData readers client recv send = .ok after) :
    Altered reactor.content after.content := by
  unfold incomingClientData at ok
  generalize reactor.client.readData readers client recv = result at ok
  obtain ⟨manager, read⟩ := result
  cases read with
  | none =>
      cases ok
      exact .refl
  | some read =>
      obtain ⟨name, source, yielded⟩ := read
      cases yielded with
      | raised => cases ok
      | request text =>
          cases ok
          exact .refl
      | nothing =>
          cases ok
          exact .refl
      | closed =>
          cases ok
          exact ContentManager.endClientDownload_altered registered _
      | content data =>
          cases ok
          by_cases empty : data = []
          · simp only [if_pos empty]
            exact .refl
          · simp only [if_neg empty]
            exact relay_altered { reactor with client := manager } registered client data send

theorem flushClientOutput_altered (registered : reactor.content.Registered)
    (ok : reactor.flushClientOutput client send = .ok after) : Altered reactor.content after.content := by
  obtain ⟨⟨manager, sent⟩, sends, rfl⟩ := map_ok ok
  have ended : Altered reactor.content (if sent.status = none ∧ sent.name ≠ none then
      (({ reactor with client := manager } : Reactor ρ).endDownload client).closeClient sent.source
      else { reactor with client := manager } : Reactor ρ).content := by
    split
    · rw [closeClient_content]
      exact ContentManager.endClientDownload_altered registered _
    · exact .refl
  dsimp only
  split
  · split
    · exact ended.trans (ContentManager.corkClientDownload_altered client)
    · exact ended.trans (ContentManager.uncorkClientDownload_altered client)
  · exact ended

theorem answerClient_altered (registered : reactor.content.Registered) {response : Str}
    (ok : reactor.answerClient client response send = .ok after) : Altered reactor.content after.content := by
  obtain ⟨⟨manager, sent⟩, sends, rfl⟩ := map_ok ok
  dsimp only
  split
  · rw [endDownload_content, closeServed_content]
    exact ContentManager.endClientDownload_altered registered _
  · split
    · split
      · exact ContentManager.corkClientDownload_altered client
      · exact ContentManager.uncorkClientDownload_altered client
    · exact .refl

theorem completeWebConnection_altered (registered : reactor.content.Registered) {site : Site}
    {clientSend : Send} (ok : reactor.completeWebConnection fetcher site send clientSend = .ok after) :
    Altered reactor.content after.content := by
  have started : Altered reactor.content (reactor.content.startDownload site send fetcher).1 :=
    ContentManager.startDownload_altered
  obtain ⟨_, rfl⟩ | ⟨client, told, noted | ⟨response, _, _, answered⟩⟩ := completeWebConnection_ok ok
  · exact started
  · rw [noted, noteUpload_content]
    exact started
  · apply started.trans
    have content := noteUpload_content { reactor with
      content := (reactor.content.startDownload site send fetcher).1 } client none
        (reactor.content.startDownload site send fetcher).2.2.2
    have answers := answerClient_altered (by rw [content]; exact started.registered registered) answered
    rw [content] at answers
    exact answers

theorem incomingWebData_altered (registered : reactor.content.Registered) {recv : Recv}
    (ok : reactor.incomingWebData fetcher recv send = .ok after) :
    Altered reactor.content after.content := by
  have read : Altered reactor.content (reactor.content.readData fetcher recv).1 :=
    ContentManager.readData_altered registered recv
  unfold Reactor.incomingWebData at ok
  generalize reactor.content.readData fetcher recv = result at read ok
  obtain ⟨content, owner, pageData⟩ := result
  have kept : content.Registered := read.registered registered
  cases owner with
  | none =>
      cases ok
      exact read
  | some client =>
      obtain ⟨⟨manager, sent⟩, sends, rfl⟩ := map_ok ok
      dsimp only
      split
      · split
        · rw [endDownload_content, closeServed_content]
          exact read.trans (ContentManager.endClientDownload_altered kept _)
        · rw [closeServed_content]
          exact read
      · split
        · exact read.trans (ContentManager.corkClientDownload_altered client)
        · exact read

theorem flushWebOutput_altered :
    Altered reactor.content (reactor.flushWebOutput fetcher send).content := by
  have flushed : Altered reactor.content (reactor.content.sendSocketData send fetcher []).1 :=
    ContentManager.sendSocketData_altered
  unfold Reactor.flushWebOutput
  generalize reactor.content.sendSocketData send fetcher [] = result at flushed ⊢
  obtain ⟨content, status, bufferChange, owner⟩ := result
  cases owner with
  | none => exact flushed
  | some client =>
      rw [noteUpload_content]
      exact flushed

/-- A decision is enacted before anything else is done about its client. -/
theorem enactDecision_altered (registered : reactor.content.Registered) {decision : Decision}
    {outside : Outside} (ok : reactor.enactDecision readers client decision outside = .ok after) :
    ∃ content answer,
      reactor.content.getContent outside.site outside.request client decision = .ok (content, answer) ∧
        Altered content after.content := by
  obtain ⟨⟨content, answer⟩, enacts, ok⟩ := bind_ok ok
  obtain ⟨⟨manager, data, source⟩, starts, ok⟩ := bind_ok ok
  refine ⟨content, answer, enacts, ?_⟩
  have enacted : Changes (fun _ _ _ => True) reactor.content content :=
    (ContentManager.getContent_enacted registered enacts).changes registered
  have kept : content.Registered := enacted.registered registered
  have same := noteUpload_content { reactor with content } client answer.buffered answer.bufferChange
  cases data with
  | none =>
      cases ok
      rw [closeClient_content, endDownload_content]
      dsimp only
      rw [same]
      exact ContentManager.endClientDownload_altered kept client
  | some data =>
      cases data with
      | nil =>
          cases ok
          dsimp only
          rw [same]
      | cons byte rest =>
          cases ok
          have relayed := relay_altered { ({ reactor with content } : Reactor ρ).noteUpload client
            answer.buffered answer.bufferChange with client := manager } (by rw [same]; exact kept) client
            (byte :: rest) outside.upload
          have noted : Altered content (({ reactor with content } : Reactor ρ).noteUpload client
              answer.buffered answer.bufferChange).content := by
            rw [same]
          exact noted.trans relayed

/-- What a turn does to the connections, where it opens none or is a decision. -/
theorem take_altered (registered : before.content.Registered) (ok : before.take readers turn = .ok after) :
    before.opens turn = none ∧ Altered before.content after.content ∨
      ∃ client decision outside content answer, turn = .enactDecision client decision outside ∧
        before.content.getContent outside.site outside.request client decision = .ok (content, answer) ∧
          Altered content after.content := by
  cases turn with
  | acceptConnection source =>
      cases ok
      cases source <;> exact .inl ⟨rfl, .refl⟩
  | incomingRequest client recv => exact .inl ⟨rfl, incomingRequest_altered ok⟩
  | incomingClientData client recv send => exact .inl ⟨rfl, incomingClientData_altered registered ok⟩
  | flushClientOutput client send => exact .inl ⟨rfl, flushClientOutput_altered registered ok⟩
  | completeWebConnection fetcher site send clientSend =>
      exact .inl ⟨rfl, completeWebConnection_altered registered ok⟩
  | incomingWebData fetcher recv send => exact .inl ⟨rfl, incomingWebData_altered registered ok⟩
  | flushWebOutput fetcher send =>
      cases ok
      exact .inl ⟨rfl, flushWebOutput_altered⟩
  | enactDecision client decision outside =>
      obtain ⟨content, answer, enacts, altered⟩ := enactDecision_altered registered ok
      exact .inr ⟨client, decision, outside, content, answer, rfl, enacts, altered⟩
  | expire client =>
      cases ok
      refine .inl ⟨rfl, ?_⟩
      unfold expire
      rw [closeClient_content]

theorem take_changes (registered : before.content.Registered) (ok : before.take readers turn = .ok after) :
    Changes (fun _ _ _ => True) before.content after.content := by
  obtain ⟨_, altered⟩ | ⟨client, decision, outside, content, answer, rfl, enacts, altered⟩ :=
    take_altered registered ok
  · exact altered.changes
  · exact ((ContentManager.getContent_enacted registered enacts).changes registered).trans altered.changes

/-- A turn opens at most one connection, for the client of its decision. -/
theorem take_opens (registered : before.content.Registered) (ok : before.take readers turn = .ok after) :
    (∀ fetcher client, before.opens turn = some (fetcher, client) → after.content.Owned fetcher client) ∧
      ∀ fetcher < after.content.sockets, fetcher < before.content.sockets ∨
        ∃ client, before.opens turn = some (fetcher, client) := by
  obtain ⟨opens, altered⟩ | ⟨client, decision, outside, content, answer, rfl, enacts, altered⟩ :=
    take_altered registered ok
  · rw [opens, altered.sockets]
    exact ⟨by simp, fun fetcher opened => .inl opened⟩
  · simp only [opens, enacts]
    obtain kept | ⟨one, owned⟩ := (ContentManager.getContent_enacted registered enacts).owned registered
    · have none : ¬ before.content.sockets < content.sockets := by
        rw [kept.sockets]
        exact Nat.lt_irrefl _
      rw [if_neg none, altered.sockets, kept.sockets]
      exact ⟨by simp, fun fetcher opened => .inl opened⟩
    · have more : before.content.sockets < content.sockets := by
        rw [one]
        exact Nat.lt_succ_self _
      rw [if_pos more, altered.sockets, one]
      constructor
      · intro fetcher owner told
        cases told
        exact altered.changes.owned owned
      · intro fetcher opened
        obtain earlier | rfl := Nat.lt_succ_iff_lt_or_eq.mp opened
        · exact .inl earlier
        · exact .inr ⟨client, rfl⟩

end Reactor

/-! ### Runs -/

/-- A reactor with what its turns had for the clients, what their sockets have taken, and
the connections that were opened, each with the client whose decision asked for it. -/
structure Delivery (ρ : Type) where
  reactor : Reactor ρ := {}
  blocks : List Block := []
  taken : List (Sock × Str) := []
  opened : List (Sock × Sock) := []

namespace Delivery

variable {ρ : Type} (readers : Readers ρ) {delivery before after : Delivery ρ} {turn : Reactor.Turn}
  {client other : Sock}

def next (delivery : Delivery ρ) (turn : Reactor.Turn) : Except Raised (Delivery ρ) :=
  (delivery.reactor.take readers turn).map fun reactor =>
    { reactor
      blocks := delivery.blocks ++ (delivery.reactor.gives turn).toList
      taken := delivery.taken ++ (delivery.reactor.takes turn).toList
      opened := delivery.opened ++ (delivery.reactor.opens turn).toList }

def Step (before after : Delivery ρ) : Prop :=
  ∃ turn, before.reactor.Answerable turn ∧ before.next readers turn = .ok after

abbrev Run : Delivery ρ → Prop := Reachable (· = {}) (Step readers)

/-- The data for a client. -/
def given (delivery : Delivery ρ) (client : Sock) : Str := dataFor client (delivery.blocks.map Block.entry)

/-- What a client's socket has been given and has taken, with the buffer of its writer. -/
def outlet (delivery : Delivery ρ) (client : Sock) : Outlet UInt8 where
  given := delivery.given client
  taken := dataFor client delivery.taken
  buffer := (delivery.reactor.client.writerOf client).map Writer.wBuffer

/-- What holds after every turn. -/
structure Sound (delivery : Delivery ρ) : Prop where
  accounts : delivery.reactor.Accounts
  fresh : ∀ client, delivery.reactor.client.sockets ≤ client → delivery.outlet client = {}
  owned : ∀ block ∈ delivery.blocks, ∀ fetcher, block.origin.fetcher = some fetcher →
    delivery.reactor.content.Owned fetcher block.client
  opened : ∀ fetcher client, (fetcher, client) ∈ delivery.opened →
    delivery.reactor.content.Owned fetcher client
  asked : ∀ fetcher < delivery.reactor.content.sockets, ∃ client, (fetcher, client) ∈ delivery.opened

/-- A connection that is accepted has an empty writer. -/
theorem accepted_writerOf {reactor : Reactor ρ} (distinct : reactor.client.Distinct) (source : Source) :
    (reactor.acceptConnection readers source).client.sockets = reactor.client.sockets + 1 ∧
      (reactor.acceptConnection readers source).client.writerOf reactor.client.sockets = some {} ∧
      ∀ other, other ≠ reactor.client.sockets →
        (reactor.acceptConnection readers source).client.writerOf other = reactor.client.writerOf other := by
  have free : reactor.client.bysock.lookup reactor.client.sockets = none :=
    Option.map_eq_none_iff.mp (distinct.fresh _ (Nat.le_refl _)).1
  have waiting (source : Source) : (reactor.client.connection readers source).writerOf reactor.client.sockets =
      some {} := by
    have unserved : (reactor.client.connection readers source).bysock.lookup reactor.client.sockets = none := free
    exact ClientManager.writerOf_waiting unserved (AList.lookup_insert _)
  have others (source : Source) (other : Sock) (different : other ≠ reactor.client.sockets) :
      (reactor.client.connection readers source).writerOf other = reactor.client.writerOf other := by
    simp only [ClientManager.writerOf, ClientManager.connection, AList.lookup_insert_ne different]
  cases source with
  | passthrough =>
      have served : (reactor.acceptConnection readers .passthrough).client.bysock.lookup
          reactor.client.sockets =
            some ⟨⟨reactor.client.nextid + 1, .passthrough⟩, readers.start .passthrough, {}⟩ :=
        AList.lookup_insert _
      refine ⟨rfl, ClientManager.writerOf_found served, fun other different => ?_⟩
      simp only [Reactor.acceptConnection, Reactor.sendRequest, ClientManager.passthroughConnection,
        ClientManager.writerOf, AList.lookup_insert_ne different]
  | proxy => exact ⟨rfl, waiting .proxy, others .proxy⟩
  | web => exact ⟨rfl, waiting .web, others .web⟩
  | icap => exact ⟨rfl, waiting .icap, others .icap⟩
  | tls => exact ⟨rfl, waiting .tls, others .tls⟩

variable {readers}

/-- What a turn adds to an outlet. -/
structure Extends (before after : Delivery ρ) (client : Sock) (data part : Str) : Prop where
  given : after.given client = before.given client ++ data
  taken : dataFor client after.taken = dataFor client before.taken ++ part

theorem Extends.outlet_eq {data part : Str} (added : Extends before after client data part) :
    after.outlet client = ⟨before.given client ++ data, dataFor client before.taken ++ part,
      (after.reactor.client.writerOf client).map Writer.wBuffer⟩ := by
  simp only [outlet, added.given, added.taken]

theorem next_extends (ok : before.next readers turn = .ok after) (client : Sock) :
    Extends before after client (dataFor client ((before.reactor.gives turn).map Block.entry).toList)
      (dataFor client (before.reactor.takes turn).toList) := by
  obtain ⟨reactor, took, rfl⟩ := map_ok ok
  constructor
  · rw [given, List.map_append, dataFor_append, Option.toList_map]
    rfl
  · exact dataFor_append ..

theorem outlet_opens (accounts : before.reactor.Accounts) (source : Source)
    (fresh : before.outlet before.reactor.client.sockets = {})
    (ok : before.next readers (.acceptConnection source) = .ok after) :
    after.reactor.client.sockets = before.reactor.client.sockets + 1 ∧
      after.outlet before.reactor.client.sockets = ⟨[], [], some []⟩ ∧
      ∀ client, client ≠ before.reactor.client.sockets → after.outlet client = before.outlet client := by
  have added := next_extends ok
  obtain ⟨reactor, took, rfl⟩ := map_ok ok
  cases took
  obtain ⟨sockets, opened, others⟩ := accepted_writerOf readers accounts.distinct source
  refine ⟨sockets, ?_, fun client different => ?_⟩
  · have empty : before.given before.reactor.client.sockets = [] := congrArg Outlet.given fresh
    have untaken : dataFor before.reactor.client.sockets before.taken = [] := congrArg Outlet.taken fresh
    rw [(added _).outlet_eq, empty, untaken, opened]
    rfl
  · rw [(added client).outlet_eq, others client different]
    simp only [Reactor.gives, Reactor.takes, Option.map_none, Option.toList_none, dataFor_nil, List.append_nil]
    rfl

theorem outlet_moves {data part : Str}
    (serves : Reactor.Serves before.reactor after.reactor turn client data part)
    (ok : before.next readers turn = .ok after) :
    Relation.ReflTransGen Outlet.Step (before.outlet client) (after.outlet client) := by
  have added := next_extends ok client
  rw [serves.given.own, serves.taken.own] at added
  rw [added.outlet_eq]
  have start (writer : Writer) (was : before.reactor.client.writerOf client = some writer) :
      before.outlet client = ⟨before.given client, dataFor client before.taken, some writer.wBuffer⟩ := by
    simp only [outlet, was, Option.map_some]
  cases serves.moves with
  | kept writer changed was now conserved =>
      rw [start writer was, now]
      exact .single (.moved data part changed.wBuffer conserved)
  | closed writer was now first =>
      rw [start writer was, now]
      exact .single (.closed data part first)
  | idle same nothing none =>
      rw [same, nothing, none, List.append_nil, List.append_nil]
      exact .refl

/-- A client that was never accepted is given nothing. -/
theorem outlet_unheld {data part : Str}
    (serves : Reactor.Serves before.reactor after.reactor turn client data part)
    (ok : before.next readers turn = .ok after) (empty : before.outlet client = {}) :
    after.outlet client = before.outlet client := by
  have unheld : before.reactor.client.writerOf client = none :=
    Option.map_eq_none_iff.mp (congrArg Outlet.buffer empty)
  have added := next_extends ok client
  rw [serves.given.own, serves.taken.own] at added
  rw [added.outlet_eq]
  cases serves.moves with
  | kept writer changed was now conserved =>
      rw [unheld] at was
      cases was
  | closed writer was now first =>
      rw [unheld] at was
      cases was
  | idle same nothing none =>
      rw [same, nothing, none, List.append_nil, List.append_nil]
      rfl

theorem outlet_others {data part : Str}
    (serves : Reactor.Serves before.reactor after.reactor turn client data part)
    (ok : before.next readers turn = .ok after) (different : other ≠ client) :
    after.outlet other = before.outlet other := by
  have added := next_extends ok other
  rw [serves.given.elsewhere different, serves.taken.elsewhere different] at added
  rw [added.outlet_eq, serves.confined.toApart.writerOf different, List.append_nil, List.append_nil]
  rfl

theorem next_take (ok : before.next readers turn = .ok after) :
    before.reactor.take readers turn = .ok after.reactor := by
  obtain ⟨reactor, took, rfl⟩ := map_ok ok
  exact took

/-- A turn takes a step at one outlet, and none at the others. -/
theorem Sound.outlets (sound : before.Sound) (answerable : before.reactor.Answerable turn)
    (ok : before.next readers turn = .ok after) (client : Sock) :
    Relation.ReflTransGen Outlet.Step (before.outlet client) (after.outlet client) := by
  obtain ⟨source, rfl⟩ | ⟨owner, data, part, serves⟩ :=
    Reactor.take_serves sound.accounts answerable (next_take ok)
  · have fresh := sound.fresh _ (Nat.le_refl _)
    obtain ⟨_, opened, others⟩ := outlet_opens sound.accounts source fresh ok
    by_cases same : client = before.reactor.client.sockets
    · rw [same, opened, fresh]
      exact .single .opened
    · rw [others client same]
  · by_cases same : client = owner
    · subst same
      exact outlet_moves serves ok
    · rw [outlet_others serves ok same]

/-- The data of a connection is for the client that it was opened for. -/
theorem gives_owned {reactor : Reactor ρ} (registered : reactor.content.Registered) {block : Block}
    {fetcher : Sock} (gives : reactor.gives turn = some block) (origin : block.origin.fetcher = some fetcher) :
    reactor.content.Owned fetcher block.client := by
  cases turn with
  | completeWebConnection sock site send clientSend =>
      simp only [Reactor.gives] at gives
      split at gives
      · next started =>
          cases gives
          cases origin
          apply registered.owned
          exact (ContentManager.startDownload_client registered (by rw [started])).2
      · cases gives
  | incomingWebData sock recv send =>
      have fetching := ContentManager.readData_fetching registered sock recv
      simp only [Reactor.gives] at gives
      split at gives
      · next read =>
          cases gives
          cases origin
          rw [read] at fetching
          cases fetching with
          | read _ byclient held data received => exact registered.owned byclient
      · cases gives
  | enactDecision client decision outside =>
      simp only [Reactor.gives] at gives
      split at gives
      · cases gives
        cases origin
      · cases gives
  | acceptConnection | incomingRequest | incomingClientData | flushClientOutput | flushWebOutput | expire =>
      cases gives

theorem Sound.next (sound : before.Sound) (answerable : before.reactor.Answerable turn)
    (ok : before.next readers turn = .ok after) : after.Sound where
  accounts := sound.accounts.take answerable.1 (next_take ok)
  fresh := by
    intro client accepted
    obtain ⟨source, rfl⟩ | ⟨owner, data, part, serves⟩ :=
      Reactor.take_serves sound.accounts answerable (next_take ok)
    · obtain ⟨sockets, _, others⟩ := outlet_opens sound.accounts source (sound.fresh _ (Nat.le_refl _)) ok
      rw [sockets] at accepted
      rw [others client (Nat.ne_of_gt accepted)]
      exact sound.fresh client (Nat.le_of_succ_le accepted)
    · rw [serves.confined.sockets] at accepted
      have empty := sound.fresh client accepted
      by_cases same : client = owner
      · subst same
        exact (outlet_unheld serves ok empty).trans empty
      · rw [outlet_others serves ok same, empty]
  owned := by
    intro block member fetcher origin
    have changes := Reactor.take_changes sound.accounts.registered (next_take ok)
    obtain ⟨reactor, took, rfl⟩ := map_ok ok
    obtain earlier | last := List.mem_append.mp member
    · exact changes.owned (sound.owned block earlier fetcher origin)
    · exact changes.owned (gives_owned sound.accounts.registered (Option.mem_toList.mp last) origin)
  opened := by
    intro fetcher client member
    have changes := Reactor.take_changes sound.accounts.registered (next_take ok)
    have opens := (Reactor.take_opens sound.accounts.registered (next_take ok)).1
    obtain ⟨reactor, took, rfl⟩ := map_ok ok
    obtain earlier | last := List.mem_append.mp member
    · exact changes.owned (sound.opened fetcher client earlier)
    · exact opens fetcher client (Option.mem_toList.mp last)
  asked := by
    intro fetcher opened
    have opens := (Reactor.take_opens sound.accounts.registered (next_take ok)).2
    obtain ⟨reactor, took, rfl⟩ := map_ok ok
    obtain earlier | ⟨client, told⟩ := opens fetcher opened
    · obtain ⟨client, member⟩ := sound.asked fetcher earlier
      exact ⟨client, List.mem_append_left _ member⟩
    · exact ⟨client, List.mem_append_right _ (Option.mem_toList.mpr told)⟩

theorem Sound.initial : Sound ({} : Delivery ρ) where
  accounts := .initial
  fresh _ _ := rfl
  owned := by simp
  opened := by simp
  asked := by simp

/-- A connection is owned by the client that it was opened for, and was opened once. -/
theorem Sound.asked_iff (sound : delivery.Sound) {fetcher : Sock}
    (owned : delivery.reactor.content.Owned fetcher other) :
    (fetcher, client) ∈ delivery.opened ↔ client = other := by
  constructor
  · intro member
    exact (sound.opened fetcher client member).unique owned
  · rintro rfl
    obtain ⟨owner, member⟩ := sound.asked fetcher owned.opened
    rwa [(sound.opened fetcher owner member).unique owned] at member

theorem Run.sound (run : Run readers delivery) : delivery.Sound :=
  Reachable.invariant run Sound (fun _ initial => initial ▸ .initial)
    fun _ _ _ sound ⟨_, answerable, ok⟩ => sound.next answerable ok

/-- To each of its clients, the reactor is an outlet. -/
theorem Run.outlet (run : Run readers delivery) (client : Sock) :
    Reachable (· = {}) Outlet.Step (delivery.outlet client) := by
  apply Reachable.simulate (fun delivery : Delivery ρ => delivery.outlet client) _ _ run
  · intro start initial
    subst initial
    rfl
  · intro before after reached step
    obtain ⟨turn, answerable, ok⟩ := step
    exact (Run.sound reached).outlets answerable ok client

/-- In every run, the bytes that a client's socket has taken are the first of the data that
its decisions and connections had for it, and those in the buffer are the rest, as long as
it is there; the data of a connection is for the one client whose decision had it opened. -/
theorem downloads_delivered (run : Run readers delivery) (client : Sock) :
    dataFor client delivery.taken <+: delivery.given client ∧
      (∀ held, delivery.reactor.client.bysock.lookup client = some held →
        dataFor client delivery.taken ++ held.writer.wBuffer = delivery.given client) ∧
      ∀ block ∈ delivery.blocks, ∀ fetcher, block.origin.fetcher = some fetcher →
        ∀ owner, (fetcher, owner) ∈ delivery.opened ↔ owner = block.client := by
  have sound := Outlet.sound (run.outlet client)
  refine ⟨sound.first, fun held found => ?_, fun block member fetcher origin owner => ?_⟩
  · apply sound.waits
    simp only [Delivery.outlet, ClientManager.writerOf_found found, Option.map_some]
  · exact run.sound.asked_iff (run.sound.owned block member fetcher origin)

def move (readers : Readers ρ) (delivery : Delivery ρ) (turn : Reactor.Turn) : Option (Delivery ρ) :=
  if delivery.reactor.Answerable turn then (delivery.next readers turn).toOption else none

theorem move_step (moved : delivery.move readers turn = some after) : Step readers delivery after := by
  unfold move at moved
  split at moved
  · next answerable =>
      refine ⟨turn, answerable, ?_⟩
      cases stepped : delivery.next readers turn with
      | error raised =>
          rw [stepped] at moved
          cases moved
      | ok next =>
          rw [stepped] at moved
          cases moved
          rfl
  · cases moved

/-- A page is read for the second of two clients, which takes four bytes of it. -/
def fetched : List Reactor.Turn :=
  [.acceptConnection .proxy, .acceptConnection .proxy, .incomingRequest 1 [.data Reactor.request],
    .enactDecision 1 ContentManager.firstRequest Reactor.calm,
    .completeWebConnection 0 ContentManager.anySite (.accepted 4) (.accepted 4),
    .incomingWebData 0 (.data (ascii "HTTP/1.1 200 OK")) (.accepted 4)]

theorem downloads_delivered_fetched : ∃ delivery : Delivery (Client.AnyReader Unit),
    dataFor 1 delivery.taken = ascii "HTTP" ∧ (0, 1) ∈ delivery.opened ∧
      ascii "HTTP" ++ ascii "/1.1 200 OK" = delivery.given 1 := by
  have seen : ((fetched.foldlM (move Reactor.plainReaders) {}).map fun delivery =>
      (dataFor 1 delivery.taken, decide (⟨1, .page 0, ascii "HTTP/1.1 200 OK"⟩ ∈ delivery.blocks),
        delivery.reactor.client.bysock.lookup 1 |>.map (·.writer.wBuffer))) =
          some (ascii "HTTP", true, some (ascii "/1.1 200 OK")) := by decide +kernel
  obtain ⟨delivery, followed, same⟩ := Option.map_eq_some_iff.mp seen
  obtain ⟨taken, rest⟩ := Prod.mk.inj same
  obtain ⟨read, buffered⟩ := Prod.mk.inj rest
  obtain ⟨held, found, waits⟩ := Option.map_eq_some_iff.mp buffered
  have start : Run Reactor.plainReaders {} := .start rfl
  have run : Run Reactor.plainReaders delivery :=
    start.foldlM (fun _ _ _ moved => move_step moved) followed
  obtain ⟨_, delivered, owned⟩ := downloads_delivered run 1
  have whole := delivered held found
  rw [taken, waits] at whole
  exact ⟨delivery, taken, (owned _ (of_decide_eq_true read) 0 rfl 1).mpr rfl, whole⟩

end Delivery

end ExaProxy
