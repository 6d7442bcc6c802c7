import ExaProxy.Reactor.Accounts

namespace ExaProxy.Client.ClientManager

open ExaProxy.Data ExaProxy.Network
open ExaProxy.Content (Send Reply Remaining)

variable {ρ : Type} {readers : Readers ρ} {manager before middle after : ClientManager ρ}
  {sock other : Sock} {client : Connected ρ}

/-- How a socket is polled under `read_client`. -/
def polled (manager : ClientManager ρ) (sock : Sock) : Interest :=
  manager.poller.interest .readClient sock

/-- A call for one client: the others are polled as before, and what was not known
to the poller or to the manager still is not. -/
structure Polled (sock : Sock) (before after : ClientManager ρ) : Prop where
  others : ∀ other, other ≠ sock → after.polled other = before.polled other
  unknown : ∀ other, before.polled other = .absent → after.polled other = .absent
  waiting : ∀ other, after.waiting other ≠ none → before.waiting other ≠ none
  serving : ∀ other, after.served other ≠ none → before.served other ≠ none
  known : ∀ other, after.served other ≠ none → before.polled other ≠ .absent →
    after.polled other ≠ .absent
  sockets : after.sockets = before.sockets

theorem Polled.trans (first : Polled sock before middle) (second : Polled sock middle after) :
    Polled sock before after where
  others other different := (second.others other different).trans (first.others other different)
  unknown other absent := second.unknown other (first.unknown other absent)
  waiting other waits := first.waiting other (second.waiting other waits)
  serving other serves := first.serving other (second.serving other serves)
  known other serves present :=
    second.known other serves (first.known other (second.serving other serves) present)
  sockets := second.sockets.trans first.sockets

theorem Alike.polled_known (alike : Alike before after)
    (others : ∀ other, other ≠ sock → after.polled other = before.polled other)
    (known : after.polled sock = .absent ↔ before.polled sock = .absent) : Polled sock before after := by
  have same : ∀ other, after.polled other = .absent ↔ before.polled other = .absent := by
    intro other
    by_cases equal : other = sock
    · rw [equal]
      exact known
    · rw [others other equal]
  constructor
  · exact others
  · exact fun other => (same other).mpr
  · rw [alike.waiting]
    exact fun _ waits => waits
  · rw [alike.served]
    exact fun _ serves => serves
  · exact fun other _ present => mt (same other).mp present
  · exact alike.sockets

theorem Alike.polled (alike : Alike before after) (same : after.polled = before.polled) :
    Polled sock before after :=
  alike.polled_known (fun _ _ => by rw [same]) (by rw [same])

theorem Polled.refl : Polled sock manager manager := Alike.refl.polled rfl

theorem cleanup_polled {name : Nat} : Polled sock manager (manager.cleanup sock name) := by
  have dropped : Dropped sock manager (manager.cleanup sock name) := cleanup_dropped
  have others : ∀ other, other ≠ sock →
      (manager.cleanup sock name).polled other = manager.polled other := by
    intro other different
    unfold cleanup ClientManager.polled
    simp only
    split
    · simp [Poller.interest_remove, different]
    · rfl
  constructor
  · exact others
  · intro other absent
    unfold cleanup ClientManager.polled
    simp only
    split
    · simp only [Poller.remove_known]
      exact .inl (.inl (.inl absent))
    · exact absent
  · intro other waits
    rw [dropped.waiting, Function.update_apply] at waits
    split at waits
    · exact absurd rfl waits
    · exact waits
  · intro other serves
    rw [dropped.served, Function.update_apply] at serves
    split at serves
    · exact absurd rfl serves
    · exact serves
  · intro other serves present
    rw [dropped.served, Function.update_apply] at serves
    split at serves
    · exact absurd rfl serves
    · next different =>
        rw [others other different]
        exact present
  · exact dropped.sockets

theorem cleanup_unwatched {name : Nat} (watched : (manager.cleanup sock name).polled other = .watched) :
    manager.polled other = .watched := by
  unfold cleanup ClientManager.polled at watched
  simp only at watched
  split at watched
  · simp only [Poller.interest_remove] at watched
    grind [ClientManager.polled]
  · exact watched

theorem noteBuffer_poll (manager : ClientManager ρ) (sock : Sock) (buffered hadBuffer : Bool) :
    (manager.noteBuffer sock buffered hadBuffer).1.polled = manager.polled := by
  funext other
  unfold noteBuffer
  split
  · split
    · simp [ClientManager.polled, Poller.interest_add]
    · rfl
  · split
    · simp [ClientManager.polled, Poller.interest_remove]
    · rfl

theorem startBuffer_poll {buffered hadBuffer : Bool} {started : ClientManager ρ}
    (ok : manager.startBuffer sock buffered hadBuffer = .ok started) : started.polled = manager.polled := by
  funext other
  unfold startBuffer at ok
  split at ok
  · cases ok
    simp [ClientManager.polled, Poller.interest_add]
  · split at ok
    · split at ok
      · cases ok
        simp [ClientManager.polled, Poller.interest_remove]
      · cases ok
    · cases ok
      rfl

theorem cork_polled : Polled sock manager
    { manager with poller := manager.poller.cork .readClient sock } := by
  apply (polled_alike _).polled_known
  · intro other different
    simp [ClientManager.polled, Poller.interest_cork, different]
  · exact Poller.cork_known ..

theorem uncork_polled : Polled sock manager
    { manager with poller := manager.poller.uncork .readClient sock } := by
  apply (polled_alike _).polled_known
  · intro other different
    simp [ClientManager.polled, Poller.interest_uncork, different]
  · exact Poller.uncork_known ..

theorem corkUpload_polled : Polled sock manager (manager.corkUpload sock) := by
  unfold corkUpload
  split
  · exact cork_polled
  · exact .refl

theorem uncorkUpload_polled : Polled sock manager (manager.uncorkUpload sock) := by
  unfold uncorkUpload
  split
  · exact uncork_polled
  · exact .refl

theorem corkUpload_unwatched (watched : (manager.corkUpload sock).polled other = .watched) :
    manager.polled other = .watched := by
  unfold corkUpload at watched
  split at watched
  · simp only [ClientManager.polled, Poller.interest_cork] at watched
    split at watched
    · cases watched
    · exact watched
  · exact watched

theorem Sending.polled {data : Option Str} {send : Send} {result : ClientManager ρ × Sent}
    (sending : Sending manager sock data send result) :
    Polled sock manager result.1 ∧ (result.1.polled sock = .watched → manager.polled sock = .watched) := by
  cases sending with
  | absent missing => exact ⟨.refl, id⟩
  | closed client found ended => exact ⟨cleanup_polled, cleanup_unwatched⟩
  | kept client found writer buffered hadBuffer resumed =>
      have put := put_alike found { client with writer } rfl
      have same := noteBuffer_poll (manager.put sock { client with writer }) sock buffered hadBuffer
      exact ⟨(put.trans (noteBuffer_alike sock buffered hadBuffer)).polled same, fun watched => same ▸ watched⟩

theorem Starting.polled {reply : Option Reply} {remaining : Remaining} {send : Send} {file : Option Str}
    {recv : List Recv} {result : ClientManager ρ × Option Str × Option Source}
    (starting : Starting readers manager sock reply remaining send file recv result) :
    Polled sock manager result.1 := by
  cases starting with
  | absent missing => exact .refl
  | unanswered client found invalid => exact .refl
  | closed client found => exact cleanup_polled
  | kept client found content valid writer buffered hadBuffer answered yielded reader data read yields
      started noted =>
      have put : Polled sock manager (manager.put sock { client with writer, reader }) :=
        (put_alike found { client with writer, reader } rfl).polled rfl
      exact (put.trans uncork_polled).trans ((startBuffer_alike noted).polled (startBuffer_poll noted))

end ExaProxy.Client.ClientManager

namespace ExaProxy

open ExaProxy.Data ExaProxy.Network
open ExaProxy.Client (Source Recv Yielded Readers ClientManager)
open ExaProxy.Client.ClientManager (Polled Sending Starting Opening Reading)
open ExaProxy.Content (Send Site Decision Downloader ContentManager)

namespace Reactor

/-! A request of a client is pending from the time that it is read until its decision
is enacted.  Meanwhile the client is to be read no further. -/

/-- The client that a turn reads once it has been reported under `read_client`. -/
def Turn.reads : Turn → Option Sock
  | .incomingClientData client _ _ => some client
  | _ => none

/-- The client that a turn calls `startData` for. -/
def Turn.starts : Turn → Option Sock
  | .enactDecision client _ _ => some client
  | _ => none

variable {ρ : Type}

/-- The client whose request a turn reads. -/
def asks (readers : Readers ρ) (reactor : Reactor ρ) : Turn → Option Sock
  | .incomingRequest client recv => requester client (reactor.client.readRequest readers client recv).2
  | .incomingClientData client recv _ => requester client (reactor.client.readData readers client recv).2
  | _ => none
where
  requester (client : Sock) : Option (Nat × Source × Yielded) → Option Sock
    | some (_, _, .request _) => some client
    | _ => none

/-- The client that may be read again because the buffer for its server has been emptied. -/
def released (reactor : Reactor ρ) : Turn → Option Sock
  | .completeWebConnection fetcher _ _ _ =>
      if fetcher ∈ reactor.content.opening ∧ fetcher ∈ reactor.content.buffered then
        (reactor.content.downloaders.lookup fetcher).map Downloader.client
      else none
  | .flushWebOutput fetcher send =>
      if fetcher ∈ reactor.content.buffered then
        ((reactor.content.connected fetcher).filter fun downloader =>
          decide (downloader.Drains send)).map Downloader.client
      else none
  | _ => none

variable {readers : Readers ρ} {reactor after : Reactor ρ} {client fetcher : Sock} {send : Send}

theorem noteUpload_polled (reactor : Reactor ρ) (client : Sock) (status bufferChange : Option Bool) :
    Polled client reactor.client (reactor.noteUpload client status bufferChange).client := by
  unfold noteUpload
  split
  · split
    · exact ClientManager.corkUpload_polled
    · exact ClientManager.uncorkUpload_polled
  · exact .refl

/-- A client is read again only if the buffer for its server has been emptied. -/
theorem noteUpload_watched {status bufferChange : Option Bool}
    (watched : (reactor.noteUpload client status bufferChange).client.polled client = .watched) :
    reactor.client.polled client = .watched ∨
      bufferChange = some true ∧ status ≠ some true ∧ client ∈ reactor.client.bysock := by
  unfold noteUpload at watched
  split at watched
  · next changed =>
      split at watched
      · exact .inl (ClientManager.corkUpload_unwatched watched)
      · next emptied =>
          by_cases held : client ∈ reactor.client.bysock
          · exact .inr ⟨changed, emptied, held⟩
          · rw [ClientManager.uncorkUpload, if_neg held] at watched
            exact .inl watched
  · exact .inl watched

theorem relay_polled {earlier : ClientManager ρ} {data : Str} (polled : Polled client earlier reactor.client) :
    Polled client earlier (reactor.relay client data send).client :=
  polled.trans (noteUpload_polled
    { reactor with content := (reactor.content.sendClientData send client data).1 } ..)

theorem closeClient_client (reactor : Reactor ρ) (source : Option Source) :
    (reactor.closeClient source).client = reactor.client := by
  cases source <;> rfl

theorem closeServed_client (reactor : Reactor ρ) (source : Option Source) :
    (reactor.closeServed source).client = reactor.client := by
  unfold closeServed
  split <;> rfl

theorem flushClientOutput_sends (ok : reactor.flushClientOutput client send = .ok after) :
    ∃ sent, reactor.client.sendData client (some []) send = .ok (after.client, sent) := by
  obtain ⟨⟨manager, sent⟩, sends, rfl⟩ := map_ok ok
  have same := fun closed : Reactor ρ => closeClient_client closed sent.source
  simp only [apply_ite Reactor.client, same, endDownload, ite_self]
  exact ⟨sent, sends⟩

theorem answerClient_sends {response : Str} (ok : reactor.answerClient client response send = .ok after) :
    ∃ sent, reactor.client.sendData client (some response) send = .ok (after.client, sent) := by
  obtain ⟨⟨manager, sent⟩, sends, rfl⟩ := map_ok ok
  have same := fun closed : Reactor ρ => closeServed_client closed sent.source
  simp only [apply_ite Reactor.client, same, endDownload, ite_self]
  exact ⟨sent, sends⟩

theorem incomingWebData_sends {recv : Recv} (ok : reactor.incomingWebData fetcher recv send = .ok after) :
    after.client = reactor.client ∨
      ∃ client data sent, reactor.client.sendData client data send = .ok (after.client, sent) := by
  unfold incomingWebData at ok
  generalize reactor.content.readData fetcher recv = result at ok
  obtain ⟨content, owner, pageData⟩ := result
  cases owner with
  | none =>
      cases ok
      exact .inl rfl
  | some client =>
      obtain ⟨⟨manager, sent⟩, sends, rfl⟩ := map_ok ok
      have same := fun closed : Reactor ρ => closeServed_client closed sent.source
      apply Or.inr
      simp only [apply_ite Reactor.client, same, endDownload, ite_self]
      exact ⟨client, pageData, sent, sends⟩

/-- The client of a connection that was waited for is read again if it was buffered. -/
theorem startDownload_released {site : Site} {clientSend : Send}
    (told : (reactor.content.startDownload site send fetcher).2.1 = some client)
    (changed : (reactor.content.startDownload site send fetcher).2.2.2 = some true) :
    reactor.released (.completeWebConnection fetcher site send clientSend) = some client := by
  unfold ContentManager.startDownload at told changed
  split at told
  · next waits =>
      rw [if_pos waits] at changed
      cases found : reactor.content.downloaders.lookup fetcher with
      | none =>
          rw [found] at told
          cases told
      | some downloader =>
          simp only [found, Downloader.startConversation_downloader, Downloader.writeData_client,
            Option.some.injEq, decide_eq_true_eq] at told changed
          simp [released, waits, changed, found, told]
  · cases told

/-- The client of a connection is read again if the buffer was emptied. -/
theorem sendSocketData_released {status : Option Bool} {content : ContentManager}
    (sent : reactor.content.sendSocketData send fetcher [] = (content, status, some true, some client))
    (emptied : status ≠ some true) :
    reactor.released (.flushWebOutput fetcher send) = some client := by
  unfold ContentManager.sendSocketData at sent
  split at sent
  · next downloader connected =>
      have found := (ContentManager.connected_some connected).2
      simp only [ContentManager.writeData, found] at sent
      have drains : downloader.Drains send := by
        rw [Downloader.drains_iff]
        intro buffered
        simp only [buffered, if_true] at sent
        split at sent
        · cases sent
          exact emptied rfl
        · cases sent
      rw [Downloader.drains_iff] at drains
      simp only [drains, if_false] at sent
      split at sent
      · next buffered =>
          cases sent
          simp [released, buffered, connected, Downloader.drains_iff, drains]
      · cases sent
  · cases sent

/-- How a turn changes what is polled for one client: it may be watched if it was, or
if the buffer for its server was emptied. -/
structure Eased (client : Sock) (turn : Turn) (before after : Reactor ρ) : Prop where
  polled : Polled client before.client after.client
  watched : after.client.polled client = .watched → before.client.polled client = .watched ∨
    before.released turn = some client ∧ client ∈ before.client.bysock

theorem Eased.sends {turn : Turn} {data : Option Str} {sent : ClientManager.Sent}
    (sends : reactor.client.sendData client data send = .ok (after.client, sent)) :
    Eased client turn reactor after := by
  obtain ⟨polled, watched⟩ := (ClientManager.sendData_sending sends).polled
  exact ⟨polled, fun same => .inl (watched same)⟩

theorem incomingWebData_eased {recv : Recv} (ok : reactor.incomingWebData fetcher recv send = .ok after) :
    ∃ client, Eased client (.incomingWebData fetcher recv send) reactor after := by
  rcases incomingWebData_sends ok with same | ⟨client, data, sent, sends⟩
  · refine ⟨0, ?_, fun watched => .inl (same ▸ watched)⟩
    rw [same]
    exact .refl
  · exact ⟨client, .sends sends⟩

theorem completeWebConnection_eased {site : Site} {clientSend : Send}
    (ok : reactor.completeWebConnection fetcher site send clientSend = .ok after) :
    ∃ client, Eased client (.completeWebConnection fetcher site send clientSend) reactor after := by
  rcases completeWebConnection_ok ok with ⟨_, rfl⟩ | ⟨client, told, answered⟩
  · exact ⟨0, .refl, fun watched => .inl watched⟩
  generalize bufferChanged : (reactor.content.startDownload site send fetcher).2.2.2 = bufferChange
    at answered
  generalize (reactor.content.startDownload site send fetcher).1 = content at answered
  have noted : Eased client (.completeWebConnection fetcher site send clientSend) reactor
      ({ reactor with content }.noteUpload client none bufferChange) := by
    constructor
    · exact noteUpload_polled { reactor with content } client none bufferChange
    · intro watched
      rcases noteUpload_watched watched with earlier | ⟨rfl, _, held⟩
      · exact .inl earlier
      · exact .inr ⟨startDownload_released told bufferChanged, held⟩
  refine ⟨client, ?_⟩
  rcases answered with rfl | ⟨response, _, _, answered⟩
  · exact noted
  · obtain ⟨sent, sends⟩ := answerClient_sends answered
    obtain ⟨polled, watched⟩ := (ClientManager.sendData_sending sends).polled
    exact ⟨noted.polled.trans polled, fun same => noted.watched (watched same)⟩

theorem flushWebOutput_eased (reactor : Reactor ρ) (fetcher : Sock) (send : Send) : ∃ client,
    Eased client (.flushWebOutput fetcher send) reactor (reactor.flushWebOutput fetcher send) := by
  unfold flushWebOutput
  generalize sent : reactor.content.sendSocketData send fetcher [] = result
  obtain ⟨content, status, bufferChange, owner⟩ := result
  cases owner with
  | none => exact ⟨0, .refl, fun watched => .inl watched⟩
  | some client =>
      refine ⟨client, noteUpload_polled { reactor with content } client status bufferChange, ?_⟩
      intro watched
      rcases noteUpload_watched watched with earlier | ⟨rfl, emptied, held⟩
      · exact .inl earlier
      · exact .inr ⟨sendSocketData_released sent emptied, held⟩

theorem expire_eased : Eased client (.expire client) reactor (reactor.expire client) := by
  unfold expire ClientManager.expireOne
  cases found : reactor.client.norequest.lookup client with
  | none => exact ⟨.refl, fun watched => .inl watched⟩
  | some held =>
      exact ⟨ClientManager.cleanup_polled, fun watched => .inl (ClientManager.cleanup_unwatched watched)⟩

theorem enactDecision_polled {decision : Decision} {outside : Outside}
    (ok : reactor.enactDecision readers client decision outside = .ok after) :
    Polled client reactor.client after.client := by
  obtain ⟨⟨content, answer⟩, enacts, ok⟩ := bind_ok ok
  obtain ⟨⟨manager, data, source⟩, starts, ok⟩ := bind_ok ok
  have noted := noteUpload_polled { reactor with content } client answer.buffered answer.bufferChange
  have started := noted.trans (ClientManager.startData_starting starts).polled
  cases data with
  | none =>
      cases ok
      rw [closeClient_client]
      exact started
  | some data =>
      cases data with
      | nil =>
          cases ok
          exact started
      | cons byte rest =>
          cases ok
          exact relay_polled started

end Reactor

/-- A reactor with the clients that the poller has reported under `read_client`, as far
as they were not read yet, and how many requests of each client are pending. -/
structure Session (ρ : Type) where
  reactor : Reactor ρ := {}
  batch : List Sock := []
  pending : Sock → Nat := fun _ => 0

namespace Session

variable {ρ : Type} (readers : Readers ρ) (session : Session ρ)

inductive Move where
  | poll (reads : List Sock)
  | turn (turn : Reactor.Turn)

/-- The poller reports clients that it watches, and only those are read. -/
def Reported : Move → Prop
  | .poll reads => reads.Nodup ∧ ∀ sock ∈ reads, session.reactor.client.polled sock = .watched
  | .turn turn => turn.reads.all (fun client => client ∈ session.batch) = true

instance : DecidablePred session.Reported
  | .poll reads => inferInstanceAs (Decidable (reads.Nodup ∧ ∀ sock ∈ reads, _))
  | .turn turn => inferInstanceAs (Decidable (turn.reads.all _ = true))

/-- One for the client that a turn is about, if it is about one. -/
def tally (client : Option Sock) (sock : Sock) : Nat := if client = some sock then 1 else 0

@[simp] theorem tally_none (sock : Sock) : tally none sock = 0 := rfl

@[simp] theorem tally_some (client sock : Sock) :
    tally (some client) sock = if client = sock then 1 else 0 := by
  simp [tally]

/-- The session after a move, if its turn does not raise. -/
def take : Move → Except Raised (Session ρ)
  | .poll reads => .ok { session with batch := reads }
  | .turn turn =>
      (session.reactor.take readers turn).map fun reactor =>
        { reactor
          batch := turn.reads.elim session.batch session.batch.erase
          pending := fun sock => session.pending sock - tally turn.starts sock +
            tally (Reactor.asks readers session.reactor turn) sock }

/-- The sessions that moves lead to, in any order, where `allows` says which ones. -/
abbrev Run (readers : Readers ρ) (allows : Session ρ → Move → Prop) : Session ρ → Prop :=
  Reachable (· = {}) fun before after =>
    ∃ move, before.Reported move ∧ allows before move ∧ before.take readers move = .ok after

/-- A client with a pending request is not watched, and is not to be read. -/
structure Gated (session : Session ρ) : Prop where
  unwatched : ∀ client, 0 < session.pending client → session.reactor.client.polled client ≠ .watched
  unread : ∀ client, 0 < session.pending client → client ∉ session.batch
  corked : ∀ client, 0 < session.pending client → session.reactor.client.served client ≠ none →
    session.reactor.client.polled client = .corked

/-- A turn that finds the buffer for a server emptied does so while no request of
the server's client is pending. -/
def Keeps (session : Session ρ) : Move → Prop
  | .poll _ => True
  | .turn turn => (session.reactor.released turn).all (fun client =>
      client ∈ session.reactor.client.bysock → session.pending client = 0) = true

instance : DecidablePred session.Keeps
  | .poll _ => .isTrue trivial
  | .turn turn => inferInstanceAs (Decidable ((session.reactor.released turn).all _ = true))

/-- What the poller and the deciders give a reactor to do: a turn is for a socket that
is watched under the turn's event, or enacts the decision about a request that is pending. -/
def Watched (session : Session ρ) : Move → Prop
  | .turn (.incomingRequest client _) =>
      session.reactor.client.poller.interest .openingClient client = .watched
  | .turn (.flushClientOutput client _) =>
      session.reactor.client.poller.interest .writeClient client = .watched
  | .turn (.completeWebConnection fetcher _ _ _) =>
      session.reactor.content.poller.interest .openingDownload fetcher = .watched
  | .turn (.incomingWebData fetcher _ _) =>
      session.reactor.content.poller.interest .readDownload fetcher = .watched
  | .turn (.flushWebOutput fetcher _) =>
      session.reactor.content.poller.interest .writeDownload fetcher = .watched
  | .turn (.enactDecision client _ _) => 0 < session.pending client
  | .turn (.acceptConnection _) | .turn (.incomingClientData ..) | .turn (.expire _) | .poll _ => True

instance : DecidablePred session.Watched
  | .turn (.incomingRequest ..) | .turn (.flushClientOutput ..) | .turn (.completeWebConnection ..)
  | .turn (.incomingWebData ..) | .turn (.flushWebOutput ..) =>
      inferInstanceAs (Decidable (_ = Interest.watched))
  | .turn (.enactDecision ..) => inferInstanceAs (Decidable (0 < _))
  | .turn (.acceptConnection _) | .turn (.incomingClientData ..) | .turn (.expire _) | .poll _ =>
      .isTrue trivial

/-- The session after a move that is allowed, if its turn does not raise. -/
def advance (allows : Session ρ → Move → Prop) [∀ session, DecidablePred (allows session)]
    (session : Session ρ) (move : Move) : Option (Session ρ) :=
  if session.Reported move ∧ allows session move then (session.take readers move).toOption else none

/-- What holds after every move. -/
structure Inv (session : Session ρ) : Prop where
  unwatched : ∀ client, 0 < session.pending client → session.reactor.client.polled client ≠ .watched
  unread : ∀ client, 0 < session.pending client → client ∉ session.batch
  once : ∀ client, session.pending client ≤ 1
  known : ∀ client, session.reactor.client.served client ≠ none →
    session.reactor.client.polled client ≠ .absent
  accepted : ∀ client, (session.reactor.client.polled client ≠ .absent ∨ client ∈ session.batch ∨
      0 < session.pending client) →
    session.reactor.client.waiting client = none ∧ client < session.reactor.client.sockets
  queued : ∀ client, session.reactor.client.waiting client ≠ none →
    client < session.reactor.client.sockets
  distinct : session.batch.Nodup

variable {readers session} {before after : Session ρ} {reactor : Reactor ρ} {client other : Sock}

theorem Inv.gated (inv : session.Inv) : session.Gated where
  unwatched := inv.unwatched
  unread := inv.unread
  corked := by
    intro client pending serves
    have unwatched := inv.unwatched client pending
    have known := inv.known client serves
    cases polled : session.reactor.client.polled client with
    | absent => exact absurd polled known
    | watched => exact absurd polled unwatched
    | corked => rfl

namespace Inv

theorem initial : Inv ({} : Session ρ) where
  unwatched _ pending := absurd pending (Nat.lt_irrefl 0)
  unread _ pending := absurd pending (Nat.lt_irrefl 0)
  once _ := Nat.zero_le 1
  known _ serves := absurd rfl serves
  accepted client := by simp [ClientManager.polled]
  queued _ waits := absurd rfl waits
  distinct := List.nodup_nil

theorem poll (inv : session.Inv) {reads : List Sock} (reported : session.Reported (.poll reads)) :
    ({ session with batch := reads } : Session ρ).Inv where
  unwatched := inv.unwatched
  unread client pending reads := inv.unwatched client pending (reported.2 client reads)
  once := inv.once
  known := inv.known
  accepted := by
    intro client present
    rcases present with polled | reads | pending
    · exact inv.accepted client (.inl polled)
    · exact inv.accepted client (.inl (by rw [reported.2 client reads]; simp))
    · exact inv.accepted client (.inr (.inr pending))
  queued := inv.queued
  distinct := reported.1

/-- A turn for one client, whose gate is looked at on its own. -/
theorem turned (inv : before.Inv)
    (polled : Polled client before.reactor.client after.reactor.client)
    (batch : after.batch.Sublist before.batch)
    (others : ∀ other, other ≠ client → after.pending other ≤ before.pending other)
    (once : after.pending client ≤ 1)
    (known : 0 < after.pending client → 0 < before.pending client ∨
      before.reactor.client.served client ≠ none)
    (gate : 0 < after.pending client → after.reactor.client.polled client ≠ .watched ∧
      client ∉ after.batch) : after.Inv where
  unwatched := by
    intro other pending
    by_cases same : other = client
    · subst same
      exact (gate pending).1
    · rw [polled.others other same]
      exact inv.unwatched other (Nat.lt_of_lt_of_le pending (others other same))
  unread := by
    intro other pending reads
    by_cases same : other = client
    · subst same
      exact (gate pending).2 reads
    · exact inv.unread other (Nat.lt_of_lt_of_le pending (others other same)) (batch.mem reads)
  once := by
    intro other
    by_cases same : other = client
    · subst same
      exact once
    · exact Nat.le_trans (others other same) (inv.once other)
  known other serves := polled.known other serves (inv.known other (polled.serving other serves))
  accepted := by
    intro other present
    have earlier : before.reactor.client.waiting other = none ∧
        other < before.reactor.client.sockets := by
      rcases present with present | reads | pending
      · exact inv.accepted other (.inl (mt (polled.unknown other) present))
      · exact inv.accepted other (.inr (.inl (batch.mem reads)))
      · by_cases same : other = client
        · subst same
          rcases known pending with earlier | serves
          · exact inv.accepted other (.inr (.inr earlier))
          · exact inv.accepted other (.inl (inv.known other serves))
        · exact inv.accepted other (.inr (.inr (Nat.lt_of_lt_of_le pending (others other same))))
    constructor
    · by_contra waits
      exact polled.waiting other waits earlier.1
    · rw [polled.sockets]
      exact earlier.2
  queued := by
    intro other waits
    rw [polled.sockets]
    exact inv.queued other (polled.waiting other waits)
  distinct := inv.distinct.sublist batch

/-- A turn for one client that reads no request: a client is watched only if it was
or if nothing of it is pending. -/
theorem calm (inv : before.Inv) (polled : Polled client before.reactor.client after.reactor.client)
    (batch : after.batch.Sublist before.batch)
    (pending : ∀ other, after.pending other ≤ before.pending other)
    (watched : 0 < after.pending client → after.reactor.client.polled client = .watched →
      before.reactor.client.polled client = .watched) : after.Inv := by
  have earlier : 0 < after.pending client → 0 < before.pending client := fun pends =>
    Nat.lt_of_lt_of_le pends (pending client)
  apply inv.turned polled batch (fun other _ => pending other)
  · exact Nat.le_trans (pending client) (inv.once client)
  · exact fun pends => .inl (earlier pends)
  · intro pends
    constructor
    · exact fun same => inv.unwatched client (earlier pends) (watched pends same)
    · exact fun reads => inv.unread client (earlier pends) (batch.mem reads)

/-- The reactor's turn is for one client, and does not make it be read. -/
theorem quiet (inv : session.Inv) (polled : Polled client session.reactor.client reactor.client)
    (watched : reactor.client.polled client = .watched →
      session.reactor.client.polled client = .watched) :
    ({ session with reactor } : Session ρ).Inv :=
  inv.calm polled (.refl _) (fun _ => Nat.le_refl _) fun _ => watched

/-- The reactor's turn is for a client of which nothing is pending. -/
theorem free (inv : session.Inv) (polled : Polled client session.reactor.client reactor.client)
    (none_pending : session.pending client = 0) : ({ session with reactor } : Session ρ).Inv :=
  inv.calm polled (.refl _) (fun _ => Nat.le_refl _) fun pending => by
    rw [show session.pending client = 0 from none_pending] at pending
    exact absurd pending (Nat.lt_irrefl 0)

end Inv

namespace Inv

/-- A client has connected, through a socket that nothing was known of. -/
theorem connected (inv : session.Inv) (sockets : reactor.client.sockets = session.reactor.client.sockets + 1)
    (polled : ∀ other, other ≠ session.reactor.client.sockets →
      reactor.client.polled other = session.reactor.client.polled other)
    (waiting : ∀ other, other ≠ session.reactor.client.sockets →
      reactor.client.waiting other = session.reactor.client.waiting other)
    (served : ∀ other, other ≠ session.reactor.client.sockets →
      reactor.client.served other = session.reactor.client.served other)
    (known : reactor.client.served session.reactor.client.sockets ≠ none ↔
      reactor.client.polled session.reactor.client.sockets ≠ .absent)
    (apart : reactor.client.served session.reactor.client.sockets ≠ none →
      reactor.client.waiting session.reactor.client.sockets = none) :
    ({ session with reactor } : Session ρ).Inv := by
  have fresh : session.reactor.client.sockets ∉ session.batch ∧
      ¬ 0 < session.pending session.reactor.client.sockets := by
    have unknown := mt (inv.accepted session.reactor.client.sockets) fun early =>
      Nat.lt_irrefl _ early.2
    simp only [not_or] at unknown
    exact unknown.2
  have older : ∀ other, 0 < session.pending other → other ≠ session.reactor.client.sockets := by
    intro other pending same
    exact fresh.2 (same ▸ pending)
  constructor
  · intro other pending
    simp only [polled other (older other pending)]
    exact inv.unwatched other pending
  · exact inv.unread
  · exact inv.once
  · intro other serves
    by_cases same : other = session.reactor.client.sockets
    · subst same
      exact known.mp serves
    · simp only [served other same] at serves
      simp only [polled other same]
      exact inv.known other serves
  · intro other present
    simp only [sockets]
    by_cases same : other = session.reactor.client.sockets
    · subst same
      refine ⟨apart (known.mpr ?_), Nat.lt_succ_self _⟩
      rcases present with present | reads | pending
      · exact present
      · exact absurd reads fresh.1
      · exact absurd pending fresh.2
    · simp only [polled other same] at present
      simp only [waiting other same]
      obtain ⟨gone, accepted⟩ := inv.accepted other present
      exact ⟨gone, Nat.lt_succ_of_lt accepted⟩
  · intro other waits
    simp only [sockets]
    by_cases same : other = session.reactor.client.sockets
    · rw [same]
      exact Nat.lt_succ_self _
    · simp only [waiting other same] at waits
      exact Nat.lt_succ_of_lt (inv.queued other waits)
  · exact inv.distinct

theorem acceptConnection (inv : session.Inv) (source : Source) :
    ({ session with reactor := session.reactor.acceptConnection readers source } : Session ρ).Inv := by
  have unpolled : session.reactor.client.polled session.reactor.client.sockets = .absent := by
    by_contra present
    exact Nat.lt_irrefl _ (inv.accepted _ (.inl present)).2
  have unserved : session.reactor.client.served session.reactor.client.sockets = none := by
    by_contra serves
    exact inv.known _ serves unpolled
  have waiting : ∀ source, (session.reactor.client.connection readers source).waiting =
      Function.update session.reactor.client.waiting session.reactor.client.sockets
        (some ⟨session.reactor.client.nextid + 1, source⟩) := fun source =>
    ClientManager.lookup_insert_map
  have polled : ∀ source, (session.reactor.client.connection readers source).polled =
      session.reactor.client.polled := by
    intro source
    funext other
    simp [ClientManager.polled, ClientManager.connection, Poller.interest_add]
  have connects : ∀ source, ({ session with reactor := { session.reactor with
      client := session.reactor.client.connection readers source
      clientCount := Function.update session.reactor.clientCount source
        (session.reactor.clientCount source + 1) } } : Session ρ).Inv := by
    intro source
    apply inv.connected
    · rfl
    · exact fun other _ => by rw [polled]
    · intro other different
      rw [waiting, Function.update_of_ne different]
    · exact fun _ _ => rfl
    · rw [polled]
      exact ⟨fun serves => absurd unserved serves, fun present => absurd unpolled present⟩
    · exact fun serves => absurd unserved serves
  cases source with
  | passthrough =>
      have served : (session.reactor.client.passthroughConnection readers).1.served =
          Function.update session.reactor.client.served session.reactor.client.sockets
            (some ⟨session.reactor.client.nextid + 1, .passthrough⟩) := ClientManager.lookup_insert_map
      apply inv.connected
      · rfl
      · intro other different
        simp [Reactor.acceptConnection, Reactor.sendRequest, ClientManager.passthroughConnection,
          ClientManager.polled, Poller.interest_add, different]
      · exact fun _ _ => rfl
      · intro other different
        exact (congrFun served other).trans (Function.update_of_ne different ..)
      · constructor
        · intro _ absent
          exact ((Poller.add_known ..).mp absent).2 ⟨rfl, rfl⟩
        · intro _ missing
          have serves := (congrFun served session.reactor.client.sockets).symm.trans missing
          rw [Function.update_self] at serves
          cases serves
      · intro _
        by_contra waits
        exact Nat.lt_irrefl _ (inv.queued _ waits)
  | proxy => exact connects .proxy
  | web => exact connects .web
  | icap => exact connects .icap
  | tls => exact connects .tls

/-- What is known of a client that waits for its first request. -/
theorem waiting (inv : session.Inv) {identity : Client.Identity}
    (waits : session.reactor.client.waiting client = some identity) :
    session.reactor.client.polled client = .absent ∧ client ∉ session.batch ∧
      session.pending client = 0 := by
  have unknown := mt (inv.accepted client) fun early => by
    rw [waits] at early
    cases early.1
  simp only [not_or, ne_eq, not_not, Nat.not_lt, Nat.le_zero] at unknown
  exact unknown

/-- The first request of a client has been read. -/
theorem promoted (inv : session.Inv) {identity : Client.Identity}
    (waits : session.reactor.client.waiting client = some identity)
    (promoted : ClientManager.Promoted client session.reactor.client reactor.client)
    (others : ∀ other, other ≠ client →
      reactor.client.polled other = session.reactor.client.polled other)
    (corked : reactor.client.polled client = .corked) {pending : Sock → Nat}
    (asked : pending = Function.update session.pending client 1) :
    ({ session with reactor, pending } : Session ρ).Inv := by
  obtain ⟨unpolled, unread, free⟩ := inv.waiting waits
  have accepted := inv.queued client (by rw [waits]; simp)
  subst asked
  constructor
  · intro other pends
    by_cases same : other = client
    · simp [same, corked]
    · simp only [Function.update_of_ne same] at pends
      simp only [others other same]
      exact inv.unwatched other pends
  · intro other pends
    by_cases same : other = client
    · rw [same]
      exact unread
    · simp only [Function.update_of_ne same] at pends
      exact inv.unread other pends
  · intro other
    by_cases same : other = client
    · simp [same]
    · simp only [Function.update_of_ne same]
      exact inv.once other
  · intro other serves
    by_cases same : other = client
    · simp [same, corked]
    · simp only [promoted.served, Function.update_of_ne same] at serves
      simp only [others other same]
      exact inv.known other serves
  · intro other present
    simp only [promoted.waiting, promoted.sockets]
    by_cases same : other = client
    · subst same
      exact ⟨Function.update_self .., accepted⟩
    · simp only [others other same, Function.update_of_ne same] at present
      rw [Function.update_of_ne same]
      exact inv.accepted other present
  · intro other waits
    simp only [promoted.waiting, promoted.sockets] at waits ⊢
    by_cases same : other = client
    · rw [same]
      exact accepted
    · rw [Function.update_of_ne same] at waits
      exact inv.queued other waits
  · exact inv.distinct

theorem incomingRequest (inv : before.Inv) {recv : List Recv}
    (ok : before.take readers (.turn (.incomingRequest client recv)) = .ok after) : after.Inv := by
  have opening : Opening readers before.reactor.client client recv _ :=
    ClientManager.readRequest_opening recv
  obtain ⟨reactor, taken, rfl⟩ := map_ok ok
  simp only [Reactor.take, Reactor.incomingRequest] at taken
  simp only [Reactor.asks, Reactor.Turn.reads, Reactor.Turn.starts, tally_none, Option.elim_none, Nat.sub_zero]
  generalize before.reactor.client.readRequest readers client recv = result at opening taken ⊢
  cases opening with
  | absent missing =>
      cases taken
      exact inv
  | raised => cases taken
  | asked held found text reader read =>
      cases taken
      have waits := ClientManager.waiting_found found
      obtain ⟨unpolled, _, free⟩ := inv.waiting waits
      apply inv.promoted waits (Opening.promoted found)
      · intro other different
        simp [ClientManager.polled, Reactor.sendRequest, Poller.interest_cork, Poller.interest_remove,
          Poller.interest_add, different]
      · simp only [ClientManager.polled] at unpolled
        simp [ClientManager.polled, Reactor.sendRequest, Poller.interest_cork, Poller.interest_remove,
          Poller.interest_add, unpolled]
      · funext other
        rw [Function.update_apply]
        by_cases same : other = client
        · simp [Reactor.asks.requester, same, free]
        · simp [Reactor.asks.requester, same, Ne.symm same]
  | closed held found =>
      cases taken
      exact inv.quiet ClientManager.cleanup_polled ClientManager.cleanup_unwatched
  | kept held found yielded reader read quiet =>
      have polled : Polled client before.reactor.client { before.reactor.client with
        norequest := before.reactor.client.norequest.insert client { held with reader } } :=
        (Opening.kept_alike found).polled rfl
      rcases quiet with rfl | ⟨data, rfl⟩
      · cases taken
        exact inv.quiet polled id
      · cases taken
        exact inv.quiet polled id

theorem incomingClientData (inv : before.Inv) {recv : List Recv} {send : Send}
    (reported : before.Reported (.turn (.incomingClientData client recv send)))
    (ok : before.take readers (.turn (.incomingClientData client recv send)) = .ok after) :
    after.Inv := by
  have reading : Reading readers before.reactor.client client recv _ :=
    ClientManager.readData_reading recv
  have read : client ∈ before.batch := of_decide_eq_true reported
  have free : before.pending client = 0 := by
    by_contra pending
    exact inv.unread client (Nat.pos_of_ne_zero pending) read
  have fewer : (before.batch.erase client).Sublist before.batch := List.erase_sublist
  -- whatever is passed on to the server, nothing of the client is pending
  have passes : ∀ reactor, Polled client before.reactor.client reactor.client →
      ({ before with reactor, batch := before.batch.erase client } : Session ρ).Inv := by
    intro reactor polled
    refine inv.calm polled fewer (fun _ => Nat.le_refl _) ?_
    exact fun pending => absurd free (Nat.ne_of_gt pending)
  obtain ⟨reactor, taken, rfl⟩ := map_ok ok
  simp only [Reactor.take, Reactor.incomingClientData] at taken
  simp only [Reactor.asks, Reactor.Turn.reads, Reactor.Turn.starts, tally_none, Option.elim_some, Nat.sub_zero]
  generalize before.reactor.client.readData readers client recv = result at reading taken ⊢
  cases reading with
  | absent missing =>
      cases taken
      exact passes before.reactor .refl
  | raised => cases taken
  | asked held found text reader read =>
      cases taken
      have serves := ClientManager.served_found found
      have put : Polled client before.reactor.client
          (before.reactor.client.put client { held with reader }) :=
        (ClientManager.put_alike found { held with reader } rfl).polled rfl
      have others : ∀ other, other ≠ client → Reactor.asks.requester client
          (some (held.name, held.source, .request text)) ≠ some other := by
        intro other different same
        exact different (Option.some.inj same).symm
      refine inv.turned (put.trans ClientManager.cork_polled) fewer ?_ ?_ ?_ ?_
      · intro other different
        simp [Reactor.asks.requester, Ne.symm different]
      · simp [Reactor.asks.requester, free]
      · exact fun _ => .inr (by rw [serves]; simp)
      · intro _
        constructor
        · exact before.reactor.client.poller.cork_unwatched .readClient client
        · exact inv.distinct.not_mem_erase
  | closed held found =>
      cases taken
      exact passes _ ClientManager.cleanup_polled
  | kept held found yielded reader read quiet =>
      have put : Polled client before.reactor.client
          (before.reactor.client.put client { held with reader }) :=
        (ClientManager.put_alike found { held with reader } rfl).polled rfl
      rcases quiet with rfl | ⟨data, rfl⟩
      · cases taken
        exact passes _ put
      · cases taken
        apply passes
        split
        · exact put
        · exact Reactor.relay_polled put

/-- A decision is enacted: nothing of its client is pending then. -/
theorem enactDecision (inv : before.Inv) {decision : Decision} {outside : Reactor.Outside}
    (ok : before.take readers (.turn (.enactDecision client decision outside)) = .ok after) :
    after.Inv := by
  obtain ⟨reactor, enacts, rfl⟩ := map_ok ok
  have polled : Polled client before.reactor.client reactor.client :=
    Reactor.enactDecision_polled enacts
  have free : before.pending client - 1 = 0 := Nat.sub_eq_zero_of_le (inv.once client)
  simp only [Reactor.asks, Reactor.Turn.reads, Reactor.Turn.starts, tally_none, Option.elim_none,
    Nat.add_zero]
  refine inv.calm polled (.refl _) ?_ ?_
  · exact fun other => Nat.sub_le ..
  · intro pending
    simp only [tally_some, if_true, free] at pending
    exact absurd pending (Nat.lt_irrefl 0)

/-- Of all other turns only those that find a buffer emptied make a client be read. -/
theorem eased (inv : before.Inv) {turn : Reactor.Turn} {reactor : Reactor ρ}
    (keeps : before.Keeps (.turn turn)) (eased : Reactor.Eased client turn before.reactor reactor) :
    ({ before with reactor } : Session ρ).Inv := by
  refine inv.calm eased.polled (.refl _) (fun _ => Nat.le_refl _) ?_
  intro pending watched
  rcases eased.watched watched with earlier | ⟨released, held⟩
  · exact earlier
  · simp only [Keeps, released, Option.all_some, decide_eq_true_eq] at keeps
    exact absurd (keeps held) (Nat.ne_of_gt pending)

theorem take (inv : before.Inv) {move : Move} (reported : before.Reported move)
    (keeps : before.Keeps move) (ok : before.take readers move = .ok after) : after.Inv := by
  cases move with
  | poll reads =>
      cases ok
      exact inv.poll reported
  | turn turn =>
      cases turn with
      | acceptConnection source =>
          cases ok
          exact inv.acceptConnection source
      | incomingRequest client recv => exact inv.incomingRequest ok
      | incomingClientData client recv send => exact inv.incomingClientData reported ok
      | enactDecision client decision outside => exact inv.enactDecision ok
      | flushClientOutput client send =>
          obtain ⟨reactor, flushed, rfl⟩ := map_ok ok
          obtain ⟨sent, sends⟩ := Reactor.flushClientOutput_sends flushed
          exact inv.eased keeps (.sends sends)
      | completeWebConnection fetcher site send clientSend =>
          obtain ⟨reactor, completed, rfl⟩ := map_ok ok
          obtain ⟨client, eased⟩ := Reactor.completeWebConnection_eased completed
          exact inv.eased keeps eased
      | incomingWebData fetcher recv send =>
          obtain ⟨reactor, read, rfl⟩ := map_ok ok
          obtain ⟨client, eased⟩ := Reactor.incomingWebData_eased read
          exact inv.eased keeps eased
      | flushWebOutput fetcher send =>
          cases ok
          obtain ⟨client, eased⟩ := Reactor.flushWebOutput_eased before.reactor fetcher send
          exact inv.eased keeps eased
      | expire client =>
          cases ok
          exact inv.eased keeps Reactor.expire_eased

end Inv

/-- In every run in which no buffer for a server is found emptied while a request of
its client is pending, no client is read while a request of it is. -/
theorem requests_gated (run : Run readers Keeps session) : session.Gated := by
  have inv : session.Inv := Reachable.invariant run Inv (fun _ initial => initial ▸ .initial)
    fun _ _ _ inv ⟨_, reported, keeps, ok⟩ => inv.take reported keeps ok
  exact inv.gated

theorem foldlM_run {allows : Session ρ → Move → Prop} [∀ session, DecidablePred (allows session)]
    {moves : List Move} (followed : moves.foldlM (advance readers allows) {} = some session) :
    Run readers allows session := by
  have start : Run readers allows ({} : Session ρ) := .start rfl
  apply start.foldlM _ followed
  intro before move after advanced
  unfold advance at advanced
  split at advanced
  · next allowed =>
      cases taken : before.take readers move with
      | error raised =>
          rw [taken] at advanced
          cases advanced
      | ok next =>
          rw [taken] at advanced
          cases advanced
          exact ⟨move, allowed.1, allowed.2, taken⟩
  · cases advanced

/-- The server's socket does not take the next request. -/
def blocked : Reactor.Outside := { Reactor.calm with request := .wouldBlock }

/-- A client asks for three pages, one after the other.  Its second request waits in the
buffer for the server while the third is read. -/
def pipelined : List Move :=
  [.turn (.acceptConnection .proxy),
    .turn (.incomingRequest 0 [.data Reactor.request]),
    .turn (.enactDecision 0 ContentManager.firstRequest Reactor.calm),
    .turn (.completeWebConnection 0 ContentManager.anySite (.accepted 100) (.accepted 4)),
    .poll [0],
    .turn (.incomingClientData 0 [.data Reactor.request] (.accepted 4)),
    .turn (.enactDecision 0 ContentManager.firstRequest blocked),
    .poll [0],
    .turn (.incomingClientData 0 [.data Reactor.request] (.accepted 4))]

theorem requests_gated_pipelined : ∃ session : Session (Client.AnyReader Unit),
    session.pending 0 = 1 ∧ session.reactor.client.polled 0 = .corked := by
  have asked : ((pipelined.foldlM (advance Reactor.plainReaders Keeps) {}).map fun session =>
      (session.pending 0, decide (session.reactor.client.served 0 ≠ none))) = some (1, true) := by
    decide +kernel
  obtain ⟨session, followed, seen⟩ := Option.map_eq_some_iff.mp asked
  obtain ⟨pending, serves⟩ := Prod.mk.inj seen
  have gated := requests_gated (foldlM_run followed)
  exact ⟨session, pending, gated.corked 0 (by rw [pending]; decide) (of_decide_eq_true serves)⟩

/-- The server takes the second request while the third is pending. -/
def overtaken : List Move := pipelined ++ [.turn (.flushWebOutput 0 (.accepted 100))]

theorem pipelined_watched : ∃ session : Session (Client.AnyReader Unit),
    Run Reactor.plainReaders Watched session ∧ session.reactor.client.sourceOf 0 = some .proxy ∧
      session.pending 0 = 1 ∧ session.reactor.client.polled 0 = .watched := by
  have flushed : ((overtaken.foldlM (advance Reactor.plainReaders Watched) {}).map fun session =>
      (session.reactor.client.sourceOf 0, session.pending 0, session.reactor.client.polled 0)) =
        some (some .proxy, 1, .watched) := by
    decide +kernel
  obtain ⟨session, followed, seen⟩ := Option.map_eq_some_iff.mp flushed
  simp only [Prod.mk.injEq] at seen
  exact ⟨session, foldlM_run followed, seen⟩

end Session

end ExaProxy
