import ExaProxy.Client.Manager
import ExaProxy.Data.Transition
import Mathlib.Data.Finset.Card

namespace ExaProxy.Client

open ExaProxy.Data ExaProxy.Network
open ExaProxy.Content (Send Reply Remaining)

namespace ClientManager

variable {ρ : Type} {readers : Readers ρ} {manager : ClientManager ρ} {sock other : Sock}
  {client : Connected ρ} {source : Source} {data : Option Str} {send : Send} {name : Nat}

/-- What `sendData` can do. -/
inductive Sending (manager : ClientManager ρ) (sock : Sock) (data : Option Str) (send : Send) :
    ClientManager ρ × Sent → Prop
  | absent (missing : manager.bysock.lookup sock = none) :
      Sending manager sock data send (manager, ⟨none, none, none, none⟩)
  | closed (client : Connected ρ) (found : manager.bysock.lookup sock = some client)
      (ended : (client.writer.resume data send).1 = none) :
      Sending manager sock data send
        (manager.cleanup sock client.name, ⟨none, some false, some client.name, some client.source⟩)
  | kept (client : Connected ρ) (found : manager.bysock.lookup sock = some client) (writer : Writer)
      (buffered hadBuffer : Bool)
      (resumed : client.writer.resume data send = (some (buffered, hadBuffer), writer)) :
      Sending manager sock data send
        (((manager.put sock { client with writer }).noteBuffer sock buffered hadBuffer).1,
          ⟨some buffered,
            some ((manager.put sock { client with writer }).noteBuffer sock buffered hadBuffer).2,
            some client.name, some client.source⟩)

theorem sendData_sending {result : ClientManager ρ × Sent}
    (ok : manager.sendData sock data send = .ok result) : Sending manager sock data send result := by
  unfold sendData at ok
  cases found : manager.bysock.lookup sock with
  | none =>
      simp only [found] at ok
      cases ok
      exact .absent found
  | some client =>
      simp only [found, Writer.writeData] at ok
      split at ok
      · cases ok
      · cases resumed : client.writer.resume data send with
        | mk res writer =>
            simp only [resumed, Except.map] at ok
            cases ok
            cases res with
            | none => exact .closed client found (by rw [resumed])
            | some state => exact .kept client found writer state.1 state.2 resumed

theorem startData_stream_nil {writer after : Writer} {file : Option Str} {buffered hadBuffer : Bool}
    (ok : writer.startData source (.stream []) send file = .ok (some (buffered, hadBuffer), after))
    (empty : hadBuffer = false) : buffered = false := by
  simp only [Writer.startData, Writer.turn, Option.getD_some, List.append_nil, Option.isNone_some,
    Bool.or_false, Bool.false_eq_true, false_and, if_false, or_true, if_true] at ok
  cases send with
  | accepted count =>
      simp only [Except.ok.injEq, Prod.mk.injEq, Option.some.injEq] at ok
      obtain ⟨⟨rfl, rfl⟩, _⟩ := ok
      have nothing : writer.wBuffer = [] := by simpa using empty
      simp [nothing]
  | wouldBlock =>
      simp only [Except.ok.injEq, Prod.mk.injEq, Option.some.injEq] at ok
      obtain ⟨⟨rfl, rfl⟩, _⟩ := ok
      simpa using empty
  | failed => simp at ok

theorem cleanup_uncorked (found : manager.bysock.lookup sock = some client) (changed : Connected ρ)
    (name : Nat) :
    ({ manager.put sock changed with
      poller := manager.poller.uncork .readClient sock } : ClientManager ρ).cleanup sock name =
        manager.cleanup sock name := by
  have held : sock ∈ manager.bysock := lookup_mem found
  have polled : (((manager.poller.uncork Event.readClient sock).remove .writeClient sock).remove
      .readClient sock).remove .openingClient sock =
        ((manager.poller.remove .writeClient sock).remove .readClient sock).remove
          .openingClient sock := by
    apply congrArg Poller.mk
    funext event member
    simp only [Poller.remove, Poller.interest_put, Poller.interest_uncork]
    grind
  simp only [cleanup, put, AList.mem_insert, true_or, held, if_true, insert_erase, polled]

/-- What `startData` can do. -/
inductive Starting (readers : Readers ρ) (manager : ClientManager ρ) (sock : Sock)
    (reply : Option Reply) (remaining : Remaining) (send : Send) (file : Option Str)
    (recv : List Recv) : ClientManager ρ × Option Str × Option Source → Prop
  | absent (missing : manager.bysock.lookup sock = none) :
      Starting readers manager sock reply remaining send file recv (manager, none, none)
  | unanswered (client : Connected ρ) (found : manager.bysock.lookup sock = some client)
      (invalid : reply = none) :
      Starting readers manager sock reply remaining send file recv
        (manager, none, some client.source)
  | closed (client : Connected ρ) (found : manager.bysock.lookup sock = some client) :
      Starting readers manager sock reply remaining send file recv
        (manager.cleanup sock client.name, none, some client.source)
  | kept (client : Connected ρ) (found : manager.bysock.lookup sock = some client) (content : Reply)
      (valid : reply = some content) (writer : Writer) (buffered hadBuffer : Bool)
      (answered : client.writer.startData client.source content send file =
        .ok (some (buffered, hadBuffer), writer))
      (yielded : Yielded) (reader : ρ) (data : Str)
      (read : readers.readRelated client.reader (parseRemaining remaining).1
        (parseRemaining remaining).2 recv = (yielded, reader))
      (yields : yielded = .content data ∨ yielded = .nothing ∧ data = [])
      (started : ClientManager ρ)
      (noted : ({ manager.put sock { client with writer, reader } with
        poller := manager.poller.uncork .readClient sock } : ClientManager ρ).startBuffer sock
          buffered hadBuffer = .ok started) :
      Starting readers manager sock reply remaining send file recv
        (started, some data, some client.source)

theorem startData_starting {reply : Option Reply} {remaining : Remaining} {file : Option Str}
    {recv : List Recv} {result : ClientManager ρ × Option Str × Option Source}
    (ok : manager.startData readers sock reply remaining send file recv = .ok result) :
    Starting readers manager sock reply remaining send file recv result := by
  unfold startData at ok
  cases found : manager.bysock.lookup sock with
  | none =>
      simp only [found] at ok
      cases ok
      exact .absent found
  | some client =>
      cases reply with
      | none =>
          simp only [found] at ok
          cases ok
          exact .unanswered client found rfl
      | some content =>
          simp only [found, bind, Except.bind, pure, Except.pure] at ok
          cases answered : client.writer.startData client.source content send file with
          | error raised => simp [answered] at ok
          | ok written =>
              obtain ⟨res, writer⟩ := written
              cases res with
              | none =>
                  simp only [answered] at ok
                  cases ok
                  exact .closed client found
              | some state =>
                  obtain ⟨buffered, hadBuffer⟩ := state
                  simp only [answered, startReading] at ok
                  cases read : readers.readRelated client.reader (parseRemaining remaining).1
                    (parseRemaining remaining).2 recv with
                  | mk yielded reader =>
                      simp only [read] at ok
                      have closed := cleanup_uncorked found { client with writer, reader } client.name
                      cases yielded with
                      | raised => cases ok
                      | request text =>
                          cases ok
                          exact closed ▸ .closed client found
                      | closed =>
                          cases ok
                          exact closed ▸ .closed client found
                      | content data =>
                          obtain ⟨_, mapped, same⟩ := bind_ok ok
                          obtain ⟨started, noted, rfl⟩ := map_ok mapped
                          cases same
                          exact .kept client found content rfl writer buffered hadBuffer answered _
                            reader data read (.inl rfl) started noted
                      | nothing =>
                          obtain ⟨_, mapped, same⟩ := bind_ok ok
                          obtain ⟨started, noted, rfl⟩ := map_ok mapped
                          cases same
                          exact .kept client found content rfl writer buffered hadBuffer answered _
                            reader [] read (.inr ⟨rfl, rfl⟩) started noted

/-! ### The clients that are held -/

/-- The client of `bysock` with this socket. -/
def served (manager : ClientManager ρ) (sock : Sock) : Option Identity :=
  (manager.bysock.lookup sock).map Connected.toIdentity

/-- The client of `norequest` with this socket. -/
def waiting (manager : ClientManager ρ) (sock : Sock) : Option Identity :=
  (manager.norequest.lookup sock).map Connected.toIdentity

/-- The same clients are held. -/
structure Alike (before after : ClientManager ρ) : Prop where
  served : after.served = before.served
  waiting : after.waiting = before.waiting
  sockets : after.sockets = before.sockets

/-- A client is no longer held. -/
structure Dropped (sock : Sock) (before after : ClientManager ρ) : Prop where
  served : after.served = Function.update before.served sock none
  waiting : after.waiting = Function.update before.waiting sock none
  sockets : after.sockets = before.sockets

variable {before after middle : ClientManager ρ}

theorem Alike.refl : Alike manager manager := ⟨rfl, rfl, rfl⟩

theorem Alike.trans (first : Alike before middle) (second : Alike middle after) :
    Alike before after :=
  ⟨second.served.trans first.served, second.waiting.trans first.waiting,
    second.sockets.trans first.sockets⟩

theorem Alike.dropped (alike : Alike before middle) (dropped : Dropped sock middle after) :
    Dropped sock before after :=
  ⟨by rw [dropped.served, alike.served], by rw [dropped.waiting, alike.waiting],
    dropped.sockets.trans alike.sockets⟩

theorem Alike.of_eq (bysock : after.bysock = before.bysock)
    (norequest : after.norequest = before.norequest) (sockets : after.sockets = before.sockets) :
    Alike before after :=
  ⟨by funext; simp only [ClientManager.served, bysock],
    by funext; simp only [ClientManager.waiting, norequest], sockets⟩

theorem served_found (found : manager.bysock.lookup sock = some client) :
    manager.served sock = some client.toIdentity := by
  simp only [ClientManager.served, found, Option.map_some]

theorem waiting_found (found : manager.norequest.lookup sock = some client) :
    manager.waiting sock = some client.toIdentity := by
  simp only [ClientManager.waiting, found, Option.map_some]

theorem lookup_insert_map {dict : AList (fun _ : Sock => Connected ρ)} :
    (fun other => ((dict.insert sock client).lookup other).map Connected.toIdentity) =
      Function.update (fun other => (dict.lookup other).map Connected.toIdentity) sock
        (some client.toIdentity) := by
  funext other
  by_cases same : other = sock
  · subst same
    simp
  · simp [AList.lookup_insert_ne same, same]

theorem lookup_erase_map {dict : AList (fun _ : Sock => Connected ρ)} :
    (fun other => ((dict.erase sock).lookup other).map Connected.toIdentity) =
      Function.update (fun other => (dict.lookup other).map Connected.toIdentity) sock none := by
  funext other
  by_cases same : other = sock
  · subst same
    simp
  · simp [AList.lookup_erase_ne same, same]

theorem put_alike (found : manager.bysock.lookup sock = some client) (changed : Connected ρ)
    (same : changed.toIdentity = client.toIdentity) : Alike manager (manager.put sock changed) where
  served := by
    rw [← Function.update_eq_self sock manager.served, served_found found, ← same]
    exact lookup_insert_map
  waiting := rfl
  sockets := rfl

theorem cleanup_dropped : Dropped sock manager (manager.cleanup sock name) :=
  ⟨lookup_erase_map, lookup_erase_map, rfl⟩

theorem noteBuffer_buffered (manager : ClientManager ρ) (sock : Sock) (buffered hadBuffer : Bool) :
    (buffered = true ∧ sock ∉ manager.buffered ∧
        (manager.noteBuffer sock buffered hadBuffer).1.buffered = manager.buffered ++ [sock] ∧
        (manager.noteBuffer sock buffered hadBuffer).2 = true) ∨
      (buffered = false ∧
        (manager.noteBuffer sock buffered hadBuffer).1.buffered = manager.buffered.erase sock ∧
        (manager.noteBuffer sock buffered hadBuffer).2 = true) ∨
      ((manager.noteBuffer sock buffered hadBuffer).1.buffered = manager.buffered ∧
        (manager.noteBuffer sock buffered hadBuffer).2 = false) := by
  unfold noteBuffer
  cases buffered with
  | true =>
      by_cases known : sock ∈ manager.buffered
      · simp [known]
      · simp [known]
  | false =>
      by_cases emptied : hadBuffer = true ∧ sock ∈ manager.buffered
      · simp [emptied]
      · simp [emptied]

theorem noteBuffer_alike (sock : Sock) (buffered hadBuffer : Bool) :
    Alike manager (manager.noteBuffer sock buffered hadBuffer).1 := by
  unfold noteBuffer
  split
  · split <;> exact ⟨rfl, rfl, rfl⟩
  · split <;> exact ⟨rfl, rfl, rfl⟩

theorem polled_alike (poller : Poller Event) : Alike manager { manager with poller } := ⟨rfl, rfl, rfl⟩

theorem startBuffer_buffered {buffered hadBuffer : Bool} {started : ClientManager ρ}
    (ok : manager.startBuffer sock buffered hadBuffer = .ok started) :
    (buffered = true ∧ hadBuffer = false ∧ started.buffered = manager.buffered ++ [sock]) ∨
      started.buffered = manager.buffered.erase sock ∨ started.buffered = manager.buffered := by
  unfold startBuffer at ok
  split at ok
  · next added =>
      cases ok
      exact .inl ⟨added.1, added.2, rfl⟩
  · split at ok
    · split at ok
      · cases ok
        exact .inr (.inl rfl)
      · cases ok
    · cases ok
      exact .inr (.inr rfl)

theorem startBuffer_alike {buffered hadBuffer : Bool} {started : ClientManager ρ}
    (ok : manager.startBuffer sock buffered hadBuffer = .ok started) : Alike manager started := by
  unfold startBuffer at ok
  split at ok
  · cases ok
    exact ⟨rfl, rfl, rfl⟩
  · split at ok
    · split at ok
      · cases ok
        exact ⟨rfl, rfl, rfl⟩
      · cases ok
    · cases ok
      exact .refl

theorem corkUpload_alike : Alike manager (manager.corkUpload sock) := by
  unfold corkUpload
  split <;> exact ⟨rfl, rfl, rfl⟩

theorem uncorkUpload_alike : Alike manager (manager.uncorkUpload sock) := by
  unfold uncorkUpload
  split <;> exact ⟨rfl, rfl, rfl⟩

theorem Sending.alike {result : ClientManager ρ × Sent} (sending : Sending manager sock data send result) :
    Alike manager result.1 ∧ (result.2.status = none → result.2.source = none) ∨
      Dropped sock manager result.1 ∧ result.2.status = none ∧ result.2.name ≠ none ∧
        result.2.source = (manager.served sock).map Identity.source := by
  cases sending with
  | absent missing => exact .inl ⟨.refl, fun _ => rfl⟩
  | closed client found ended =>
      exact .inr ⟨cleanup_dropped, rfl, by simp, by rw [served_found found]; rfl⟩
  | kept client found writer buffered hadBuffer resumed =>
      have put := put_alike found { client with writer } rfl
      exact .inl ⟨put.trans (noteBuffer_alike ..), by simp⟩

theorem Starting.alike {reply : Option Reply} {remaining : Remaining} {file : Option Str}
    {recv : List Recv} {result : ClientManager ρ × Option Str × Option Source}
    (starting : Starting readers manager sock reply remaining send file recv result)
    (valid : reply ≠ none) :
    Alike manager result.1 ∧ (result.2.1 = none → result.2.2 = none) ∨
      Dropped sock manager result.1 ∧ result.2.1 = none ∧
        result.2.2 = (manager.served sock).map Identity.source := by
  cases starting with
  | absent missing => exact .inl ⟨.refl, fun _ => rfl⟩
  | unanswered client found invalid => exact absurd invalid valid
  | closed client found =>
      exact .inr ⟨cleanup_dropped, rfl, by rw [served_found found]; rfl⟩
  | kept client found content valid writer buffered hadBuffer answered yielded reader data read
      yields started noted =>
      have put := put_alike found { client with writer, reader } rfl
      exact .inl ⟨(put.trans (polled_alike _)).trans (startBuffer_alike noted), by simp⟩

/-- The first request makes a client one of `bysock`. -/
structure Promoted (sock : Sock) (before after : ClientManager ρ) : Prop where
  served : after.served = Function.update before.served sock (before.waiting sock)
  waiting : after.waiting = Function.update before.waiting sock none
  sockets : after.sockets = before.sockets

/-- What `readRequest` can do. -/
inductive Opening (readers : Readers ρ) (manager : ClientManager ρ) (sock : Sock)
    (recv : List Recv) : ClientManager ρ × Option (Nat × Source × Yielded) → Prop
  | absent (missing : manager.norequest.lookup sock = none) :
      Opening readers manager sock recv (manager, none)
  | asked (client : Connected ρ) (found : manager.norequest.lookup sock = some client)
      (text : Str) (reader : ρ)
      (read : readers.readData client.reader recv = (.request text, reader)) :
      Opening readers manager sock recv
        ({ manager with
          norequest := manager.norequest.erase sock
          bysock := manager.bysock.insert sock { client with reader }
          poller := ((manager.poller.add .readClient sock).remove .openingClient sock).cork
            .readClient sock }, some (client.name, client.source, .request text))
  | closed (client : Connected ρ) (found : manager.norequest.lookup sock = some client) :
      Opening readers manager sock recv
        (manager.cleanup sock client.name, some (client.name, client.source, .closed))
  | raised (client : Connected ρ) (found : manager.norequest.lookup sock = some client)
      (error : Raised) (reader : ρ) (read : readers.readData client.reader recv = (.raised error, reader)) :
      Opening readers manager sock recv (manager, some (client.name, client.source, .raised error))
  | kept (client : Connected ρ) (found : manager.norequest.lookup sock = some client)
      (yielded : Yielded) (reader : ρ) (read : readers.readData client.reader recv = (yielded, reader))
      (quiet : yielded = .nothing ∨ ∃ data, yielded = .content data) :
      Opening readers manager sock recv
        ({ manager with norequest := manager.norequest.insert sock { client with reader } },
          some (client.name, client.source, yielded))

theorem readRequest_opening (recv : List Recv) :
    Opening readers manager sock recv (manager.readRequest readers sock recv) := by
  unfold readRequest
  cases found : manager.norequest.lookup sock with
  | none => exact .absent found
  | some client =>
      cases read : readers.readData client.reader recv with
      | mk yielded reader =>
          simp only [read]
          cases yielded with
          | request text => exact .asked client found text reader read
          | closed => exact .closed client found
          | raised error => exact .raised client found error reader read
          | content data => exact .kept client found (.content data) reader read (.inr ⟨data, rfl⟩)
          | nothing => exact .kept client found .nothing reader read (.inl rfl)

theorem Opening.promoted (found : manager.norequest.lookup sock = some client) {reader : ρ}
    {poller : Poller Event} : Promoted sock manager { manager with
      norequest := manager.norequest.erase sock
      bysock := manager.bysock.insert sock { client with reader }
      poller } where
  served := by
    rw [waiting_found found]
    exact lookup_insert_map
  waiting := lookup_erase_map
  sockets := rfl

theorem Opening.kept_alike (found : manager.norequest.lookup sock = some client) {reader : ρ} :
    Alike manager { manager with norequest := manager.norequest.insert sock { client with reader } } where
  served := rfl
  waiting := by
    rw [← Function.update_eq_self sock manager.waiting, waiting_found found]
    exact lookup_insert_map
  sockets := rfl

/-- What `readData` can do. -/
inductive Reading (readers : Readers ρ) (manager : ClientManager ρ) (sock : Sock)
    (recv : List Recv) : ClientManager ρ × Option (Nat × Source × Yielded) → Prop
  | absent (missing : manager.bysock.lookup sock = none) :
      Reading readers manager sock recv (manager, none)
  | asked (client : Connected ρ) (found : manager.bysock.lookup sock = some client)
      (text : Str) (reader : ρ)
      (read : readers.readData client.reader recv = (.request text, reader)) :
      Reading readers manager sock recv
        ({ manager.put sock { client with reader } with
          poller := manager.poller.cork .readClient sock },
          some (client.name, client.source, .request text))
  | closed (client : Connected ρ) (found : manager.bysock.lookup sock = some client) :
      Reading readers manager sock recv
        (manager.cleanup sock client.name, some (client.name, client.source, .closed))
  | raised (client : Connected ρ) (found : manager.bysock.lookup sock = some client)
      (error : Raised) (reader : ρ) (read : readers.readData client.reader recv = (.raised error, reader)) :
      Reading readers manager sock recv (manager, some (client.name, client.source, .raised error))
  | kept (client : Connected ρ) (found : manager.bysock.lookup sock = some client)
      (yielded : Yielded) (reader : ρ) (read : readers.readData client.reader recv = (yielded, reader))
      (quiet : yielded = .nothing ∨ ∃ data, yielded = .content data) :
      Reading readers manager sock recv
        (manager.put sock { client with reader }, some (client.name, client.source, yielded))

theorem readData_reading (recv : List Recv) :
    Reading readers manager sock recv (manager.readData readers sock recv) := by
  unfold readData
  cases found : manager.bysock.lookup sock with
  | none => exact .absent found
  | some client =>
      cases read : readers.readData client.reader recv with
      | mk yielded reader =>
          simp only [read]
          cases yielded with
          | request text => exact .asked client found text reader read
          | closed => exact .closed client found
          | raised error => exact .raised client found error reader read
          | content data => exact .kept client found (.content data) reader read (.inr ⟨data, rfl⟩)
          | nothing => exact .kept client found .nothing reader read (.inl rfl)

end ClientManager

end ExaProxy.Client
