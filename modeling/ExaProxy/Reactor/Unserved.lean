import ExaProxy.Client.IcapSession
import ExaProxy.Reactor.Delivery

namespace ExaProxy.Client.ClientManager

open ExaProxy.Data ExaProxy.Network
open ExaProxy.Content (Send Reply Remaining)

variable {ρ : Type} {readers : Readers ρ} {manager before middle after : ClientManager ρ} {sock : Sock}
  {client : Connected ρ} {data : Option Str} {send : Send} {sent : Sent}

/-- No client is new: those that wait have waited so, and those that are served were served. -/
structure Remain (before after : ClientManager ρ) : Prop where
  waits : ∀ {sock held}, after.norequest.lookup sock = some held → before.norequest.lookup sock = some held
  serves : ∀ {sock held}, after.bysock.lookup sock = some held →
    ∃ earlier, before.bysock.lookup sock = some earlier ∧ earlier.source = held.source

theorem Remain.refl : Remain manager manager := ⟨fun found => found, fun found => ⟨_, found, rfl⟩⟩

theorem Remain.trans (first : Remain before middle) (second : Remain middle after) : Remain before after where
  waits found := first.waits (second.waits found)
  serves found := by
    obtain ⟨served, found', same⟩ := second.serves found
    obtain ⟨earlier, found'', same'⟩ := first.serves found'
    exact ⟨earlier, found'', same'.trans same⟩

theorem Same.remain (same : Same before after) : Remain before after where
  waits found := by rwa [same.norequest] at found
  serves found := ⟨_, by rwa [same.bysock] at found, rfl⟩

theorem put_remain (found : manager.bysock.lookup sock = some client) (changed : Connected ρ)
    (same : client.source = changed.source) : Remain manager (manager.put sock changed) where
  waits found := found
  serves := by
    intro other held served
    by_cases here : other = sock
    · subst here
      rw [put, AList.lookup_insert] at served
      cases served
      exact ⟨client, found, same⟩
    · rw [put, AList.lookup_insert_ne here] at served
      exact ⟨held, served, rfl⟩

theorem lookup_erase_some {dict : AList (fun _ : Sock => Connected ρ)} {other : Sock}
    (found : (dict.erase sock).lookup other = some client) : dict.lookup other = some client := by
  by_cases here : other = sock
  · subst here
    rw [AList.lookup_erase] at found
    cases found
  · rwa [AList.lookup_erase_ne here] at found

theorem cleanup_remain {name : Nat} : Remain manager (manager.cleanup sock name) where
  waits := lookup_erase_some
  serves found := ⟨_, lookup_erase_some found, rfl⟩

theorem sendData_remain (ok : manager.sendData sock data send = .ok (after, sent)) : Remain manager after := by
  have sending := sendData_sending ok
  cases sending with
  | absent missing => exact .refl
  | closed client found ended => exact cleanup_remain
  | kept client found writer buffered hadBuffer resumed =>
      have put := put_remain found { client with writer } rfl
      exact put.trans (noteBuffer_still ..).toSame.remain

theorem startData_remain {reply : Option Reply} {remaining : Remaining} {file : Option Str}
    {recv : List Recv} {result : Option Str × Option Source}
    (ok : manager.startData readers sock reply remaining send file recv = .ok (after, result)) :
    Remain manager after := by
  have starting := startData_starting ok
  cases starting with
  | absent missing => exact .refl
  | unanswered client found invalid => exact .refl
  | closed client found => exact cleanup_remain
  | kept client found content valid writer buffered hadBuffer answered yielded reader data read
      yields started noted =>
      have put := put_remain found { client with writer, reader } rfl
      have buffer : Remain (manager.put sock { client with writer, reader }) after :=
        ⟨(startBuffer_still noted).toSame.remain.waits, (startBuffer_still noted).toSame.remain.serves⟩
      exact put.trans buffer

theorem readData_remain (recv : List Recv) : Remain manager (manager.readData readers sock recv).1 := by
  have reading : Reading readers manager sock recv _ := readData_reading recv
  generalize manager.readData readers sock recv = result at reading ⊢
  cases reading with
  | absent missing => exact .refl
  | raised => exact .refl
  | asked client found text reader read =>
      have put := put_remain found { client with reader } rfl
      exact ⟨put.waits, put.serves⟩
  | closed client found => exact cleanup_remain
  | kept client found yielded reader read quiet => exact put_remain found { client with reader } rfl

theorem expireOne_remain : Remain manager (manager.expireOne sock).1 := by
  unfold expireOne
  cases manager.norequest.lookup sock with
  | none => exact .refl
  | some client => exact cleanup_remain

end ExaProxy.Client.ClientManager

namespace ExaProxy.Reactor

open ExaProxy.Data ExaProxy.Network
open ExaProxy.Client (Source Recv Settings AnyReader ClientManager)
open ExaProxy.Client.ClientManager (Remain Opening)
open ExaProxy.Client.IcapClient (icapReaders)
open ExaProxy.Content (Send Site Decision ContentManager)

section Remaining

/-! Only `acceptConnection` and `incomingRequest` have to do with clients that are new. -/

variable {ρ : Type} {readers : Client.Readers ρ} {reactor before after : Reactor ρ} {client fetcher : Sock}
  {send : Send}

theorem incomingClientData_remain {recv : List Recv}
    (ok : reactor.incomingClientData readers client recv send = .ok after) :
    Remain reactor.client after.client := by
  have read : Remain reactor.client (reactor.client.readData readers client recv).1 :=
    ClientManager.readData_remain recv
  unfold Reactor.incomingClientData at ok
  generalize reactor.client.readData readers client recv = result at read ok
  obtain ⟨manager, told⟩ := result
  dsimp only at read ok
  split at ok
  · cases ok
  · cases ok
    exact read
  · cases ok
    split
    · exact read
    · exact read.trans (relay_clients { reactor with client := manager } ..).toSame.remain
  all_goals
    cases ok
    exact read

theorem flushWebOutput_remain : Remain reactor.client (reactor.flushWebOutput fetcher send).client := by
  unfold Reactor.flushWebOutput
  generalize reactor.content.sendSocketData send fetcher [] = result
  obtain ⟨content, status, bufferChange, owner⟩ := result
  cases owner with
  | none => exact .refl
  | some owner => exact (noteUpload_clients { reactor with content } owner status bufferChange).toSame.remain

theorem expire_remain : Remain reactor.client (reactor.expire client).client := by
  unfold Reactor.expire
  rw [closeClient_clients]
  exact ClientManager.expireOne_remain

theorem completeWebConnection_remain {site : Site} {clientSend : Send}
    (ok : reactor.completeWebConnection fetcher site send clientSend = .ok after) :
    Remain reactor.client after.client := by
  obtain ⟨_, rfl⟩ | ⟨client, _, rest⟩ := completeWebConnection_ok ok
  · exact .refl
  · have noted := noteUpload_clients
      { reactor with content := (reactor.content.startDownload site send fetcher).1 } client none
        (reactor.content.startDownload site send fetcher).2.2.2
    obtain rfl | ⟨response, _, _, answers⟩ := rest
    · exact noted.toSame.remain
    · obtain ⟨sent, sends⟩ := answerClient_client answers
      exact noted.toSame.remain.trans (ClientManager.sendData_remain sends)

theorem incomingWebData_remain {recv : Recv} (ok : reactor.incomingWebData fetcher recv send = .ok after) :
    Remain reactor.client after.client := by
  obtain ⟨_, same⟩ | ⟨client, sent, _, sends⟩ := incomingWebData_client ok
  · rw [same]
    exact .refl
  · exact ClientManager.sendData_remain sends

theorem enactDecision_remain {decision : Decision} {outside : Outside}
    (ok : reactor.enactDecision readers client decision outside = .ok after) :
    Remain reactor.client after.client := by
  obtain ⟨content, answer, manager, result, _, starts, clients⟩ := enactDecision_client ok
  have noted := noteUpload_clients { reactor with content } client answer.buffered answer.bufferChange
  exact (noted.toSame.remain.trans (ClientManager.startData_remain starts)).trans clients.toSame.remain

/-- The turns of clients that have yet to send a request. -/
def Turn.introduces : Turn → Bool
  | .acceptConnection _ | .incomingRequest _ _ => true
  | _ => false

theorem take_remain {turn : Turn} (settled : turn.introduces = false)
    (ok : before.take readers turn = .ok after) : Remain before.client after.client := by
  cases turn with
  | acceptConnection source => cases settled
  | incomingRequest client recv => cases settled
  | incomingClientData client recv send => exact incomingClientData_remain ok
  | flushClientOutput client send =>
      obtain ⟨sent, sends⟩ := flushClientOutput_client ok
      exact ClientManager.sendData_remain sends
  | completeWebConnection fetcher site send clientSend => exact completeWebConnection_remain ok
  | incomingWebData fetcher recv send => exact incomingWebData_remain ok
  | flushWebOutput fetcher send =>
      cases ok
      exact flushWebOutput_remain
  | enactDecision client decision outside => exact enactDecision_remain ok
  | expire client =>
      cases ok
      exact expire_remain

end Remaining

/-! The ICAP server never comes to a request. -/

abbrev EveryReader : Type := AnyReader Client.IcapClient.Session

/-- How the clients of every server are read. -/
abbrev allReaders (settings : Settings) (maxBuffer fuel : Nat) : Client.Readers EveryReader :=
  Client.readers settings (icapReaders settings maxBuffer fuel)

variable {settings : Settings} {maxBuffer fuel : Nat} {reactor before after : Reactor EveryReader}
  {client : Sock} {held : Client.Connected EveryReader}

/-- The clients of the ICAP server have not come to a header, and none is served. -/
structure Unserved (reactor : Reactor EveryReader) : Prop where
  waits : ∀ {client held}, reactor.client.norequest.lookup client = some held → held.source = .icap →
    ∃ session, held.reader = .icap session ∧ session.Idle
  serves : ∀ {client held}, reactor.client.bysock.lookup client = some held → held.source ≠ .icap

theorem Unserved.remain (unserved : before.Unserved) (remain : Remain before.client after.client) :
    after.Unserved where
  waits found := unserved.waits (remain.waits found)
  serves found icap := by
    obtain ⟨earlier, found', same⟩ := remain.serves found
    exact unserved.serves found' (same.trans icap)

theorem Unserved.initial : Unserved ({} : Reactor EveryReader) where
  waits found := by cases found
  serves found := by cases found

theorem Unserved.wait (unserved : reactor.Unserved) (client : Sock) (held : Client.Connected EveryReader)
    (idle : held.source = .icap → ∃ session, held.reader = .icap session ∧ session.Idle) :
    Unserved { reactor with client := { reactor.client with
      norequest := reactor.client.norequest.insert client held } } where
  waits := by
    intro other held' found
    by_cases here : other = client
    · subst here
      rw [AList.lookup_insert] at found
      cases found
      exact idle
    · rw [AList.lookup_insert_ne here] at found
      exact unserved.waits found
  serves := unserved.serves

theorem Unserved.serve (unserved : reactor.Unserved) (client : Sock) (held : Client.Connected EveryReader)
    (other : held.source ≠ .icap) :
    Unserved { reactor with client := { reactor.client with
      norequest := reactor.client.norequest.erase client
      bysock := reactor.client.bysock.insert client held } } where
  waits found := unserved.waits (ClientManager.lookup_erase_some found)
  serves := by
    intro sock held' found
    by_cases here : sock = client
    · subst here
      rw [AList.lookup_insert] at found
      cases found
      exact other
    · rw [AList.lookup_insert_ne here] at found
      exact unserved.serves found

theorem Unserved.acceptConnection (unserved : reactor.Unserved) (source : Source) :
    (reactor.acceptConnection (allReaders settings maxBuffer fuel) source).Unserved := by
  have waits (idle : source = .icap → ∃ session,
      (allReaders settings maxBuffer fuel).start source = .icap session ∧ session.Idle) :=
    unserved.wait reactor.client.sockets
      ⟨⟨reactor.client.nextid + 1, source⟩, (allReaders settings maxBuffer fuel).start source, {}⟩ idle
  cases source with
  | passthrough =>
      have served := unserved.serve reactor.client.sockets
        ⟨⟨reactor.client.nextid + 1, .passthrough⟩, (allReaders settings maxBuffer fuel).start .passthrough, {}⟩
        (by simp)
      exact ⟨unserved.waits, served.serves⟩
  | icap =>
      have waiting := waits fun _ => ⟨_, rfl, Client.IcapClient.Session.start_idle (settings.proxied .icap)⟩
      exact ⟨waiting.waits, waiting.serves⟩
  | proxy | web | tls =>
      have waiting := waits (by simp)
      exact ⟨waiting.waits, waiting.serves⟩

theorem Unserved.silent (unserved : reactor.Unserved) {recv : List Recv} {yielded : Client.Yielded}
    {reader : EveryReader} (found : reactor.client.norequest.lookup client = some held)
    (icap : held.source = .icap)
    (read : (allReaders settings maxBuffer fuel).readData held.reader recv = (yielded, reader)) :
    yielded = .closed ∨ yielded = .nothing ∧ ∃ session, reader = .icap session ∧ session.Idle := by
  obtain ⟨session, reads, idle⟩ := unserved.waits found icap
  rw [reads] at read
  cases told : (icapReaders settings maxBuffer fuel).readData session recv with
  | mk output after =>
      simp only [allReaders, Client.readers, told, Prod.mk.injEq] at read
      obtain ⟨rfl, rfl⟩ := read
      obtain closed | ⟨nothing, kept⟩ := Client.IcapClient.readData_silent idle told
      · exact .inl closed
      · exact .inr ⟨nothing, after, rfl, kept⟩

theorem Unserved.incomingRequest (unserved : reactor.Unserved) {recv : List Recv}
    (ok : reactor.incomingRequest (allReaders settings maxBuffer fuel) client recv = .ok after) : after.Unserved := by
  have opening : Opening (allReaders settings maxBuffer fuel) reactor.client client recv _ :=
    ClientManager.readRequest_opening recv
  unfold Reactor.incomingRequest at ok
  generalize reactor.client.readRequest _ client recv = result at opening ok
  cases opening with
  | absent missing =>
      cases ok
      exact unserved.remain .refl
  | raised => cases ok
  | asked held found text reader read =>
      have served := unserved.serve client { held with reader } (by
        intro icap
        obtain closed | ⟨nothing, _⟩ := unserved.silent found icap read
        · cases closed
        · cases nothing)
      cases ok
      exact ⟨served.waits, served.serves⟩
  | closed held found =>
      cases ok
      exact unserved.remain ClientManager.cleanup_remain
  | kept held found yielded reader read quiet =>
      have waiting := unserved.wait client { held with reader } (by
        intro icap
        obtain closed | ⟨_, session, kept, idle⟩ := unserved.silent found icap read
        · subst closed
          simp at quiet
        · exact ⟨session, kept, idle⟩)
      obtain rfl | ⟨data, rfl⟩ := quiet
      · cases ok
        exact waiting
      · cases ok
        exact waiting

theorem Unserved.take (unserved : before.Unserved) {turn : Turn}
    (ok : before.take (allReaders settings maxBuffer fuel) turn = .ok after) : after.Unserved := by
  cases settled : turn.introduces with
  | false => exact unserved.remain (take_remain settled ok)
  | true =>
      cases turn with
      | acceptConnection source =>
          cases ok
          exact unserved.acceptConnection source
      | incomingRequest client recv => exact unserved.incomingRequest ok
      | incomingClientData | flushClientOutput | completeWebConnection | incomingWebData | flushWebOutput
      | enactDecision | expire => cases settled

/-- Where a client of the ICAP server is read, the redirector is not asked. -/
theorem Unserved.unasked (unserved : reactor.Unserved) (found : reactor.client.norequest.lookup client = some held)
    (icap : held.source = .icap) (recv : List Recv) : ∃ after,
    reactor.incomingRequest (allReaders settings maxBuffer fuel) client recv = .ok after ∧
      after.asked = reactor.asked := by
  have opening : Opening (allReaders settings maxBuffer fuel) reactor.client client recv _ :=
    ClientManager.readRequest_opening recv
  unfold Reactor.incomingRequest
  generalize reactor.client.readRequest _ client recv = result at opening ⊢
  cases opening with
  | absent missing => exact ⟨_, rfl, rfl⟩
  | asked served waiting text reader read =>
      cases waiting.symm.trans found
      obtain closed | ⟨nothing, _⟩ := unserved.silent found icap read
      · cases closed
      · cases nothing
  | raised served waiting error reader read =>
      cases waiting.symm.trans found
      obtain closed | ⟨nothing, _⟩ := unserved.silent found icap read
      · cases closed
      · cases nothing
  | closed served waiting => exact ⟨_, rfl, rfl⟩
  | kept served waiting yielded reader read quiet =>
      obtain rfl | ⟨data, rfl⟩ := quiet
      · exact ⟨_, rfl, rfl⟩
      · exact ⟨_, rfl, rfl⟩

end ExaProxy.Reactor
