import ExaProxy.Client.Flow
import ExaProxy.Reactor.Accounts

namespace ExaProxy.Client.ClientManager

open ExaProxy.Data ExaProxy.Network

variable {ρ : Type} {readers : Readers ρ} {manager before middle after : ClientManager ρ}
  {sock other : Sock} {client : Connected ρ}

/-- All clients but one are as they were. -/
structure Apart (sock : Sock) (before after : ClientManager ρ) : Prop where
  bysock : ∀ other, other ≠ sock → after.bysock.lookup other = before.bysock.lookup other
  norequest : ∀ other, other ≠ sock → after.norequest.lookup other = before.norequest.lookup other

theorem Apart.refl : Apart sock manager manager := ⟨fun _ _ => rfl, fun _ _ => rfl⟩

theorem Apart.trans (first : Apart sock before middle) (second : Apart sock middle after) :
    Apart sock before after :=
  ⟨fun other different => (second.bysock other different).trans (first.bysock other different),
    fun other different => (second.norequest other different).trans (first.norequest other different)⟩

theorem put_apart : Apart sock manager (manager.put sock client) :=
  ⟨fun _ different => AList.lookup_insert_ne different, fun _ _ => rfl⟩

theorem cleanup_apart {name : Nat} : Apart sock manager (manager.cleanup sock name) :=
  ⟨fun _ different => AList.lookup_erase_ne different, fun _ different => AList.lookup_erase_ne different⟩

/-- The same clients, in the same state. -/
structure Same (before after : ClientManager ρ) : Prop where
  bysock : after.bysock = before.bysock
  norequest : after.norequest = before.norequest

theorem Same.apart (same : Same before after) : Apart sock before after :=
  ⟨fun _ _ => by rw [same.bysock], fun _ _ => by rw [same.norequest]⟩

theorem noteBuffer_same (manager : ClientManager ρ) (sock : Sock) (buffered hadBuffer : Bool) :
    Same manager (manager.noteBuffer sock buffered hadBuffer).1 := by
  unfold noteBuffer
  split
  · split <;> exact ⟨rfl, rfl⟩
  · split <;> exact ⟨rfl, rfl⟩

theorem startBuffer_same {buffered hadBuffer : Bool} {started : ClientManager ρ}
    (ok : manager.startBuffer sock buffered hadBuffer = .ok started) : Same manager started := by
  unfold startBuffer at ok
  split at ok
  · cases ok
    exact ⟨rfl, rfl⟩
  · split at ok
    · split at ok
      · cases ok
        exact ⟨rfl, rfl⟩
      · cases ok
    · cases ok
      exact ⟨rfl, rfl⟩

end ExaProxy.Client.ClientManager

namespace ExaProxy

open ExaProxy.Data ExaProxy.Network
open ExaProxy.Client (Source Recv Readers ClientManager AnyReader Settings Connected)
open ExaProxy.Client.ClientManager (Apart Same Sending Starting Opening Reading)
open ExaProxy.Content (Send Site Decision ContentManager Reply Downloader)
open ExaProxy.Content.ContentManager (Enacted Fetching)

/-- The bytes that a reader yields besides requests. -/
def Client.Yielded.bytes : Client.Yielded → Str
  | .content data => data
  | .request _ | .nothing | .closed | .raised _ => []

/-- The decisions that are an answer in ICAP. -/
def Content.Decision.isIcap : Decision → Bool
  | .icap .. => true
  | _ => false

namespace Reactor

/-! What clients send is passed on to their servers, unless a client of the
passthrough server sends before its decision is there. -/

variable {ι : Type} {settings : Settings} {icap : Readers ι} {client other : Sock}

/-- A client that may send data, once its answer has begun. -/
def Pouring (held : Connected (AnyReader ι)) : Prop :=
  held.reader.flowing = true ∧ (held.source = .passthrough → held.writer.stage ≠ .created)

/-- A client has got a connection, or was told to close, when it may send data. -/
structure Settled (reactor : Reactor (AnyReader ι)) (client : Sock) : Prop where
  waiting : ∀ held, reactor.client.norequest.lookup client = some held →
    held.reader.fits held.source = true
  serving : ∀ held, reactor.client.bysock.lookup client = some held →
    held.reader.fits held.source = true ∧ (held.source.downloads = true → Pouring held →
      reactor.content.byclient.lookup client ≠ none ∨ held.writer.told = true)

/-- What holds after every turn. -/
structure Carried (reactor : Reactor (AnyReader ι)) : Prop where
  registered : reactor.content.Registered
  settled : ∀ client, reactor.Settled client

variable {before after reactor : Reactor (AnyReader ι)} {held changed : Connected (AnyReader ι)}

theorem Settled.congr (settled : before.Settled client)
    (waiting : after.client.norequest.lookup client = before.client.norequest.lookup client)
    (serving : after.client.bysock.lookup client = before.client.bysock.lookup client)
    (byclient : after.content.byclient.lookup client = before.content.byclient.lookup client) :
    after.Settled client where
  waiting := by
    rw [waiting]
    exact settled.waiting
  serving := by
    rw [serving, byclient]
    exact settled.serving

theorem Settled.gone (waiting : reactor.client.norequest.lookup client = none)
    (serving : reactor.client.bysock.lookup client = none) : reactor.Settled client where
  waiting := by simp [waiting]
  serving := by simp [serving]

namespace Carried

theorem initial : Carried ({} : Reactor (AnyReader ι)) where
  registered := .initial
  settled _ := .gone rfl rfl

/-- A turn that is about one client. -/
theorem confined (carried : before.Carried) (registered : after.content.Registered)
    (apart : Apart client before.client after.client)
    (others : ∀ other, other ≠ client →
      after.content.byclient.lookup other = before.content.byclient.lookup other)
    (settled : after.Settled client) : after.Carried where
  registered := registered
  settled other := by
    by_cases same : other = client
    · exact same ▸ settled
    · exact (carried.settled other).congr (apart.norequest other same) (apart.bysock other same)
        (others other same)

/-- A turn after which all clients are the same, and have the connections they had. -/
theorem same (carried : before.Carried) (same : Same before.client after.client)
    (registered : after.content.Registered)
    (byclient : after.content.byclient = before.content.byclient) : after.Carried where
  registered := registered
  settled client := (carried.settled client).congr (by rw [same.norequest]) (by rw [same.bysock])
    (by rw [byclient])

theorem content_same (carried : reactor.Carried) {content : ContentManager}
    (registered : content.Registered) (byclient : content.byclient = reactor.content.byclient) :
    ({ reactor with content } : Reactor (AnyReader ι)).Carried :=
  carried.same ⟨rfl, rfl⟩ registered byclient

theorem client_same (carried : reactor.Carried) {manager : ClientManager (AnyReader ι)}
    (same : Same reactor.client manager) : ({ reactor with client := manager } : Reactor (AnyReader ι)).Carried :=
  carried.same same carried.registered rfl

/-- A client that goes on is still connected, or is told to close. -/
theorem put (carried : reactor.Carried) (client : Sock) (changed : Connected (AnyReader ι))
    (fits : changed.reader.fits changed.source = true)
    (own : changed.source.downloads = true → Pouring changed →
      reactor.content.byclient.lookup client ≠ none ∨ changed.writer.told = true) :
    ({ reactor with client := reactor.client.put client changed } : Reactor (AnyReader ι)).Carried := by
  refine carried.confined carried.registered ClientManager.put_apart (fun other _ => rfl) ?_
  constructor
  · exact (carried.settled client).waiting
  · intro held found
    rw [ClientManager.put, AList.lookup_insert] at found
    cases found
    exact ⟨fits, own⟩

theorem cleaned (carried : reactor.Carried) (client : Sock) (name : Nat) :
    ({ reactor with client := reactor.client.cleanup client name } : Reactor (AnyReader ι)).Carried :=
  carried.confined carried.registered ClientManager.cleanup_apart (fun _ _ => rfl)
    (.gone (AList.lookup_erase ..) (AList.lookup_erase ..))

theorem notifyClose (carried : reactor.Carried) (source : Source) : (reactor.notifyClose source).Carried :=
  ⟨carried.registered, fun client => (carried.settled client).congr rfl rfl rfl⟩

theorem sendRequest (carried : reactor.Carried) (name : Nat) : (reactor.sendRequest name).Carried :=
  ⟨carried.registered, fun client => (carried.settled client).congr rfl rfl rfl⟩

theorem closeClient (carried : reactor.Carried) (source : Option Source) :
    (reactor.closeClient source).Carried := by
  cases source with
  | none => exact carried
  | some source => exact carried.notifyClose source

theorem closeServed (carried : reactor.Carried) (source : Option Source) :
    (reactor.closeServed source).Carried := by
  unfold Reactor.closeServed
  split
  · exact carried.notifyClose _
  · exact carried.notifyClose _
  · exact carried.notifyClose _
  · exact carried
  · exact carried
  · exact carried

/-- The connection of a client is ended that is gone, or was told to close. -/
theorem endDownload (carried : reactor.Carried)
    (told : ∀ held, reactor.client.bysock.lookup client = some held → held.writer.told = true) :
    (reactor.endDownload client).Carried := by
  refine carried.confined (ContentManager.Cleared.registered (.inr rfl) carried.registered) .refl
    (fun other different => ContentManager.endClientDownload_other carried.registered different) ?_
  constructor
  · exact (carried.settled client).waiting
  · intro held found
    exact ⟨((carried.settled client).serving held found).1, fun _ _ => .inr (told held found)⟩

theorem cleaned_endDownload (carried : reactor.Carried) (client : Sock) (name : Nat) :
    ({ reactor with client := reactor.client.cleanup client name }.endDownload client).Carried := by
  apply (carried.cleaned client name).endDownload
  intro held found
  have erased : (reactor.client.cleanup client name).bysock.lookup client = none := AList.lookup_erase ..
  rw [erased] at found
  cases found

theorem noteUpload_same (reactor : Reactor (AnyReader ι)) (client : Sock)
    (status bufferChange : Option Bool) :
    Same reactor.client (reactor.noteUpload client status bufferChange).client := by
  have corked : Same reactor.client (reactor.client.corkUpload client) := by
    unfold ClientManager.corkUpload
    split <;> exact ⟨rfl, rfl⟩
  have uncorked : Same reactor.client (reactor.client.uncorkUpload client) := by
    unfold ClientManager.uncorkUpload
    split <;> exact ⟨rfl, rfl⟩
  unfold Reactor.noteUpload
  split
  · split
    · exact corked
    · exact uncorked
  · exact ⟨rfl, rfl⟩

theorem noteUpload (carried : reactor.Carried) (client : Sock) (status bufferChange : Option Bool) :
    (reactor.noteUpload client status bufferChange).Carried := by
  have content := noteUpload_content reactor client status bufferChange
  apply carried.same (noteUpload_same reactor client status bufferChange)
  · rw [content]
    exact carried.registered
  · rw [content]

theorem relay (carried : reactor.Carried) (client : Sock) (data : Str) (send : Send) :
    (reactor.relay client data send).Carried := by
  have changes : ContentManager.Changes (fun _ _ _ => True) reactor.content
      (reactor.content.sendClientData send client data).1 :=
    ContentManager.sendClientData_changes carried.registered
  exact (carried.content_same (ContentManager.Changes.registered changes carried.registered)
    (ContentManager.sendClientData_byclient carried.registered)).noteUpload client _ _

theorem acceptConnection (carried : reactor.Carried) (source : Source) :
    (reactor.acceptConnection (Client.readers settings icap) source).Carried := by
  have connected : ∀ source, ({ reactor with
      client := reactor.client.connection (Client.readers settings icap) source } :
        Reactor (AnyReader ι)).Carried := by
    intro source
    refine carried.confined carried.registered
      ⟨fun _ _ => rfl, fun _ different => AList.lookup_insert_ne different⟩ (fun _ _ => rfl) ?_
    constructor
    · intro held found
      rcases lookup_insert_iff.mp found with ⟨_, rfl⟩ | ⟨different, _⟩
      · exact AnyReader.start_fits settings icap source
      · exact absurd rfl different
    · exact (carried.settled _).serving
  cases source with
  | passthrough =>
      have connects : ({ reactor with
          client := (reactor.client.passthroughConnection (Client.readers settings icap)).1 } :
            Reactor (AnyReader ι)).Carried := by
        refine carried.confined carried.registered
          ⟨fun _ different => AList.lookup_insert_ne different, fun _ _ => rfl⟩ (fun _ _ => rfl) ?_
        constructor
        · exact (carried.settled _).waiting
        · intro held found
          rcases lookup_insert_iff.mp found with ⟨_, rfl⟩ | ⟨different, _⟩
          · exact ⟨rfl, fun _ pouring => absurd rfl (pouring.2 rfl)⟩
          · exact absurd rfl different
      exact connects.same ⟨rfl, rfl⟩ carried.registered rfl
  | proxy => exact (connected .proxy).same ⟨rfl, rfl⟩ carried.registered rfl
  | web => exact (connected .web).same ⟨rfl, rfl⟩ carried.registered rfl
  | icap => exact (connected .icap).same ⟨rfl, rfl⟩ carried.registered rfl
  | tls => exact (connected .tls).same ⟨rfl, rfl⟩ carried.registered rfl

/-- A client with a request that is not answered yet sends no data. -/
theorem asked_quiet {recv : List Recv} {text : Str} {reader : AnyReader ι}
    (fits : held.reader.fits held.source = true) (downloads : held.source.downloads = true)
    (read : (Client.readers settings icap).readData held.reader recv = (.request text, reader)) :
    reader.flowing = false := by
  have other : held.source ≠ .icap := by
    intro same
    rw [same] at downloads
    cases downloads
  rcases AnyReader.readData_resumed settings icap recv fits other with ⟨_, unasked⟩ | resumed
  · rw [read] at unasked
    exact absurd rfl (unasked text)
  · rw [read] at resumed
    exact resumed.asked text rfl

theorem incomingRequest (carried : reactor.Carried) {recv : List Recv}
    (ok : reactor.incomingRequest (Client.readers settings icap) client recv = .ok after) : after.Carried := by
  have opening : Opening (Client.readers settings icap) reactor.client client recv _ :=
    ClientManager.readRequest_opening recv
  unfold Reactor.incomingRequest at ok
  generalize reactor.client.readRequest (Client.readers settings icap) client recv = result at opening ok
  cases opening with
  | absent missing =>
      cases ok
      exact carried
  | raised => cases ok
  | asked held found text reader read =>
      cases ok
      have fits := (carried.settled client).waiting held found
      have after := AnyReader.readData_fits settings icap recv fits
      rw [read] at after
      have moved : ({ reactor with client := { reactor.client with
          norequest := reactor.client.norequest.erase client
          bysock := reactor.client.bysock.insert client { held with reader } } } :
            Reactor (AnyReader ι)).Carried := by
        refine carried.confined carried.registered
          ⟨fun _ different => AList.lookup_insert_ne different,
            fun _ different => AList.lookup_erase_ne different⟩ (fun _ _ => rfl) ?_
        constructor
        · intro other waits
          exact absurd rfl (lookup_erase_iff.mp waits).1
        · intro other serves
          rcases lookup_insert_iff.mp serves with ⟨_, rfl⟩ | ⟨different, _⟩
          · refine ⟨after, fun downloads pouring => ?_⟩
            have quiet := asked_quiet fits downloads read
            exact absurd pouring.1 (by simp [quiet])
          · exact absurd rfl different
      exact moved.same ⟨rfl, rfl⟩ carried.registered rfl
  | closed held found =>
      cases ok
      exact (carried.cleaned client held.name).notifyClose held.source
  | kept held found yielded reader read quiet =>
      have after := AnyReader.readData_fits settings icap recv ((carried.settled client).waiting held found)
      rw [read] at after
      have kept : ({ reactor with client := { reactor.client with
          norequest := reactor.client.norequest.insert client { held with reader } } } :
            Reactor (AnyReader ι)).Carried := by
        refine carried.confined carried.registered
          ⟨fun _ _ => rfl, fun _ different => AList.lookup_insert_ne different⟩ (fun _ _ => rfl) ?_
        constructor
        · intro other waits
          rcases lookup_insert_iff.mp waits with ⟨_, rfl⟩ | ⟨different, _⟩
          · exact after
          · exact absurd rfl different
        · exact (carried.settled client).serving
      rcases quiet with rfl | ⟨data, rfl⟩
      · cases ok
        exact kept
      · cases ok
        exact kept

/-- A client that is read on pours no more than before. -/
theorem read_pouring {recv : List Recv} {yielded : Client.Yielded} {reader : AnyReader ι}
    (fits : held.reader.fits held.source = true) (downloads : held.source.downloads = true)
    (read : (Client.readers settings icap).readData held.reader recv = (yielded, reader))
    (pouring : Pouring { held with reader }) : Pouring held := by
  have other : held.source ≠ .icap := by
    intro same
    rw [same] at downloads
    cases downloads
  rcases AnyReader.readData_resumed settings icap recv fits other with ⟨same, _⟩ | resumed
  · exact ⟨by rw [same]; rfl, pouring.2⟩
  · rw [read] at resumed
    exact ⟨resumed.flows pouring.1, pouring.2⟩

theorem incomingClientData (carried : reactor.Carried) {recv : List Recv} {send : Send}
    (ok : reactor.incomingClientData (Client.readers settings icap) client recv send = .ok after) : after.Carried := by
  have reading : Reading (Client.readers settings icap) reactor.client client recv _ :=
    ClientManager.readData_reading recv
  unfold Reactor.incomingClientData at ok
  generalize reactor.client.readData (Client.readers settings icap) client recv = result at reading ok
  cases reading with
  | absent missing =>
      cases ok
      exact carried
  | raised => cases ok
  | asked held found text reader read =>
      cases ok
      obtain ⟨fits, own⟩ := (carried.settled client).serving held found
      have after := AnyReader.readData_fits settings icap recv fits
      rw [read] at after
      have put := carried.put client { held with reader } after
        fun downloads pouring => absurd pouring.1 (by simp [asked_quiet fits downloads read])
      exact put.same ⟨rfl, rfl⟩ carried.registered rfl
  | closed held found =>
      cases ok
      exact (carried.cleaned_endDownload client held.name).notifyClose held.source
  | kept held found yielded reader read quiet =>
      obtain ⟨fits, own⟩ := (carried.settled client).serving held found
      have after := AnyReader.readData_fits settings icap recv fits
      rw [read] at after
      have kept := carried.put client { held with reader } after
        fun downloads pouring => own downloads (read_pouring fits downloads read pouring)
      rcases quiet with rfl | ⟨data, rfl⟩
      · cases ok
        exact kept
      · cases ok
        by_cases empty : data = []
        · simp only [if_pos empty]
          exact kept
        · simp only [if_neg empty]
          exact kept.relay client data send

theorem expire (carried : reactor.Carried) : (reactor.expire client).Carried := by
  unfold Reactor.expire ClientManager.expireOne
  cases found : reactor.client.norequest.lookup client with
  | none => exact carried
  | some held => exact (carried.cleaned client held.name).closeClient (some held.source)

theorem flushWebOutput (carried : reactor.Carried) {fetcher : Sock} {send : Send} :
    (reactor.flushWebOutput fetcher send).Carried := by
  have changes : ContentManager.Changes (fun _ _ _ => True) reactor.content
      (reactor.content.sendSocketData send fetcher []).1 := ContentManager.sendSocketData_changes
  have flushed := carried.content_same
    (ContentManager.Changes.registered changes carried.registered) ContentManager.sendSocketData_byclient
  unfold Reactor.flushWebOutput
  generalize reactor.content.sendSocketData send fetcher [] = result at flushed ⊢
  obtain ⟨content, status, bufferChange, owner⟩ := result
  cases owner with
  | none => exact flushed
  | some client => exact flushed.noteUpload client _ _

/-- A client that is sent something goes on as before. -/
theorem written (carried : reactor.Carried) {data : Option Str} {send : Send} {writer : Client.Writer}
    {buffered hadBuffer : Bool} (found : reactor.client.bysock.lookup client = some held)
    (resumed : held.writer.resume data send = (some (buffered, hadBuffer), writer)) :
    ({ reactor with client := ((reactor.client.put client { held with writer }).noteBuffer client
      buffered hadBuffer).1 } : Reactor (AnyReader ι)).Carried := by
  obtain ⟨fits, own⟩ := (carried.settled client).serving held found
  have put := carried.put client { held with writer } fits fun downloads pouring => by
    obtain ⟨finished, stage, _⟩ := Client.Writer.resume_kept resumed
    rcases own downloads ⟨pouring.1, fun _ => by rw [stage]; simp⟩ with connected | told
    · exact .inl connected
    · exact .inr (Client.Writer.resume_told resumed told)
  exact put.client_same (ClientManager.noteBuffer_same ..)

theorem corkClientDownload (carried : reactor.Carried) : ({ reactor with
    content := reactor.content.corkClientDownload client } : Reactor (AnyReader ι)).Carried :=
  carried.content_same carried.registered.corkClientDownload ContentManager.corkClientDownload_byclient

theorem uncorkClientDownload (carried : reactor.Carried) : ({ reactor with
    content := reactor.content.uncorkClientDownload client } : Reactor (AnyReader ι)).Carried :=
  carried.content_same carried.registered.uncorkClientDownload
    ContentManager.uncorkClientDownload_byclient

theorem flushClientOutput (carried : reactor.Carried) {send : Send}
    (ok : reactor.flushClientOutput client send = .ok after) : after.Carried := by
  obtain ⟨⟨manager, sent⟩, sends, rfl⟩ := map_ok ok
  have sending := ClientManager.sendData_sending sends
  cases sending with
  | absent missing => exact carried
  | closed held found ended =>
      exact (carried.cleaned_endDownload client held.name).closeClient (some held.source)
  | kept held found writer buffered hadBuffer resumed =>
      have kept := carried.written found resumed
      simp only [reduceCtorEq, false_and, if_false]
      split
      · split
        · exact kept.corkClientDownload
        · exact kept.uncorkClientDownload
      · exact kept

theorem gone_endDownload (carried : reactor.Carried)
    (missing : reactor.client.bysock.lookup client = none) : (reactor.endDownload client).Carried :=
  carried.endDownload fun held found => by
    rw [missing] at found
    cases found

theorem closeServed_bysock (reactor : Reactor (AnyReader ι)) (source : Option Source) :
    (reactor.closeServed source).client = reactor.client := by
  unfold Reactor.closeServed
  split <;> rfl

theorem cleaned_closeServed (carried : reactor.Carried) (client : Sock) (name : Nat)
    (source : Option Source) :
    (({ reactor with client := reactor.client.cleanup client name } : Reactor (AnyReader ι)).closeServed
      source |>.endDownload client).Carried := by
  apply ((carried.cleaned client name).closeServed source).gone_endDownload
  rw [closeServed_bysock]
  exact AList.lookup_erase ..

theorem answerClient (carried : reactor.Carried) {response : Str} {send : Send}
    (ok : reactor.answerClient client response send = .ok after) : after.Carried := by
  obtain ⟨⟨manager, sent⟩, sends, rfl⟩ := map_ok ok
  have sending := ClientManager.sendData_sending sends
  cases sending with
  | absent missing => exact carried.gone_endDownload missing
  | closed held found ended =>
      exact carried.cleaned_closeServed client held.name (some held.source)
  | kept held found writer buffered hadBuffer resumed =>
      have kept := carried.written found resumed
      simp only [reduceCtorEq, if_false]
      split
      · split
        · exact kept.corkClientDownload
        · exact kept.uncorkClientDownload
      · exact kept

theorem completeWebConnection (carried : reactor.Carried) {fetcher : Sock} {site : Site}
    {send clientSend : Send}
    (ok : reactor.completeWebConnection fetcher site send clientSend = .ok after) : after.Carried := by
  have changes : ContentManager.Changes (fun _ _ _ => True) reactor.content
      (reactor.content.startDownload site send fetcher).1 :=
    ContentManager.startDownload_changes fun _ => trivial
  have started := carried.content_same
    (ContentManager.Changes.registered changes carried.registered) ContentManager.startDownload_byclient
  rcases completeWebConnection_ok ok with ⟨_, rfl⟩ | ⟨client, told, rfl | ⟨response, _, _, answered⟩⟩
  · exact started
  · exact started.noteUpload client _ _
  · exact (started.noteUpload client _ _).answerClient answered

/-- The connection of a client has ended, and the client is told to close. -/
theorem ended (carried : reactor.Carried) {send : Send} {writer : Client.Writer}
    {buffered hadBuffer : Bool} (found : reactor.client.bysock.lookup client = some held)
    (resumed : held.writer.resume none send = (some (buffered, hadBuffer), writer)) :
    ({ reactor.endDownload client with client := ((reactor.client.put client { held with writer }).noteBuffer
      client buffered hadBuffer).1 } : Reactor (AnyReader ι)).Carried := by
  have told : writer.told = true := by
    have closes := Client.Writer.resume_closes held.writer send
    rw [resumed] at closes
    exact closes
  have kept := carried.written found resumed
  refine kept.endDownload fun other serves => ?_
  simp only [(ClientManager.noteBuffer_same ..).bysock, ClientManager.put, AList.lookup_insert,
    Option.some.injEq] at serves
  exact serves ▸ told

theorem incomingWebData (carried : reactor.Carried) {fetcher : Sock} {recv : Recv} {send : Send}
    (ok : reactor.incomingWebData fetcher recv send = .ok after) : after.Carried := by
  have fetching := ContentManager.readData_fetching carried.registered fetcher recv
  unfold Reactor.incomingWebData at ok
  generalize reactor.content.readData fetcher recv = result at fetching ok
  cases fetching with
  | absent =>
      cases ok
      exact carried
  | read client byclient held data received =>
      obtain ⟨⟨manager, sent⟩, sends, rfl⟩ := map_ok ok
      have sending := ClientManager.sendData_sending sends
      cases sending with
      | absent missing => exact carried.gone_endDownload missing
      | closed owner found ended =>
          exact carried.cleaned_closeServed client owner.name (some owner.source)
      | kept owner found writer buffered hadBuffer resumed =>
          have kept := carried.written found resumed
          simp only [reduceCtorEq, if_false]
          split
          · exact kept.corkClientDownload
          · exact kept
  | ended client byclient held =>
      obtain ⟨⟨manager, sent⟩, sends, rfl⟩ := map_ok ok
      have sending := ClientManager.sendData_sending sends
      cases sending with
      | absent missing => exact carried.gone_endDownload missing
      | closed owner found ended =>
          exact (carried.cleaned_endDownload client owner.name).closeServed (some owner.source)
      | kept owner found writer buffered hadBuffer resumed =>
          have kept := carried.ended found resumed
          simp only [reduceCtorEq, if_false]
          split
          · exact kept.corkClientDownload
          · exact kept

end Carried

/-- Clients of the passthrough server are silent until they are answered, and only
those of the ICAP server are answered in ICAP. -/
def Orderly (readers : Readers ρ) (reactor : Reactor ρ) : Turn → Prop
  | .incomingClientData client recv _ =>
      (reactor.client.bysock.lookup client).all (fun held =>
        held.source = .passthrough → held.writer.stage = .created →
          (readers.readData held.reader recv).1.bytes = []) = true
  | .enactDecision client decision _ => decision ≠ .malformed ∧
      (decision.isIcap = true →
        (reactor.client.sourceOf client).all (fun source => source.downloads = false) = true)
  | _ => True

instance (readers : Readers ρ) (reactor : Reactor ρ) : DecidablePred (Orderly readers reactor)
  | .incomingClientData .. => inferInstanceAs (Decidable (Option.all _ _ = true))
  | .enactDecision _ decision _ =>
      inferInstanceAs (Decidable (decision ≠ .malformed ∧ (decision.isIcap = true → Option.all _ _ = true)))
  | .acceptConnection .. | .incomingRequest .. | .flushClientOutput .. | .completeWebConnection ..
  | .incomingWebData .. | .flushWebOutput .. | .expire .. => .isTrue trivial

/-- What `readData` or `startData` returns to a turn that passes it on, with the
client that has sent it and the reactor at that moment. -/
def returned (readers : Readers ρ) (reactor : Reactor ρ) : Turn → Option (Sock × Reactor ρ × Str)
  | .incomingClientData client recv _ =>
      match reactor.client.readData readers client recv with
      | (manager, some (_, _, .content data)) => some (client, { reactor with client := manager }, data)
      | _ => none
  | .enactDecision client decision outside =>
      match reactor.content.getContent outside.site outside.request client decision with
      | .ok (content, answer) =>
          let noted := { reactor with content }.noteUpload client answer.buffered answer.bufferChange
          match noted.client.startData readers client answer.content answer.length outside.answer
              outside.file outside.recv with
          | .ok (manager, some data, _) => some (client, { noted with client := manager }, data)
          | _ => none
      | .error _ => none
  | _ => none

/-- Data is discarded only if the client has no connection. -/
theorem relay_upload (registered : reactor.content.Registered)
    (connected : reactor.content.byclient.lookup client ≠ none) (data : Str) (send : Send) :
    ∃ downloader after, reactor.content.serving client = some downloader ∧
      (reactor.relay client data send).content.serving client = some after ∧
        after.upload = downloader.upload ++ data := by
  cases serving : reactor.content.serving client with
  | none => exact absurd (registered.serving_none.mp serving) connected
  | some downloader =>
      obtain ⟨after, served, appended⟩ :=
        ContentManager.sendClientData_upload registered data send serving
      refine ⟨downloader, after, rfl, ?_, appended⟩
      unfold Reactor.relay
      simp only [noteUpload_content]
      exact served

/-- A client that is answered gets a connection, or is told to close. -/
theorem Carried.begins (carried : reactor.Carried) {decision : Decision} {outside : Outside}
    {content : ContentManager} {answer : ContentManager.Answer} {manager : ClientManager (AnyReader ι)}
    {data : Str} {source : Option Source}
    (orderly : Orderly (Client.readers settings icap) reactor (.enactDecision client decision outside))
    (enacts : reactor.content.getContent outside.site outside.request client decision =
      .ok (content, answer))
    (starts : ({ reactor with content }.noteUpload client answer.buffered
      answer.bufferChange).client.startData (Client.readers settings icap) client answer.content
        answer.length outside.answer outside.file outside.recv = .ok (manager, some data, source)) :
    ({ { reactor with content }.noteUpload client answer.buffered answer.bufferChange with
      client := manager } : Reactor (AnyReader ι)).Carried ∧
      ∀ held, manager.bysock.lookup client = some held → held.source.downloads = true →
        content.byclient.lookup client ≠ none ∨ held.writer.told = true := by
  have enacted := ContentManager.getContent_enacted carried.registered enacts
  have changes : ContentManager.Changes (fun _ _ _ => True) reactor.content content :=
    enacted.changes carried.registered
  have registered := ContentManager.Changes.registered changes carried.registered
  have noted := Carried.noteUpload_same { reactor with content } client answer.buffered
    answer.bufferChange
  have same := noteUpload_content { reactor with content } client answer.buffered answer.bufferChange
  have starting := ClientManager.startData_starting starts
  generalize { reactor with content }.noteUpload client answer.buffered answer.bufferChange = middle
    at starts starting noted same ⊢
  cases starting with
  | kept held found reply valid writer buffered hadBuffer answers yielded reader data read yields
      started begun =>
      have begun := ClientManager.startBuffer_same begun
      have earlier : reactor.client.bysock.lookup client = some held := by
        rw [← found, noted.bysock]
      have fits := AnyReader.readRelated_fits settings icap
        (Client.parseRemaining answer.length).1 (Client.parseRemaining answer.length).2 outside.recv
          ((carried.settled client).serving held earlier).1
      rw [read] at fits
      have own : held.source.downloads = true →
          content.byclient.lookup client ≠ none ∨ writer.told = true := by
        intro downloads
        rcases enacted.unconnected carried.registered with connected | unconnected
        · exact .inl connected
        · apply Or.inr
          apply Client.Writer.startData_told answers
          rintro text rfl
          obtain ⟨length, icap⟩ := unconnected text valid
          have filtered := orderly.2 (by rw [icap]; rfl)
          rw [ClientManager.sourceOf_served (ClientManager.served_found earlier)] at filtered
          simp [downloads] at filtered
      have after : manager.bysock.lookup client = some { held with writer, reader } := by
        rw [begun.bysock]
        exact AList.lookup_insert _
      constructor
      · apply carried.confined (by rw [same]; exact registered)
          (noted.apart.trans (ClientManager.put_apart.trans (Same.apart ⟨begun.bysock, begun.norequest⟩)))
          (fun other different => by rw [same]; exact enacted.others carried.registered different)
        constructor
        · intro waits found
          rw [begun.norequest] at found
          exact (carried.settled client).waiting waits (noted.norequest ▸ found)
        · intro other serves
          rw [after] at serves
          cases serves
          refine ⟨fits, fun downloads _ => ?_⟩
          rw [same]
          exact own downloads
      · intro other serves downloads
        rw [after] at serves
        cases serves
        exact own downloads

namespace Carried

theorem enactDecision (carried : reactor.Carried) {decision : Decision} {outside : Outside}
    (orderly : Orderly (Client.readers settings icap) reactor (.enactDecision client decision outside))
    (ok : reactor.enactDecision (Client.readers settings icap) client decision outside = .ok after) :
    after.Carried := by
  obtain ⟨⟨content, answer⟩, enacts, ok⟩ := bind_ok ok
  obtain ⟨⟨manager, data, source⟩, starts, ok⟩ := bind_ok ok
  have begins : ∀ text, data = some text → _ := fun text some =>
    (carried.begins orderly enacts (some ▸ starts)).1
  have enacted := ContentManager.getContent_enacted carried.registered enacts
  have changes : ContentManager.Changes (fun _ _ _ => True) reactor.content content :=
    enacted.changes carried.registered
  have registered := ContentManager.Changes.registered changes carried.registered
  have noted := noteUpload_same { reactor with content } client answer.buffered answer.bufferChange
  have same : _ = content :=
    noteUpload_content { reactor with content } client answer.buffered answer.bufferChange
  have starting := ClientManager.startData_starting starts
  generalize { reactor with content }.noteUpload client answer.buffered answer.bufferChange = middle
    at ok starts starting noted same begins
  have gone : ∀ manager : ClientManager (AnyReader ι), Apart client reactor.client manager →
      manager.bysock.lookup client = none →
      manager.norequest.lookup client = reactor.client.norequest.lookup client ∨
        manager.norequest.lookup client = none →
      ({ middle with client := manager }.endDownload client).Carried := by
    intro manager apart missing waits
    have ended : (middle.content.endClientDownload client).Registered :=
      ContentManager.Cleared.registered (.inr rfl) (by rw [same]; exact registered)
    apply carried.confined ended apart
    · intro other different
      have kept := ContentManager.endClientDownload_other registered different
      rw [enacted.others carried.registered different, ← same] at kept
      exact kept
    · constructor
      · intro held found
        rcases waits with before | free
        · exact (carried.settled client).waiting held (before ▸ found)
        · exact absurd found (by simp [Reactor.endDownload, free])
      · intro held found
        exact absurd found (by simp [Reactor.endDownload, missing])
  cases starting with
  | absent missing =>
      cases ok
      exact gone middle.client noted.apart missing (.inl (by rw [noted.norequest]))
  | unanswered held found invalid => exact absurd invalid (enacted.answer_known orderly.1)
  | closed held found =>
      cases ok
      have ended := gone (middle.client.cleanup client held.name)
        (noted.apart.trans ClientManager.cleanup_apart) (AList.lookup_erase ..)
        (.inr (AList.lookup_erase ..))
      exact ended.notifyClose held.source
  | kept held found reply valid writer buffered hadBuffer answers yielded reader data read yields
      started begun =>
      have kept := begins data rfl
      cases data with
      | nil =>
          cases ok
          exact kept
      | cons byte rest =>
          cases ok
          exact kept.relay client (byte :: rest) outside.upload

theorem take (carried : before.Carried) {turn : Turn} (orderly : Orderly (Client.readers settings icap) before turn)
    (ok : before.take (Client.readers settings icap) turn = .ok after) : after.Carried := by
  cases turn with
  | acceptConnection source =>
      cases ok
      exact carried.acceptConnection source
  | incomingRequest client recv => exact carried.incomingRequest ok
  | incomingClientData client recv send => exact carried.incomingClientData ok
  | flushClientOutput client send => exact carried.flushClientOutput ok
  | completeWebConnection fetcher site send clientSend => exact carried.completeWebConnection ok
  | incomingWebData fetcher recv send => exact carried.incomingWebData ok
  | flushWebOutput fetcher send =>
      cases ok
      exact carried.flushWebOutput
  | enactDecision client decision outside => exact carried.enactDecision orderly ok
  | expire client =>
      cases ok
      exact carried.expire

end Carried

/-- Data comes only from a client that may send it. -/
theorem content_pouring {recv : List Recv} {data : Str} {reader : AnyReader ι}
    (fits : held.reader.fits held.source = true) (downloads : held.source.downloads = true)
    (read : (Client.readers settings icap).readData held.reader recv = (.content data, reader)) :
    held.reader.flowing = true := by
  have other : held.source ≠ .icap := by
    intro same
    rw [same] at downloads
    cases downloads
  rcases AnyReader.readData_resumed settings icap recv fits other with ⟨same, _⟩ | resumed
  · rw [same]
    rfl
  · rw [read] at resumed
    exact resumed.carried data rfl

/-- The data of a client that is read goes to its server. -/
theorem Carried.passes (carried : reactor.Carried) {recv : List Recv} {send : Send} {data : Str}
    {middle : Reactor (AnyReader ι)}
    (orderly : Orderly (Client.readers settings icap) reactor (.incomingClientData client recv send))
    (returned : reactor.returned (Client.readers settings icap) (.incomingClientData client recv send) =
      some (other, middle, data)) (nonempty : data ≠ []) :
    other = client ∧ middle.content = reactor.content ∧
      reactor.incomingClientData (Client.readers settings icap) client recv send =
        .ok (middle.relay client data send) ∧
      ∀ held, middle.client.bysock.lookup client = some held → held.source.downloads = true →
        reactor.content.byclient.lookup client ≠ none ∨ held.writer.told = true := by
  have reading : Reading (Client.readers settings icap) reactor.client client recv _ :=
    ClientManager.readData_reading recv
  unfold Reactor.incomingClientData
  simp only [Reactor.returned] at returned
  generalize reactor.client.readData (Client.readers settings icap) client recv = result
    at reading returned ⊢
  cases reading with
  | absent missing => cases returned
  | raised => cases returned
  | asked held found text reader read => cases returned
  | closed held found => cases returned
  | kept held found yielded reader read quiet =>
      obtain ⟨fits, own⟩ := (carried.settled client).serving held found
      rcases quiet with rfl | ⟨bytes, rfl⟩
      · cases returned
      · cases returned
        refine ⟨rfl, rfl, by simp only [if_neg nonempty], fun changed kept downloads => ?_⟩
        have same : changed = { held with reader } := by
          have put : (reactor.client.put client { held with reader }).bysock.lookup client =
            some { held with reader } := AList.lookup_insert _
          exact Option.some.inj (kept.symm.trans put)
        subst same
        apply own downloads
        refine ⟨content_pouring fits downloads read, fun passthrough created => ?_⟩
        simp only [Orderly, found, Option.all_some, decide_eq_true_eq] at orderly
        have silent := orderly passthrough created
        rw [read] at silent
        exact nonempty silent

/-- In every run in which no client of the passthrough server sends before it is
answered, what clients send is passed on to their servers. -/
theorem uploads_passed_on {turn : Turn} {middle : Reactor (AnyReader ι)} {data : Str}
    (run : Run (Client.readers settings icap) (Orderly (Client.readers settings icap)) before)
    (orderly : Orderly (Client.readers settings icap) before turn)
    (ok : before.take (Client.readers settings icap) turn = .ok after)
    (returned : before.returned (Client.readers settings icap) turn = some (client, middle, data))
    (nonempty : data ≠ []) (found : middle.client.bysock.lookup client = some held)
    (downloads : held.source.downloads = true) :
    held.writer.told = true ∨ ∃ downloader served,
      middle.content.serving client = some downloader ∧ after.content.serving client = some served ∧
        served.upload = downloader.upload ++ data := by
  have carried : before.Carried := Reachable.invariant run Carried (fun _ initial => initial ▸ .initial)
    fun _ _ _ carried ⟨_, orderly, ok⟩ => carried.take orderly ok
  cases turn with
  | incomingClientData asked recv send =>
      obtain ⟨rfl, same, passes, own⟩ := carried.passes orderly returned nonempty
      rcases own held found downloads with connected | told
      · apply Or.inr
        cases passes.symm.trans ok
        apply relay_upload
        · rw [same]
          exact carried.registered
        · rw [same]
          exact connected
      · exact .inl told
  | enactDecision asked decision outside =>
      obtain ⟨⟨content, answer⟩, enacts, ok⟩ := bind_ok ok
      obtain ⟨⟨manager, sent, source⟩, starts, ok⟩ := bind_ok ok
      simp only [Reactor.returned, enacts, starts] at returned
      cases sent with
      | none => cases returned
      | some sent =>
          cases returned
          obtain ⟨begun, own⟩ := carried.begins orderly enacts starts
          rcases own held found downloads with connected | told
          · apply Or.inr
            cases data with
            | nil => exact absurd rfl nonempty
            | cons byte rest =>
                cases ok
                apply relay_upload begun.registered
                simp only [noteUpload_content]
                exact connected
          · exact .inl told
  | acceptConnection source => cases returned
  | incomingRequest asked recv => cases returned
  | flushClientOutput asked send => cases returned
  | completeWebConnection fetcher site send clientSend => cases returned
  | incomingWebData fetcher recv send => cases returned
  | flushWebOutput fetcher send => cases returned
  | expire asked => cases returned

/-- A client of the passthrough server is given a connection. -/
def answered : List Turn :=
  [.acceptConnection .passthrough,
    .enactDecision 0 (.intercept (ascii "10.0.0.1") (ascii "443") []) calm,
    .completeWebConnection 0 ContentManager.anySite (.accepted 4) (.accepted 4)]

def hello : Turn := .incomingClientData 0 [.data (ascii "hello")] (.accepted 4)

/-- What the witness and the counterexample look at: where the client that has sent
data is from, whether it was told to close, and what its server was given. -/
structure Greeting where
  source : Source
  told : Bool
  upload : Option Str
deriving DecidableEq

def greeting (reactor : Reactor (AnyReader Unit)) : Option Greeting :=
  match reactor.returned plainReaders hello with
  | some (0, middle, data) =>
      if data = ascii "hello" then
        (middle.client.bysock.lookup 0).map fun held =>
          ⟨held.source, held.writer.told, (middle.content.serving 0).map Downloader.upload⟩
      else none
  | _ => none

theorem greeting_some {reactor : Reactor (AnyReader Unit)} {seen : Greeting}
    (greets : reactor.greeting = some seen) :
    ∃ middle held, reactor.returned plainReaders hello = some (0, middle, ascii "hello") ∧
      middle.client.bysock.lookup 0 = some held ∧ held.source = seen.source ∧
        held.writer.told = seen.told ∧ (middle.content.serving 0).map Downloader.upload = seen.upload := by
  unfold greeting at greets
  split at greets
  · next middle data returned =>
      split at greets
      · next same =>
          obtain ⟨held, found, rfl⟩ := Option.map_eq_some_iff.mp greets
          exact ⟨middle, held, same ▸ returned, found, rfl, rfl, rfl⟩
      · cases greets
  · cases greets

theorem uploads_passed_on_answered : ∃ before middle after : Reactor (AnyReader Unit), ∃ downloader served,
    before.returned plainReaders hello = some (0, middle, ascii "hello") ∧
      before.take plainReaders hello = .ok after ∧ middle.content.serving 0 = some downloader ∧
        after.content.serving 0 = some served ∧ served.upload = downloader.upload ++ ascii "hello" := by
  have greets : ((follow plainReaders (Orderly plainReaders) answered {}).map fun reactor =>
      (reactor.greeting, decide (Orderly plainReaders reactor hello), (reactor.take plainReaders hello).toBool)) =
        some (some ⟨.passthrough, false, some []⟩, true, true) := by decide +kernel
  obtain ⟨reactor, followed, seen⟩ := Option.map_eq_some_iff.mp greets
  simp only [Prod.mk.injEq] at seen
  obtain ⟨greeting, orderly, taken⟩ := seen
  obtain ⟨middle, held, returned, found, source, untold, _⟩ := greeting_some greeting
  have run : Run plainReaders (Orderly plainReaders) reactor := follow_run plainReaders (.start rfl) followed
  cases ok : reactor.take plainReaders hello with
  | error raised =>
      rw [ok] at taken
      cases taken
  | ok after =>
      rcases uploads_passed_on run (of_decide_eq_true orderly) ok returned (by decide) found
        (by rw [source]; rfl) with told | ⟨downloader, served, passed⟩
      · rw [untold] at told
        cases told
      · exact ⟨reactor, middle, after, downloader, served, returned, ok, passed⟩

/-- A client of the passthrough server that is not answered yet loses what it sends. -/
theorem greeting_discarded : ∃ before middle : Reactor (AnyReader Unit), ∃ held,
    Run plainReaders Formed before ∧
      before.returned plainReaders hello = some (0, middle, ascii "hello") ∧
        middle.client.bysock.lookup 0 = some held ∧ held.source = .passthrough ∧
          held.writer.told = false ∧ middle.content.serving 0 = none := by
  have greets : ((follow plainReaders Formed [.acceptConnection .passthrough] {}).map greeting) =
      some (some ⟨.passthrough, false, none⟩) := by decide +kernel
  obtain ⟨reactor, followed, seen⟩ := Option.map_eq_some_iff.mp greets
  obtain ⟨middle, held, returned, found, source, untold, given⟩ := greeting_some seen
  exact ⟨reactor, middle, held, follow_run plainReaders (.start rfl) followed, returned, found, source,
    untold, Option.map_eq_none_iff.mp given⟩

end Reactor

end ExaProxy
