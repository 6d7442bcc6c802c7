import ExaProxy.Client.Roster
import ExaProxy.Content.Operations
import ExaProxy.Reactor.Handlers

namespace ExaProxy

open ExaProxy.Data ExaProxy.Network
open ExaProxy.Client (Source Identity Recv Readers ClientManager)
open ExaProxy.Client.ClientManager (Alike Dropped Promoted Connects Distinct Sending Starting Opening Reading)
open ExaProxy.Content (Send Site Decision ContentManager)
open ExaProxy.Content.ContentManager (Enacted Fetching)

/-- The servers whose clients are given connections, as `closeServed` knows them. -/
def Client.Source.downloads : Source → Bool
  | .proxy | .tls | .passthrough => true
  | .web | .icap => false

namespace Reactor

/-! Every server counts its clients, as long as only those servers' clients are
given connections that are told when one of them is closed. -/

variable {ρ : Type} {readers : Readers ρ} {reactor before after : Reactor ρ} {client sock : Sock}
  {source : Source}

/-- The decisions that `decide` can come to for a client: only some are given a
connection, and the arguments are as `ResponseEncoder` puts them. -/
def Proper (reactor : Reactor ρ) : Turn → Prop
  | .enactDecision client decision _ => decision ≠ .malformed ∧
      (decision.opens = true → (reactor.client.sourceOf client).all Source.downloads = true)
  | _ => True

instance (reactor : Reactor ρ) : DecidablePred reactor.Proper
  | .enactDecision client decision _ =>
      inferInstanceAs (Decidable (decision ≠ .malformed ∧
        (decision.opens = true → (reactor.client.sourceOf client).all Source.downloads = true)))
  | .acceptConnection .. | .incomingRequest .. | .incomingClientData .. | .flushClientOutput ..
  | .completeWebConnection .. | .incomingWebData .. | .flushWebOutput .. | .expire .. => .isTrue trivial

/-- What holds after every turn. -/
structure Accounts (reactor : Reactor ρ) : Prop where
  registered : reactor.content.Registered
  distinct : reactor.client.Distinct
  balanced : ∀ source, reactor.clientCount source = (reactor.client.held source).card
  serves : ∀ client sock, reactor.content.byclient.lookup client = some sock →
    ∃ identity, reactor.client.served client = some identity ∧ identity.source.downloads = true

namespace Accounts

theorem initial : Accounts ({} : Reactor ρ) where
  registered := .initial
  distinct := ⟨by simp [ClientManager.waiting], by simp [ClientManager.served, ClientManager.waiting]⟩
  balanced := by
    intro source
    have none_held : ({} : ClientManager ρ).held source = ∅ := rfl
    rw [none_held]
    rfl
  serves := by simp

/-- A turn after which the same clients are held. -/
theorem alike (accounts : before.Accounts) (alike : Alike before.client after.client)
    (counts : after.clientCount = before.clientCount) (registered : after.content.Registered)
    (serves : ∀ client sock, after.content.byclient.lookup client = some sock →
      ∃ identity, before.client.served client = some identity ∧ identity.source.downloads = true) :
    after.Accounts where
  registered := registered
  distinct := alike.distinct accounts.distinct
  balanced := by
    intro source
    rw [counts, ClientManager.held_congr alike.sourceOf]
    exact accounts.balanced source
  serves := by
    rw [alike.served]
    exact serves

/-- A turn after which a client is gone, and its server has been told. -/
theorem dropped (accounts : before.Accounts) (dropped : Dropped client before.client after.client)
    (known : before.client.sourceOf client = some source)
    (counts : after.clientCount =
      Function.update before.clientCount source (before.clientCount source - 1))
    (registered : after.content.Registered)
    (serves : ∀ other sock, after.content.byclient.lookup other = some sock → other ≠ client ∧
      ∃ identity, before.client.served other = some identity ∧ identity.source.downloads = true) :
    after.Accounts where
  registered := registered
  distinct := dropped.distinct accounts.distinct
  balanced := by
    intro other
    have counted := accounts.balanced other
    rw [counts, Function.update_apply, dropped.held]
    by_cases same : other = source
    · subst same
      have member : client ∈ before.client.held other := ClientManager.mem_held.mpr known
      have positive := Finset.card_pos.mpr ⟨client, member⟩
      rw [if_pos rfl, Finset.card_erase_of_mem member, counted]
      omega
    · have stranger : client ∉ before.client.held other := by
        rw [ClientManager.mem_held, known]
        exact fun equal => same (Option.some.inj equal).symm
      rw [if_neg same, Finset.erase_eq_of_notMem stranger]
      exact counted
  serves := by
    intro other sock byclient
    obtain ⟨different, identity, served, downloads⟩ := serves other sock byclient
    rw [dropped.served, Function.update_of_ne different]
    exact ⟨identity, served, downloads⟩

/-- A turn after which there is one client more. -/
theorem connects (accounts : before.Accounts) (connects : Connects source before.client after.client)
    (counts : after.clientCount =
      Function.update before.clientCount source (before.clientCount source + 1))
    (content : after.content = before.content) : after.Accounts where
  registered := by
    rw [content]
    exact accounts.registered
  distinct := connects.distinct
  balanced := by
    intro other
    have counted := accounts.balanced other
    rw [counts, Function.update_apply, connects.held accounts.distinct]
    by_cases same : other = source
    · subst same
      rw [if_pos rfl, if_pos rfl, counted]
      omega
    · rw [if_neg same, if_neg same, counted]
      omega
  serves := by
    intro other sock byclient
    rw [content] at byclient
    obtain ⟨identity, served, downloads⟩ := accounts.serves other sock byclient
    have older : other ≠ before.client.sockets := by
      intro same
      rw [same, (accounts.distinct.fresh _ (Nat.le_refl _)).1] at served
      cases served
    exact ⟨identity, (connects.served other older).trans served, downloads⟩

end Accounts

theorem noteUpload_alike (reactor : Reactor ρ) (client : Sock) (status bufferChange : Option Bool) :
    Alike reactor.client (reactor.noteUpload client status bufferChange).client := by
  unfold noteUpload
  split
  · split
    · exact ClientManager.corkUpload_alike
    · exact ClientManager.uncorkUpload_alike
  · exact .refl

theorem noteUpload_content (reactor : Reactor ρ) (client : Sock) (status bufferChange : Option Bool) :
    (reactor.noteUpload client status bufferChange).content = reactor.content := by
  unfold noteUpload
  split
  · split <;> rfl
  · rfl

theorem noteUpload_clientCount (reactor : Reactor ρ) (client : Sock) (status bufferChange : Option Bool) :
    (reactor.noteUpload client status bufferChange).clientCount = reactor.clientCount := by
  unfold noteUpload
  split
  · split <;> rfl
  · rfl

theorem closeServed_eq (downloads : source.downloads = true) :
    reactor.closeServed (some source) = reactor.notifyClose source := by
  cases source with
  | proxy => rfl
  | tls => rfl
  | passthrough => rfl
  | web => cases downloads
  | icap => cases downloads

namespace Accounts

/-- The clients with a connection are those with one before, at most. -/
theorem serves_kept (accounts : before.Accounts) {content : ContentManager}
    (kept : content.byclient = before.content.byclient) (client sock : Sock)
    (byclient : content.byclient.lookup client = some sock) :
    ∃ identity, before.client.served client = some identity ∧ identity.source.downloads = true := by
  rw [kept] at byclient
  exact accounts.serves client sock byclient

theorem serves_ended (accounts : before.Accounts) (other sock : Sock)
    (byclient : (before.content.endClientDownload client).byclient.lookup other = some sock) :
    other ≠ client ∧ ∃ identity, before.client.served other = some identity ∧
      identity.source.downloads = true := by
  rw [ContentManager.endClientDownload_byclient accounts.registered] at byclient
  obtain ⟨different, kept⟩ := lookup_erase_iff.mp byclient
  exact ⟨different, accounts.serves other sock kept⟩

theorem waiting_alone (accounts : before.Accounts) {identity : Identity}
    (waiting : before.client.waiting client = some identity) :
    before.content.byclient.lookup client = none := by
  cases byclient : before.content.byclient.lookup client with
  | none => rfl
  | some sock =>
      obtain ⟨identity', served, _⟩ := accounts.serves client sock byclient
      rw [accounts.distinct.apart client (by rw [waiting]; simp)] at served
      cases served

theorem endDownload_registered (accounts : before.Accounts) :
    (before.content.endClientDownload client).Registered :=
  (ContentManager.Cleared.registered (.inr rfl) accounts.registered)

theorem acceptConnection (accounts : reactor.Accounts) :
    (reactor.acceptConnection readers source).Accounts := by
  cases source with
  | passthrough =>
      exact accounts.connects (ClientManager.passthroughConnection_connects accounts.distinct) rfl rfl
  | proxy => exact accounts.connects (ClientManager.connection_connects accounts.distinct) rfl rfl
  | web => exact accounts.connects (ClientManager.connection_connects accounts.distinct) rfl rfl
  | icap => exact accounts.connects (ClientManager.connection_connects accounts.distinct) rfl rfl
  | tls => exact accounts.connects (ClientManager.connection_connects accounts.distinct) rfl rfl

theorem sendRequest (accounts : reactor.Accounts) (name : Nat) : (reactor.sendRequest name).Accounts :=
  ⟨accounts.registered, accounts.distinct, accounts.balanced, accounts.serves⟩

theorem alike_client (accounts : reactor.Accounts) {manager : ClientManager ρ}
    (alike : Alike reactor.client manager) : ({ reactor with client := manager } : Reactor ρ).Accounts :=
  accounts.alike alike rfl accounts.registered accounts.serves

theorem promoted_client (accounts : reactor.Accounts) {identity : Identity} {manager : ClientManager ρ}
    (waiting : reactor.client.waiting client = some identity)
    (promoted : Promoted client reactor.client manager) :
    ({ reactor with client := manager } : Reactor ρ).Accounts where
  registered := accounts.registered
  distinct := promoted.distinct accounts.distinct
  balanced := by
    intro source
    have same := promoted.sourceOf accounts.distinct (by rw [waiting]; simp)
    simp only [ClientManager.held_congr same]
    exact accounts.balanced source
  serves := by
    intro other sock byclient
    have different : other ≠ client := by
      intro same
      subst same
      exact absurd byclient (by rw [accounts.waiting_alone waiting]; simp)
    obtain ⟨identity', served, downloads⟩ := accounts.serves other sock byclient
    exact ⟨identity', by rw [promoted.served, Function.update_of_ne different]; exact served, downloads⟩

theorem waiting_dropped (accounts : reactor.Accounts) {identity : Identity}
    (waiting : reactor.client.waiting client = some identity) {manager : ClientManager ρ}
    (dropped : Dropped client reactor.client manager) :
    ({ reactor with client := manager }.notifyClose identity.source).Accounts := by
  have known := ClientManager.sourceOf_waiting accounts.distinct waiting
  have alone := accounts.waiting_alone waiting
  have others : ∀ other sock, reactor.content.byclient.lookup other = some sock → other ≠ client ∧
      ∃ identity, reactor.client.served other = some identity ∧ identity.source.downloads = true := by
    intro other sock byclient
    refine ⟨?_, accounts.serves other sock byclient⟩
    intro same
    subst same
    exact absurd byclient (by rw [alone]; simp)
  exact accounts.dropped dropped known rfl accounts.registered others

theorem incomingRequest (accounts : reactor.Accounts) {recv : List Recv}
    (ok : reactor.incomingRequest readers client recv = .ok after) : after.Accounts := by
  have opening : Opening readers reactor.client client recv _ := ClientManager.readRequest_opening recv
  unfold Reactor.incomingRequest at ok
  generalize reactor.client.readRequest readers client recv = result at opening ok
  cases opening with
  | absent missing =>
      cases ok
      exact accounts
  | raised => cases ok
  | asked held found text reader read =>
      cases ok
      exact sendRequest (accounts.promoted_client (ClientManager.waiting_found found)
        (Opening.promoted found)) _
  | closed held found =>
      cases ok
      exact accounts.waiting_dropped (ClientManager.waiting_found found) ClientManager.cleanup_dropped
  | kept held found yielded reader read quiet =>
      rcases quiet with rfl | ⟨data, rfl⟩
      · cases ok
        exact accounts.alike_client (Opening.kept_alike found)
      · cases ok
        exact accounts.alike_client (Opening.kept_alike found)

theorem noteUpload (accounts : reactor.Accounts) {status bufferChange : Option Bool} :
    (reactor.noteUpload client status bufferChange).Accounts := by
  apply accounts.alike (noteUpload_alike ..) (noteUpload_clientCount ..)
  · rw [noteUpload_content]
    exact accounts.registered
  · rw [noteUpload_content]
    exact accounts.serves

theorem endDownload (accounts : reactor.Accounts) : (reactor.endDownload client).Accounts :=
  accounts.alike .refl rfl accounts.endDownload_registered
    fun other sock byclient => (accounts.serves_ended other sock byclient).2

theorem relay (accounts : reactor.Accounts) (data : Str) (send : Send) :
    (reactor.relay client data send).Accounts := by
  have changes : ContentManager.Changes (fun _ _ _ => True) reactor.content
      (reactor.content.sendClientData send client data).1 :=
    ContentManager.sendClientData_changes accounts.registered
  have relayed : ({ reactor with
      content := (reactor.content.sendClientData send client data).1 } : Reactor ρ).Accounts :=
    accounts.alike .refl rfl (ContentManager.Changes.registered changes accounts.registered)
      (accounts.serves_kept (ContentManager.sendClientData_byclient accounts.registered))
  exact relayed.noteUpload

theorem served_dropped (accounts : reactor.Accounts) {identity : Identity}
    (served : reactor.client.served client = some identity) {manager : ClientManager ρ}
    (dropped : Dropped client reactor.client manager) :
    (({ reactor with client := manager } : Reactor ρ).endDownload client
      |>.notifyClose identity.source).Accounts :=
  accounts.dropped dropped (ClientManager.sourceOf_served served) rfl
    accounts.endDownload_registered accounts.serves_ended

theorem incomingClientData (accounts : reactor.Accounts) {recv : List Recv} {send : Send}
    (ok : reactor.incomingClientData readers client recv send = .ok after) : after.Accounts := by
  have reading : Reading readers reactor.client client recv _ := ClientManager.readData_reading recv
  unfold Reactor.incomingClientData at ok
  generalize reactor.client.readData readers client recv = result at reading ok
  cases reading with
  | absent missing =>
      cases ok
      exact accounts
  | raised => cases ok
  | asked held found text reader read =>
      cases ok
      have put := ClientManager.put_alike found { held with reader } rfl
      exact sendRequest (accounts.alike_client (put.trans (ClientManager.polled_alike _))) _
  | closed held found =>
      cases ok
      exact accounts.served_dropped (ClientManager.served_found found) ClientManager.cleanup_dropped
  | kept held found yielded reader read quiet =>
      have kept := accounts.alike_client (ClientManager.put_alike found { held with reader } rfl)
      rcases quiet with rfl | ⟨data, rfl⟩
      · cases ok
        exact kept
      · cases ok
        by_cases empty : data = []
        · simp only [if_pos empty]
          exact kept
        · simp only [if_neg empty]
          exact kept.relay data send

theorem corkClientDownload (accounts : reactor.Accounts) : ({ reactor with
    content := reactor.content.corkClientDownload client } : Reactor ρ).Accounts :=
  accounts.alike .refl rfl accounts.registered.corkClientDownload
    (accounts.serves_kept ContentManager.corkClientDownload_byclient)

theorem uncorkClientDownload (accounts : reactor.Accounts) : ({ reactor with
    content := reactor.content.uncorkClientDownload client } : Reactor ρ).Accounts :=
  accounts.alike .refl rfl accounts.registered.uncorkClientDownload
    (accounts.serves_kept ContentManager.uncorkClientDownload_byclient)

theorem flushClientOutput (accounts : reactor.Accounts) {send : Send}
    (ok : reactor.flushClientOutput client send = .ok after) : after.Accounts := by
  obtain ⟨⟨manager, sent⟩, sends, rfl⟩ := map_ok ok
  have sending := ClientManager.sendData_sending sends
  cases sending with
  | absent missing => exact accounts
  | closed held found ended =>
      exact accounts.served_dropped (ClientManager.served_found found) ClientManager.cleanup_dropped
  | kept held found writer buffered hadBuffer resumed =>
      have put := ClientManager.put_alike found { held with writer } rfl
      have kept := accounts.alike_client
        (put.trans (ClientManager.noteBuffer_alike client buffered hadBuffer))
      simp only [reduceCtorEq, false_and, if_false]
      split
      · split
        · exact kept.corkClientDownload
        · exact kept.uncorkClientDownload
      · exact kept

theorem downloads_of (accounts : reactor.Accounts) {held : Client.Connected ρ}
    (found : reactor.client.bysock.lookup client = some held)
    (byclient : reactor.content.byclient.lookup client = some sock) : held.source.downloads = true := by
  obtain ⟨identity, served, downloads⟩ := accounts.serves client sock byclient
  rw [ClientManager.served_found found] at served
  cases served
  exact downloads

theorem answerClient (accounts : reactor.Accounts) {response : Str} {send : Send}
    (byclient : reactor.content.byclient.lookup client = some sock)
    (ok : reactor.answerClient client response send = .ok after) : after.Accounts := by
  obtain ⟨⟨manager, sent⟩, sends, rfl⟩ := map_ok ok
  have sending := ClientManager.sendData_sending sends
  cases sending with
  | absent missing =>
      obtain ⟨identity, served, _⟩ := accounts.serves client sock byclient
      simp [ClientManager.served, missing] at served
  | closed held found ended =>
      simp only [if_true, closeServed_eq (accounts.downloads_of found byclient)]
      exact accounts.served_dropped (ClientManager.served_found found) ClientManager.cleanup_dropped
  | kept held found writer buffered hadBuffer resumed =>
      have put := ClientManager.put_alike found { held with writer } rfl
      have kept := accounts.alike_client
        (put.trans (ClientManager.noteBuffer_alike client buffered hadBuffer))
      simp only [reduceCtorEq, if_false]
      split
      · split
        · exact kept.corkClientDownload
        · exact kept.uncorkClientDownload
      · exact kept

theorem startDownload (accounts : reactor.Accounts) (site : Site) (send : Send) (fetcher : Sock) :
    ({ reactor with content := (reactor.content.startDownload site send fetcher).1 } :
      Reactor ρ).Accounts := by
  have changes : ContentManager.Changes (fun _ _ _ => True) reactor.content
      (reactor.content.startDownload site send fetcher).1 :=
    ContentManager.startDownload_changes fun _ => trivial
  exact accounts.alike .refl rfl (ContentManager.Changes.registered changes accounts.registered)
    (accounts.serves_kept ContentManager.startDownload_byclient)

theorem completeWebConnection (accounts : reactor.Accounts) {fetcher : Sock} {site : Site}
    {send clientSend : Send}
    (ok : reactor.completeWebConnection fetcher site send clientSend = .ok after) : after.Accounts := by
  have started := accounts.startDownload site send fetcher
  rcases completeWebConnection_ok ok with ⟨_, rfl⟩ | ⟨client, told, rfl | ⟨response, _, _, answered⟩⟩
  · exact started
  · exact started.noteUpload
  · have byclient := (ContentManager.startDownload_client accounts.registered told).2
    have same : (reactor.content.startDownload site send fetcher).1.byclient =
        reactor.content.byclient := ContentManager.startDownload_byclient
    rw [← same] at byclient
    exact started.noteUpload.answerClient (by rw [noteUpload_content]; exact byclient) answered

theorem incomingWebData (accounts : reactor.Accounts) {fetcher : Sock} {recv : Recv} {send : Send}
    (ok : reactor.incomingWebData fetcher recv send = .ok after) : after.Accounts := by
  have fetching := ContentManager.readData_fetching accounts.registered fetcher recv
  unfold Reactor.incomingWebData at ok
  generalize reactor.content.readData fetcher recv = result at fetching ok
  cases fetching with
  | absent =>
      cases ok
      exact accounts
  | read client byclient held data received =>
      obtain ⟨⟨manager, sent⟩, sends, rfl⟩ := map_ok ok
      have sending := ClientManager.sendData_sending sends
      cases sending with
      | absent missing =>
          obtain ⟨identity, served, _⟩ := accounts.serves client fetcher byclient
          simp [ClientManager.served, missing] at served
      | closed owner found ended =>
          simp only [if_true, closeServed_eq (accounts.downloads_of found byclient)]
          exact accounts.served_dropped (ClientManager.served_found found) ClientManager.cleanup_dropped
      | kept owner found writer buffered hadBuffer resumed =>
          have put := ClientManager.put_alike found { owner with writer } rfl
          have kept := accounts.alike_client
            (put.trans (ClientManager.noteBuffer_alike client buffered hadBuffer))
          simp only [reduceCtorEq, if_false]
          split
          · exact kept.corkClientDownload
          · exact kept
  | ended client byclient held =>
      obtain ⟨⟨manager, sent⟩, sends, rfl⟩ := map_ok ok
      have sending := ClientManager.sendData_sending sends
      cases sending with
      | absent missing =>
          obtain ⟨identity, served, _⟩ := accounts.serves client fetcher byclient
          simp [ClientManager.served, missing] at served
      | closed owner found ended =>
          simp only [if_true, closeServed_eq (accounts.downloads_of found byclient), ne_eq,
            not_true_eq_false, if_false]
          exact accounts.served_dropped (ClientManager.served_found found) ClientManager.cleanup_dropped
      | kept owner found writer buffered hadBuffer resumed =>
          have put := ClientManager.put_alike found { owner with writer } rfl
          have kept := accounts.endDownload.alike_client
            (put.trans (ClientManager.noteBuffer_alike client buffered hadBuffer))
          simp only [reduceCtorEq, if_false]
          split
          · exact kept.corkClientDownload
          · exact kept

theorem flushWebOutput (accounts : reactor.Accounts) {fetcher : Sock} {send : Send} :
    (reactor.flushWebOutput fetcher send).Accounts := by
  have changes : ContentManager.Changes (fun _ _ _ => True) reactor.content
      (reactor.content.sendSocketData send fetcher []).1 := ContentManager.sendSocketData_changes
  have flushed : ({ reactor with content := (reactor.content.sendSocketData send fetcher []).1 } :
      Reactor ρ).Accounts :=
    accounts.alike .refl rfl (ContentManager.Changes.registered changes accounts.registered)
      (accounts.serves_kept ContentManager.sendSocketData_byclient)
  unfold Reactor.flushWebOutput
  generalize reactor.content.sendSocketData send fetcher [] = result at flushed ⊢
  obtain ⟨content, status, bufferChange, owner⟩ := result
  cases owner with
  | none => exact flushed
  | some client => exact flushed.noteUpload

theorem expire (accounts : reactor.Accounts) : (reactor.expire client).Accounts := by
  unfold Reactor.expire ClientManager.expireOne
  cases found : reactor.client.norequest.lookup client with
  | none => exact accounts
  | some held =>
      exact accounts.waiting_dropped (ClientManager.waiting_found found) ClientManager.cleanup_dropped

/-- A decision is enacted: whoever is given a connection keeps it only with a
client that is still there. -/
theorem enactDecision (accounts : reactor.Accounts) {decision : Decision} {outside : Outside}
    (proper : reactor.Proper (.enactDecision client decision outside))
    (ok : reactor.enactDecision readers client decision outside = .ok after) : after.Accounts := by
  obtain ⟨valid, filtered⟩ := proper
  obtain ⟨⟨content, answer⟩, enacts, ok⟩ := bind_ok ok
  obtain ⟨⟨manager, data, source⟩, starts, ok⟩ := bind_ok ok
  have enacted := ContentManager.getContent_enacted accounts.registered enacts
  have changes : ContentManager.Changes (fun _ _ _ => True) reactor.content content :=
    enacted.changes accounts.registered
  have registered := ContentManager.Changes.registered changes accounts.registered
  have noted := noteUpload_alike { reactor with content } client answer.buffered answer.bufferChange
  have same := noteUpload_content { reactor with content } client answer.buffered answer.bufferChange
  have counts := noteUpload_clientCount { reactor with content } client answer.buffered
    answer.bufferChange
  have starting := ClientManager.startData_starting starts
  generalize { reactor with content }.noteUpload client answer.buffered answer.bufferChange = middle
    at ok starts starting noted same counts
  -- whoever has a connection once the client's has been ended had one before
  have others : ∀ other sock, (middle.content.endClientDownload client).byclient.lookup other =
      some sock → other ≠ client ∧ ∃ identity, reactor.client.served other = some identity ∧
        identity.source.downloads = true := by
    intro other sock byclient
    rw [same, ContentManager.endClientDownload_byclient registered] at byclient
    obtain ⟨different, kept⟩ := lookup_erase_iff.mp byclient
    rcases enacted.byclient accounts.registered kept with ⟨equal, _⟩ | earlier
    · exact absurd equal different
    · exact ⟨different, accounts.serves other sock earlier⟩
  have ended : (middle.content.endClientDownload client).Registered := by
    rw [same]
    exact ContentManager.Cleared.registered (.inr rfl) registered
  cases starting with
  | absent missing =>
      cases ok
      exact accounts.alike noted counts ended fun other sock byclient => (others other sock byclient).2
  | unanswered held found invalid => exact absurd invalid (enacted.answer_known valid)
  | closed held found =>
      cases ok
      have served := ClientManager.served_found found
      rw [noted.served] at served
      exact accounts.dropped (noted.dropped ClientManager.cleanup_dropped)
        (ClientManager.sourceOf_served served) (by rw [counts]; rfl) ended others
  | kept held found reply valid writer buffered hadBuffer answers yielded reader data read yields
      started begun =>
      have served := ClientManager.served_found found
      rw [noted.served] at served
      have put := ClientManager.put_alike found { held with writer, reader } rfl
      have kept : ({ middle with client := manager } : Reactor ρ).Accounts := by
        have alike : Alike reactor.client manager := noted.trans
          ((put.trans (ClientManager.polled_alike _)).trans (ClientManager.startBuffer_alike begun))
        refine accounts.alike alike counts (by rw [same]; exact registered) ?_
        intro other sock byclient
        rw [same] at byclient
        rcases enacted.byclient accounts.registered byclient with ⟨rfl, opens⟩ | earlier
        · have downloads := filtered opens
          rw [ClientManager.sourceOf_served served] at downloads
          exact ⟨_, served, downloads⟩
        · exact accounts.serves other sock earlier
      cases data with
      | nil =>
          cases ok
          exact kept
      | cons byte rest =>
          cases ok
          exact kept.relay (byte :: rest) outside.upload

end Accounts

/-- No turn miscounts the clients. -/
theorem Accounts.take (accounts : before.Accounts) {turn : Turn} (proper : before.Proper turn)
    (ok : before.take readers turn = .ok after) : after.Accounts := by
  cases turn with
  | acceptConnection source =>
      cases ok
      exact accounts.acceptConnection
  | incomingRequest client recv => exact accounts.incomingRequest ok
  | incomingClientData client recv send => exact accounts.incomingClientData ok
  | flushClientOutput client send => exact accounts.flushClientOutput ok
  | completeWebConnection fetcher site send clientSend => exact accounts.completeWebConnection ok
  | incomingWebData fetcher recv send => exact accounts.incomingWebData ok
  | flushWebOutput fetcher send =>
      cases ok
      exact accounts.flushWebOutput
  | enactDecision client decision outside => exact accounts.enactDecision proper ok
  | expire client =>
      cases ok
      exact accounts.expire

/-- In every run, every server has counted the clients it has: each is held once,
and was closed once if it is no longer held. -/
theorem clients_counted (run : Run readers Proper reactor) (source : Source) :
    reactor.clientCount source = (reactor.client.held source).card ∧
      ∀ sock ∈ reactor.client.norequest, sock ∉ reactor.client.bysock := by
  have accounts := Reachable.invariant run Accounts (fun _ initial => initial ▸ .initial)
    fun _ _ _ accounts ⟨_, proper, ok⟩ => accounts.take proper ok
  refine ⟨accounts.balanced source, fun sock waits serves => ?_⟩
  obtain ⟨waiting, found⟩ := Option.isSome_iff_exists.mp (AList.lookup_isSome.mpr waits)
  obtain ⟨served, found'⟩ := Option.isSome_iff_exists.mp (AList.lookup_isSome.mpr serves)
  have absent := accounts.distinct.apart sock (by rw [ClientManager.waiting_found found]; simp)
  rw [ClientManager.served_found found'] at absent
  cases absent

/-- No client comes through a proxy, and none speaks ICAP. -/
def plainReaders : Readers (Client.AnyReader Unit) :=
  Client.readers
    { protocol := ⟨fun _ => false, fun _ => false⟩, httpMaxBuffer := 0, tlsMaxBuffer := 0,
      proxied := fun _ => false }
    ⟨fun _ => (), fun _ _ => (.nothing, ()), fun _ _ _ _ => (.nothing, ())⟩

/-- Sockets that take a few bytes at once, where there is nothing to read. -/
def calm : Outside where
  site := ContentManager.anySite
  request := .accepted 4
  answer := .accepted 4
  file := none
  recv := []
  upload := .accepted 4

def request : Str := ascii "GET / HTTP/1.1\r\n\r\n"

/-- A client connects and asks for a page, which it does not stay to read. -/
def interrupted (source : Source) : List Turn :=
  [.acceptConnection source, .incomingRequest 0 [.data request],
    .enactDecision 0 ContentManager.firstRequest calm,
    .completeWebConnection 0 ContentManager.anySite (.accepted 4) (.accepted 4),
    .incomingWebData 0 (.data (ascii "HTTP/1.1 200 OK")) .failed]

theorem clients_counted_gone : ∃ reactor : Reactor (Client.AnyReader Unit),
    reactor.client.held .proxy = ∅ ∧ reactor.clientCount .proxy = 0 := by
  have gone : ((follow plainReaders Proper (interrupted .proxy) {}).map fun reactor =>
      reactor.client.held .proxy) = some ∅ := by decide +kernel
  obtain ⟨reactor, followed, held⟩ := Option.map_eq_some_iff.mp gone
  have counted := (clients_counted (follow_run plainReaders (.start rfl) followed) .proxy).1
  exact ⟨reactor, held, by rw [counted, held]; rfl⟩

/-- The decisions that are well formed, whoever they are for. -/
def Formed (_ : Reactor ρ) : Turn → Prop
  | .enactDecision _ decision _ => decision ≠ .malformed
  | _ => True

instance (reactor : Reactor ρ) : DecidablePred reactor.Formed
  | .enactDecision _ decision _ => inferInstanceAs (Decidable (decision ≠ .malformed))
  | .acceptConnection .. | .incomingRequest .. | .incomingClientData .. | .flushClientOutput ..
  | .completeWebConnection .. | .incomingWebData .. | .flushWebOutput .. | .expire .. => .isTrue trivial

/-- A client of the monitor that was given a connection is closed uncounted. -/
theorem web_client_uncounted : ∃ reactor : Reactor (Client.AnyReader Unit),
    Run plainReaders Formed reactor ∧
      reactor.clientCount .web ≠ (reactor.client.held .web).card := by
  have gone : ((follow plainReaders Formed (interrupted .web) {}).map fun reactor =>
      (reactor.clientCount .web, reactor.client.held .web)) = some (1, ∅) := by decide +kernel
  obtain ⟨reactor, followed, same⟩ := Option.map_eq_some_iff.mp gone
  obtain ⟨counted, held⟩ := Prod.mk.inj same
  exact ⟨reactor, follow_run plainReaders (.start rfl) followed, by rw [counted, held]; decide⟩

end Reactor

end ExaProxy
