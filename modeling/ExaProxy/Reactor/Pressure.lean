import ExaProxy.Reactor.Accounts

namespace ExaProxy.Content.ContentManager

open ExaProxy.Data ExaProxy.Network
open ExaProxy.Client (Recv)

variable {manager before middle after current : ContentManager} {sock client other : Sock}
  {downloader : Downloader} {site : Site} {send : Send} {decision : Decision}

/-- A connection that is read afterwards was read before, and served the same client. -/
structure Undisturbed (before after : ContentManager) : Prop where
  served : ∀ client sock, after.byclient.lookup client = some sock → sock ∈ after.established →
    before.byclient.lookup client = some sock ∧ sock ∈ before.established
  watched : ∀ sock, sock ∈ after.established →
    after.poller.interest .readDownload sock = .watched →
    before.poller.interest .readDownload sock = .watched

theorem Undisturbed.refl : Undisturbed manager manager :=
  ⟨fun _ _ byclient held => ⟨byclient, held⟩, fun _ _ watched => watched⟩

theorem Undisturbed.of_eq (byclient : after.byclient = before.byclient)
    (established : after.established = before.established)
    (polled : ∀ sock, after.poller.interest .readDownload sock =
      before.poller.interest .readDownload sock) : Undisturbed before after := by
  constructor
  · rw [byclient, established]
    exact fun _ _ byclient held => ⟨byclient, held⟩
  · exact fun sock _ watched => (polled sock).symm.trans watched

theorem writeData_undisturbed {data : Str} {again : Bool} :
    Undisturbed manager (manager.writeData send sock data again).1 := by
  unfold writeData
  split
  · exact .refl
  · simp only
    split
    · split
      · exact .of_eq rfl rfl fun sock => by simp [Poller.interest_add]
      · exact .of_eq rfl rfl fun sock => rfl
    · split
      · exact .of_eq rfl rfl fun sock => by simp [Poller.interest_remove]
      · exact .of_eq rfl rfl fun sock => rfl

theorem enqueue_undisturbed : Undisturbed manager (manager.enqueue sock downloader) := by
  simp only [enqueue]
  split
  · exact .of_eq rfl rfl fun sock => rfl
  · exact .of_eq rfl rfl fun sock => rfl

theorem sendClientData_undisturbed (registered : manager.Registered) {data : Str} :
    Undisturbed manager (manager.sendClientData send client data).1 := by
  cases serving : manager.serving client with
  | none =>
      rw [sendClientData, serving]
      exact .refl
  | some downloader =>
      rw [sendClientData_eq registered serving]
      split
      · exact writeData_undisturbed
      · exact enqueue_undisturbed

theorem sendSocketData_undisturbed {data : Str} :
    Undisturbed manager (manager.sendSocketData send sock data).1 := by
  unfold sendSocketData
  split
  · exact writeData_undisturbed
  · exact .refl

theorem release_undisturbed {event : Event} :
    Undisturbed manager (manager.release sock client event) := by
  constructor
  · intro owner held byclient established
    simp only [release, Finset.mem_erase] at byclient established
    exact ⟨(lookup_erase_iff.mp byclient).2, established.2⟩
  · intro held established watched
    rw [Registered.release_polled (by simp)] at watched
    split at watched
    · cases watched
    · exact watched

theorem endClientDownload_undisturbed : Undisturbed manager (manager.endClientDownload client) := by
  unfold endClientDownload
  split
  · unfold terminate
    split
    · exact release_undisturbed
    · split
      · exact release_undisturbed
      · exact .refl
  · exact .refl

theorem Cleared.undisturbed (cleared : Cleared manager client current) : Undisturbed manager current := by
  rcases cleared with rfl | rfl
  · exact .refl
  · exact endClientDownload_undisturbed

theorem Undisturbed.trans (first : Undisturbed before middle) (second : Undisturbed middle after)
    (established : ∀ sock ∈ after.established, sock ∈ middle.established) : Undisturbed before after := by
  constructor
  · intro client sock byclient held
    obtain ⟨byclient, held⟩ := second.served client sock byclient held
    exact first.served client sock byclient held
  · intro sock held watched
    exact first.watched sock (established sock held) (second.watched sock held watched)

theorem enlist_undisturbed (registered : manager.Registered) :
    Undisturbed manager (manager.enlist downloader) := by
  constructor
  · intro owner sock byclient held
    rcases lookup_insert_iff.mp byclient with ⟨_, same⟩ | ⟨_, kept⟩
    · have established : sock ∈ manager.established := held
      exact absurd (registered.fresh sock (.inr established)) (by rw [same]; exact Nat.lt_irrefl _)
    · exact ⟨kept, held⟩
  · intro sock held watched
    simpa [enlist, register, Poller.interest_add] using watched

theorem Enacted.undisturbed {result : ContentManager × Answer}
    (enacted : Enacted manager send client decision result) (registered : manager.Registered) :
    Undisturbed manager result.1 := by
  cases enacted with
  | opened current cleared free downloader own theirs opens length =>
      exact cleared.undisturbed.trans (enlist_undisturbed (cleared.registered registered))
        fun sock held => held
  | reused downloader serving opens request length => exact writeData_undisturbed
  | answered content length streams known => exact endClientDownload_undisturbed

theorem corkClientDownload_undisturbed : Undisturbed manager (manager.corkClientDownload client) := by
  unfold corkClientDownload
  split
  · constructor
    · exact fun _ _ byclient held => ⟨byclient, held⟩
    · intro sock held watched
      simp only [Poller.interest_cork] at watched
      split at watched
      · cases watched
      · exact watched
  · exact .refl

theorem corkClientDownload_unwatched (byclient : manager.byclient.lookup client = some sock) :
    (manager.corkClientDownload client).poller.interest .readDownload sock ≠ .watched := by
  unfold corkClientDownload
  rw [byclient]
  exact manager.poller.cork_unwatched .readDownload sock

theorem uncorkClientDownload_other (registered : manager.Registered)
    (byclient : manager.byclient.lookup other = some sock) (different : other ≠ client) :
    (manager.uncorkClientDownload client).poller.interest .readDownload sock =
      manager.poller.interest .readDownload sock := by
  unfold uncorkClientDownload
  cases served : manager.byclient.lookup client with
  | none => rfl
  | some held =>
      have apart : sock ≠ held := by
        intro same
        exact different (registered.client_unique byclient (same ▸ served))
      simp only
      split
      · simp [Poller.interest_uncork, apart]
      · rfl

theorem uncorkClientDownload_established :
    (manager.uncorkClientDownload client).established = manager.established := by
  unfold uncorkClientDownload
  split
  · split <;> rfl
  · rfl

theorem startDownload_served (registered : manager.Registered)
    (byclient : (manager.startDownload site send sock).1.byclient.lookup client = some other)
    (held : other ∈ (manager.startDownload site send sock).1.established) :
    (∃ downloader, sock ∈ manager.opening ∧ manager.downloaders.lookup sock = some downloader ∧
        downloader.client = client) ∨
      other ∈ manager.established ∧
        (manager.startDownload site send sock).1.poller.interest .readDownload other =
          manager.poller.interest .readDownload other := by
  rw [startDownload_byclient] at byclient
  by_cases waits : sock ∈ manager.opening
  · obtain ⟨downloader, found, own, filed⟩ := registered.filed sock (.inl waits)
    by_cases same : other = sock
    · subst same
      exact .inl ⟨downloader, waits, found, registered.client_unique filed byclient⟩
    · apply Or.inr
      simp only [startDownload, waits, found, if_true, Finset.mem_insert, same, false_or] at held ⊢
      refine ⟨held, ?_⟩
      split <;> simp [Poller.interest_add, Poller.interest_remove, same]
  · rw [startDownload, if_neg waits] at held ⊢
    exact .inr ⟨held, rfl⟩

end ExaProxy.Content.ContentManager

namespace ExaProxy

open ExaProxy.Data ExaProxy.Network
open ExaProxy.Client (Source Recv Readers ClientManager)
open ExaProxy.Client.ClientManager (Sending Starting Opening Reading)
open ExaProxy.Content (Send Site Decision ContentManager Reply)
open ExaProxy.Content.ContentManager (Enacted Fetching Undisturbed)

namespace Reactor

/-! A server is not read while its client does not take what was read already,
unless a connection is made for a client that has not taken all of it yet. -/

variable {ρ : Type} {readers : Readers ρ} {reactor before after : Reactor ρ} {client sock : Sock}

/-- A connection is made for a client that has taken all that it was sent. -/
def Drained (reactor : Reactor ρ) : Turn → Prop
  | .completeWebConnection fetcher _ _ _ => fetcher ∈ reactor.content.opening →
      (reactor.content.downloaders.lookup fetcher).all
        (fun downloader => downloader.client ∉ reactor.client.buffered) = true
  | _ => True

instance (reactor : Reactor ρ) : DecidablePred reactor.Drained
  | .completeWebConnection fetcher _ _ _ => inferInstanceAs (Decidable (fetcher ∈ _ → _ = _))
  | .acceptConnection .. | .incomingRequest .. | .incomingClientData .. | .flushClientOutput ..
  | .incomingWebData .. | .flushWebOutput .. | .enactDecision .. | .expire .. => .isTrue trivial

/-- What holds after every turn: a client is among the buffered ones at most once,
and its connection is not read while it is. -/
structure Pressed (reactor : Reactor ρ) : Prop where
  registered : reactor.content.Registered
  corked : ∀ client sock, reactor.content.byclient.lookup client = some sock →
    sock ∈ reactor.content.established → reactor.client.buffered.count client ≤ 1 ∧
      (client ∈ reactor.client.buffered →
        reactor.content.poller.interest .readDownload sock ≠ .watched)

namespace Pressed

theorem initial : Pressed ({} : Reactor ρ) where
  registered := .initial
  corked := by simp

/-- A turn after which no client is buffered that was not, and no connection read. -/
theorem eased (pressed : before.Pressed) (registered : after.content.Registered)
    (undisturbed : Undisturbed before.content after.content)
    (fewer : ∀ client, after.client.buffered.count client ≤ before.client.buffered.count client) :
    after.Pressed where
  registered := registered
  corked := by
    intro client sock byclient held
    obtain ⟨byclient, earlier⟩ := undisturbed.served client sock byclient held
    obtain ⟨once, corked⟩ := pressed.corked client sock byclient earlier
    refine ⟨Nat.le_trans (fewer client) once, fun buffered watched => ?_⟩
    have before : client ∈ before.client.buffered :=
      List.count_pos_iff.mp (Nat.lt_of_lt_of_le (List.count_pos_iff.mpr buffered) (fewer client))
    exact corked before (undisturbed.watched sock held watched)

theorem content_eased (pressed : reactor.Pressed) {content : ContentManager}
    (registered : content.Registered) (undisturbed : Undisturbed reactor.content content) :
    ({ reactor with content } : Reactor ρ).Pressed :=
  pressed.eased registered undisturbed fun _ => Nat.le_refl _

theorem client_eased (pressed : reactor.Pressed) {manager : ClientManager ρ}
    (fewer : ∀ client, manager.buffered.count client ≤ reactor.client.buffered.count client) :
    ({ reactor with client := manager } : Reactor ρ).Pressed :=
  pressed.eased pressed.registered .refl fewer

theorem client_kept (pressed : reactor.Pressed) {manager : ClientManager ρ}
    (kept : manager.buffered = reactor.client.buffered) :
    ({ reactor with client := manager } : Reactor ρ).Pressed :=
  pressed.client_eased fun client => Nat.le_of_eq (by rw [kept])

theorem client_erased (pressed : reactor.Pressed) {manager : ClientManager ρ} (sock : Sock)
    (erased : manager.buffered = reactor.client.buffered.erase sock) :
    ({ reactor with client := manager } : Reactor ρ).Pressed :=
  pressed.client_eased fun client => by
    rw [erased]
    exact List.erase_sublist.count_le client

theorem cleaned (pressed : reactor.Pressed) (client : Sock) (name : Nat) :
    ({ reactor with client := reactor.client.cleanup client name } : Reactor ρ).Pressed :=
  pressed.client_erased client rfl

theorem notifyClose (pressed : reactor.Pressed) (source : Source) : (reactor.notifyClose source).Pressed :=
  ⟨pressed.registered, pressed.corked⟩

theorem sendRequest (pressed : reactor.Pressed) (name : Nat) : (reactor.sendRequest name).Pressed :=
  ⟨pressed.registered, pressed.corked⟩

theorem closeClient (pressed : reactor.Pressed) (source : Option Source) :
    (reactor.closeClient source).Pressed := by
  cases source with
  | none => exact pressed
  | some source => exact pressed.notifyClose source

theorem closeServed (pressed : reactor.Pressed) (source : Option Source) :
    (reactor.closeServed source).Pressed := by
  unfold Reactor.closeServed
  split
  · exact pressed.notifyClose _
  · exact pressed.notifyClose _
  · exact pressed.notifyClose _
  · exact pressed
  · exact pressed
  · exact pressed

theorem endDownload (pressed : reactor.Pressed) : (reactor.endDownload client).Pressed :=
  pressed.content_eased (ContentManager.Cleared.registered (.inr rfl) pressed.registered)
    ContentManager.endClientDownload_undisturbed

theorem noteUpload (pressed : reactor.Pressed) (client : Sock) (status bufferChange : Option Bool) :
    (reactor.noteUpload client status bufferChange).Pressed := by
  have corked : (reactor.client.corkUpload client).buffered = reactor.client.buffered := by
    unfold ClientManager.corkUpload
    split <;> rfl
  have uncorked : (reactor.client.uncorkUpload client).buffered = reactor.client.buffered := by
    unfold ClientManager.uncorkUpload
    split <;> rfl
  unfold Reactor.noteUpload
  split
  · split
    · exact pressed.client_kept corked
    · exact pressed.client_kept uncorked
  · exact pressed

theorem relay (pressed : reactor.Pressed) (data : Str) (send : Send) :
    (reactor.relay client data send).Pressed := by
  have changes : ContentManager.Changes (fun _ _ _ => True) reactor.content
      (reactor.content.sendClientData send client data).1 :=
    ContentManager.sendClientData_changes pressed.registered
  have relayed : ({ reactor with
      content := (reactor.content.sendClientData send client data).1 } : Reactor ρ).Pressed :=
    pressed.content_eased (ContentManager.Changes.registered changes pressed.registered)
      (ContentManager.sendClientData_undisturbed pressed.registered)
  exact relayed.noteUpload client _ _

theorem acceptConnection (pressed : reactor.Pressed) (source : Source) :
    (reactor.acceptConnection readers source).Pressed := by
  cases source with
  | passthrough => exact ⟨pressed.registered, pressed.corked⟩
  | proxy => exact ⟨pressed.registered, pressed.corked⟩
  | web => exact ⟨pressed.registered, pressed.corked⟩
  | icap => exact ⟨pressed.registered, pressed.corked⟩
  | tls => exact ⟨pressed.registered, pressed.corked⟩

theorem incomingRequest (pressed : reactor.Pressed) {recv : List Recv}
    (ok : reactor.incomingRequest readers client recv = .ok after) : after.Pressed := by
  have opening : Opening readers reactor.client client recv _ := ClientManager.readRequest_opening recv
  unfold Reactor.incomingRequest at ok
  generalize reactor.client.readRequest readers client recv = result at opening ok
  cases opening with
  | absent missing =>
      cases ok
      exact pressed
  | raised => cases ok
  | asked held found text reader read =>
      cases ok
      apply sendRequest
      exact pressed.client_kept rfl
  | closed held found =>
      cases ok
      exact (pressed.cleaned client held.name).notifyClose held.source
  | kept held found yielded reader read quiet =>
      rcases quiet with rfl | ⟨data, rfl⟩
      · cases ok
        exact pressed.client_kept rfl
      · cases ok
        exact pressed.client_kept rfl

theorem incomingClientData (pressed : reactor.Pressed) {recv : List Recv} {send : Send}
    (ok : reactor.incomingClientData readers client recv send = .ok after) : after.Pressed := by
  have reading : Reading readers reactor.client client recv _ := ClientManager.readData_reading recv
  unfold Reactor.incomingClientData at ok
  generalize reactor.client.readData readers client recv = result at reading ok
  cases reading with
  | absent missing =>
      cases ok
      exact pressed
  | raised => cases ok
  | asked held found text reader read =>
      cases ok
      apply sendRequest
      exact pressed.client_kept rfl
  | closed held found =>
      cases ok
      exact (pressed.cleaned client held.name).endDownload.notifyClose held.source
  | kept held found yielded reader read quiet =>
      have kept : ({ reactor with client := reactor.client.put client { held with reader } } :
          Reactor ρ).Pressed := pressed.client_kept rfl
      rcases quiet with rfl | ⟨data, rfl⟩
      · cases ok
        exact kept
      · cases ok
        by_cases empty : data = []
        · simp only [if_pos empty]
          exact kept
        · simp only [if_neg empty]
          exact kept.relay data send

theorem expire (pressed : reactor.Pressed) : (reactor.expire client).Pressed := by
  unfold Reactor.expire ClientManager.expireOne
  cases found : reactor.client.norequest.lookup client with
  | none => exact pressed
  | some held => exact (pressed.cleaned client held.name).closeClient (some held.source)

theorem flushWebOutput (pressed : reactor.Pressed) {fetcher : Sock} {send : Send} :
    (reactor.flushWebOutput fetcher send).Pressed := by
  have changes : ContentManager.Changes (fun _ _ _ => True) reactor.content
      (reactor.content.sendSocketData send fetcher []).1 := ContentManager.sendSocketData_changes
  have flushed : ({ reactor with content := (reactor.content.sendSocketData send fetcher []).1 } :
      Reactor ρ).Pressed :=
    pressed.content_eased (ContentManager.Changes.registered changes pressed.registered)
      ContentManager.sendSocketData_undisturbed
  unfold Reactor.flushWebOutput
  generalize reactor.content.sendSocketData send fetcher [] = result at flushed ⊢
  obtain ⟨content, status, bufferChange, owner⟩ := result
  cases owner with
  | none => exact flushed
  | some client => exact flushed.noteUpload client _ _

/-- A client that is buffered from now on has its connection corked. -/
theorem cork (pressed : reactor.Pressed) {manager : ClientManager ρ} (absent : client ∉ reactor.client.buffered)
    (grown : manager.buffered = reactor.client.buffered ++ [client]) :
    ({ reactor with
      client := manager
      content := reactor.content.corkClientDownload client } : Reactor ρ).Pressed where
  registered := pressed.registered.corkClientDownload
  corked := by
    intro other sock byclient held
    obtain ⟨earlier, established⟩ :=
      ContentManager.corkClientDownload_undisturbed.served other sock byclient held
    obtain ⟨once, corked⟩ := pressed.corked other sock earlier established
    by_cases same : other = client
    · subst same
      refine ⟨?_, fun _ => ContentManager.corkClientDownload_unwatched earlier⟩
      simp [grown, List.count_eq_zero.mpr absent]
    · refine ⟨by simpa [grown, Ne.symm same] using once, fun buffered watched => ?_⟩
      have before : other ∈ reactor.client.buffered := by simpa [grown, same] using buffered
      exact corked before (ContentManager.corkClientDownload_undisturbed.watched sock held watched)

/-- A client that has taken all that it was sent has its connection uncorked. -/
theorem uncork (pressed : reactor.Pressed) {manager : ClientManager ρ}
    (shrunk : manager.buffered = reactor.client.buffered.erase client) :
    ({ reactor with
      client := manager
      content := reactor.content.uncorkClientDownload client } : Reactor ρ).Pressed where
  registered := pressed.registered.uncorkClientDownload
  corked := by
    intro other sock byclient held
    rw [ContentManager.uncorkClientDownload_byclient] at byclient
    have established : sock ∈ reactor.content.established := by
      rw [← ContentManager.uncorkClientDownload_established]
      exact held
    obtain ⟨once, corked⟩ := pressed.corked other sock byclient established
    rw [shrunk]
    by_cases same : other = client
    · subst same
      have gone : (reactor.client.buffered.erase other).count other = 0 := by
        rw [List.count_erase_self]
        omega
      exact ⟨by omega, fun buffered => absurd buffered (List.count_eq_zero.mp gone)⟩
    · rw [List.count_erase_of_ne same]
      refine ⟨once, fun buffered => ?_⟩
      rw [ContentManager.uncorkClientDownload_other pressed.registered byclient same]
      exact corked (List.mem_of_mem_erase buffered)

theorem flushClientOutput (pressed : reactor.Pressed) {send : Send}
    (ok : reactor.flushClientOutput client send = .ok after) : after.Pressed := by
  obtain ⟨⟨manager, sent⟩, sends, rfl⟩ := map_ok ok
  have sending := ClientManager.sendData_sending sends
  cases sending with
  | absent missing => exact pressed
  | closed held found ended =>
      exact (pressed.cleaned client held.name).endDownload.closeClient (some held.source)
  | kept held found writer buffered hadBuffer resumed =>
      rcases ClientManager.noteBuffer_buffered (reactor.client.put client { held with writer }) client
        buffered hadBuffer with ⟨rfl, absent, grown, changed⟩ | ⟨rfl, shrunk, changed⟩ | ⟨kept, changed⟩
      · simp only [changed, reduceCtorEq, false_and, if_false, if_true]
        exact pressed.cork absent grown
      · simp only [changed, reduceCtorEq, false_and, if_false, if_true]
        exact pressed.uncork shrunk
      · simp only [changed, reduceCtorEq, false_and, if_false]
        exact pressed.client_kept kept

theorem answerClient (pressed : reactor.Pressed) {response : Str} {send : Send}
    (ok : reactor.answerClient client response send = .ok after) : after.Pressed := by
  obtain ⟨⟨manager, sent⟩, sends, rfl⟩ := map_ok ok
  have sending := ClientManager.sendData_sending sends
  cases sending with
  | absent missing => exact (pressed.closeServed none).endDownload
  | closed held found ended =>
      exact ((pressed.cleaned client held.name).closeServed (some held.source)).endDownload
  | kept held found writer buffered hadBuffer resumed =>
      rcases ClientManager.noteBuffer_buffered (reactor.client.put client { held with writer }) client
        buffered hadBuffer with ⟨rfl, absent, grown, changed⟩ | ⟨rfl, shrunk, changed⟩ | ⟨kept, changed⟩
      · simp only [changed, reduceCtorEq, if_false, if_true]
        exact pressed.cork absent grown
      · simp only [changed, reduceCtorEq, if_false, if_true]
        exact pressed.uncork shrunk
      · simp only [changed, reduceCtorEq, if_false]
        exact pressed.client_kept kept

/-- The data of a server is sent on to its client. -/
theorem sendOn (pressed : reactor.Pressed) {pageData : Option Str} {send : Send}
    {sent : ClientManager ρ × ClientManager.Sent}
    (sending : Sending reactor.client client pageData send sent) :
    Pressed (if sent.2.status = none then
        if pageData ≠ none then
          ({ reactor with client := sent.1 }.closeServed sent.2.source).endDownload client
        else { reactor with client := sent.1 }.closeServed sent.2.source
      else if sent.2.bufferChange = some true ∧ sent.2.status = some true then
        { reactor with client := sent.1, content := reactor.content.corkClientDownload client }
      else { reactor with client := sent.1 } : Reactor ρ) := by
  cases sending with
  | absent missing =>
      simp only [if_true]
      split
      · exact (pressed.closeServed none).endDownload
      · exact pressed.closeServed none
  | closed held found ended =>
      have closed := (pressed.cleaned client held.name).closeServed (some held.source)
      simp only [if_true]
      split
      · exact closed.endDownload
      · exact closed
  | kept held found writer buffered hadBuffer resumed =>
      rcases ClientManager.noteBuffer_buffered (reactor.client.put client { held with writer }) client
        buffered hadBuffer with ⟨rfl, absent, grown, changed⟩ | ⟨rfl, shrunk, changed⟩ | ⟨kept, changed⟩
      · simp only [changed, reduceCtorEq, if_false, if_true, and_self]
        exact pressed.cork absent grown
      · simp only [reduceCtorEq, if_false, Option.some.injEq, Bool.false_eq_true, and_false]
        exact pressed.client_erased client shrunk
      · simp only [changed, reduceCtorEq, if_false, Option.some.injEq, Bool.false_eq_true, false_and]
        exact pressed.client_kept kept

theorem incomingWebData (pressed : reactor.Pressed) {fetcher : Sock} {recv : Recv} {send : Send}
    (ok : reactor.incomingWebData fetcher recv send = .ok after) : after.Pressed := by
  have fetching := ContentManager.readData_fetching pressed.registered fetcher recv
  unfold Reactor.incomingWebData at ok
  generalize reactor.content.readData fetcher recv = result at fetching ok
  cases fetching with
  | absent =>
      cases ok
      exact pressed
  | read client byclient held data received =>
      obtain ⟨sent, sends, rfl⟩ := map_ok ok
      exact pressed.sendOn (ClientManager.sendData_sending sends)
  | ended client byclient held =>
      obtain ⟨sent, sends, rfl⟩ := map_ok ok
      exact pressed.endDownload.sendOn (ClientManager.sendData_sending sends)

theorem completeWebConnection (pressed : reactor.Pressed) {fetcher : Sock} {site : Site}
    {send clientSend : Send}
    (drained : reactor.Drained (.completeWebConnection fetcher site send clientSend))
    (ok : reactor.completeWebConnection fetcher site send clientSend = .ok after) : after.Pressed := by
  have changes : ContentManager.Changes (fun _ _ _ => True) reactor.content
      (reactor.content.startDownload site send fetcher).1 :=
    ContentManager.startDownload_changes fun _ => trivial
  have started : ({ reactor with content := (reactor.content.startDownload site send fetcher).1 } :
      Reactor ρ).Pressed := by
    refine ⟨ContentManager.Changes.registered changes pressed.registered, ?_⟩
    intro client sock byclient held
    rcases ContentManager.startDownload_served pressed.registered byclient held with
      ⟨downloader, waits, found, rfl⟩ | ⟨established, same⟩
    · have absent := drained waits
      rw [found, Option.all_some, decide_eq_true_eq] at absent
      exact ⟨by simp [List.count_eq_zero.mpr absent], fun buffered => absurd buffered absent⟩
    · rw [ContentManager.startDownload_byclient] at byclient
      rw [same]
      exact pressed.corked client sock byclient established
  rcases completeWebConnection_ok ok with ⟨_, rfl⟩ | ⟨client, told, rfl | ⟨response, _, _, answered⟩⟩
  · exact started
  · exact started.noteUpload _ _ _
  · exact (started.noteUpload _ _ _).answerClient answered

/-- A client without a connection can be buffered as it likes. -/
theorem grown (pressed : reactor.Pressed) {manager : ClientManager ρ}
    (alone : reactor.content.byclient.lookup client = none)
    (grown : manager.buffered = reactor.client.buffered ++ [client]) :
    ({ reactor with client := manager } : Reactor ρ).Pressed where
  registered := pressed.registered
  corked := by
    intro other sock byclient held
    have different : other ≠ client := by
      intro same
      rw [same, alone] at byclient
      cases byclient
    obtain ⟨once, corked⟩ := pressed.corked other sock byclient held
    refine ⟨by simpa [grown, Ne.symm different] using once, fun buffered => ?_⟩
    exact corked (by simpa [grown, different] using buffered)

theorem enactDecision (pressed : reactor.Pressed) {decision : Decision} {outside : Outside}
    (ok : reactor.enactDecision readers client decision outside = .ok after) : after.Pressed := by
  obtain ⟨⟨content, answer⟩, enacts, ok⟩ := bind_ok ok
  obtain ⟨⟨manager, data, source⟩, starts, ok⟩ := bind_ok ok
  have enacted := ContentManager.getContent_enacted pressed.registered enacts
  have changes : ContentManager.Changes (fun _ _ _ => True) reactor.content content :=
    enacted.changes pressed.registered
  have registered := ContentManager.Changes.registered changes pressed.registered
  have noted := (pressed.content_eased registered (enacted.undisturbed pressed.registered)).noteUpload
    client answer.buffered answer.bufferChange
  have same := noteUpload_content { reactor with content } client answer.buffered answer.bufferChange
  have starting := ClientManager.startData_starting starts
  generalize { reactor with content }.noteUpload client answer.buffered answer.bufferChange = middle
    at ok starts starting noted same
  cases starting with
  | absent missing =>
      cases ok
      exact noted.endDownload
  | unanswered held found invalid =>
      cases ok
      exact noted.endDownload.notifyClose held.source
  | closed held found =>
      cases ok
      exact (noted.cleaned client held.name).endDownload.notifyClose held.source
  | kept held found reply valid writer buffered hadBuffer answers yielded reader data read yields
      started begun =>
      have begins : ({ middle with client := manager } : Reactor ρ).Pressed := by
        rcases ClientManager.startBuffer_buffered begun with ⟨added, empty, grows⟩ | shrunk | kept
        · rcases enacted.answer_stream pressed.registered with stream | alone
          · rw [valid, Option.some.injEq] at stream
            subst stream
            rw [ClientManager.startData_stream_nil answers empty] at added
            cases added
          · have free : middle.content.byclient.lookup client = none := by
              rw [same]
              exact alone
            exact noted.grown free grows
        · exact noted.client_erased client shrunk
        · exact noted.client_kept kept
      cases data with
      | nil =>
          cases ok
          exact begins
      | cons byte rest =>
          cases ok
          exact begins.relay (byte :: rest) outside.upload

end Pressed

theorem Pressed.take (pressed : before.Pressed) {turn : Turn} (drained : before.Drained turn)
    (ok : before.take readers turn = .ok after) : after.Pressed := by
  cases turn with
  | acceptConnection source =>
      cases ok
      exact pressed.acceptConnection source
  | incomingRequest client recv => exact pressed.incomingRequest ok
  | incomingClientData client recv send => exact pressed.incomingClientData ok
  | flushClientOutput client send => exact pressed.flushClientOutput ok
  | completeWebConnection fetcher site send clientSend =>
      exact pressed.completeWebConnection drained ok
  | incomingWebData fetcher recv send => exact pressed.incomingWebData ok
  | flushWebOutput fetcher send =>
      cases ok
      exact pressed.flushWebOutput
  | enactDecision client decision outside => exact pressed.enactDecision ok
  | expire client =>
      cases ok
      exact pressed.expire

/-- In every run in which connections are made for clients that have taken all they
were sent, no connection is read whose client has not. -/
theorem unread_while_buffered (run : Run readers Drained reactor)
    (buffered : client ∈ reactor.client.buffered)
    (byclient : reactor.content.byclient.lookup client = some sock)
    (held : sock ∈ reactor.content.established) :
    reactor.content.poller.interest .readDownload sock ≠ .watched := by
  have pressed := Reachable.invariant run Pressed (fun _ initial => initial ▸ .initial)
    fun _ _ _ pressed ⟨_, drained, ok⟩ => pressed.take drained ok
  exact (pressed.corked client sock byclient held).2 buffered

/-- A client asks for a page and does not read it yet. -/
def unhurried : List Turn :=
  [.acceptConnection .proxy, .incomingRequest 0 [.data request],
    .enactDecision 0 ContentManager.firstRequest calm,
    .completeWebConnection 0 ContentManager.anySite (.accepted 4) (.accepted 4),
    .incomingWebData 0 (.data (ascii "HTTP/1.1 200 OK")) .wouldBlock]

/-- What the counterexample and the witness look at. -/
def pressure (reactor : Reactor ρ) (sock : Sock) : Bool × Option Sock × Bool × Interest :=
  (0 ∈ reactor.client.buffered, reactor.content.byclient.lookup 0,
    sock ∈ reactor.content.established, reactor.content.poller.interest .readDownload sock)

theorem unread_while_buffered_corked : ∃ reactor : Reactor (Client.AnyReader Unit),
    0 ∈ reactor.client.buffered ∧ reactor.content.poller.interest .readDownload 0 ≠ .watched := by
  have waits : ((follow plainReaders Drained unhurried {}).map fun reactor => reactor.pressure 0) =
      some (true, some 0, true, .corked) := by decide +kernel
  obtain ⟨reactor, followed, seen⟩ := Option.map_eq_some_iff.mp waits
  simp only [pressure, Prod.mk.injEq, decide_eq_true_eq] at seen
  exact ⟨reactor, seen.1, unread_while_buffered (follow_run plainReaders (.start rfl) followed) seen.1
    seen.2.1 seen.2.2.1⟩

/-- The request of client 0 for another host. -/
def secondRequest : Decision :=
  .download (ascii "10.0.0.2") (ascii "80") [] (ascii "0") (ascii "GET / HTTP/1.1\r\n\r\n")

/-- The client asks another host for a page before it has read the first one: the
second connection is read at once. -/
theorem read_while_buffered : ∃ reactor : Reactor (Client.AnyReader Unit),
    Run plainReaders Formed reactor ∧ 0 ∈ reactor.client.buffered ∧
      reactor.content.byclient.lookup 0 = some 1 ∧ 1 ∈ reactor.content.established ∧
      reactor.content.poller.interest .readDownload 1 = .watched := by
  have reads : ((follow plainReaders Formed (unhurried ++
      [.incomingClientData 0 [.data request] (.accepted 4),
        .enactDecision 0 secondRequest { calm with answer := .wouldBlock },
        .completeWebConnection 1 ContentManager.anySite (.accepted 4) (.accepted 4)]) {}).map
          fun reactor => reactor.pressure 1) = some (true, some 1, true, .watched) := by decide +kernel
  obtain ⟨reactor, followed, seen⟩ := Option.map_eq_some_iff.mp reads
  simp only [pressure, Prod.mk.injEq, decide_eq_true_eq] at seen
  exact ⟨reactor, follow_run plainReaders (.start rfl) followed, seen⟩

end Reactor

end ExaProxy
