import ExaProxy.Content.Changes

namespace ExaProxy.Content

open ExaProxy.Data ExaProxy.Network
open ExaProxy.Client (Recv)

namespace ContentManager

abbrev Changes (starts : ContentManager → Sock → Send → Prop) :=
  Relation.ReflTransGen (Change starts)

variable {manager before after current : ContentManager} {starts : ContentManager → Sock → Send → Prop}
  {sock client other : Sock} {downloader : Downloader} {site : Site} {send : Send} {host request : Str}
  {port : Int} {method : HostCommand} {decision : Decision}

theorem Changes.registered (changes : Changes starts before after) (registered : before.Registered) :
    after.Registered := by
  induction changes with
  | refl => exact registered
  | tail _ change ih => exact change.registered ih

theorem terminate_eq (registered : manager.Registered)
    (served : manager.byclient.lookup client = some sock) : ∃ event,
      manager.terminate sock client = manager.release sock client event ∧
        (event = .readDownload ∧ sock ∈ manager.established ∨
          event = .openingDownload ∧ sock ∈ manager.opening) := by
  unfold terminate
  by_cases held : sock ∈ manager.established
  · exact ⟨.readDownload, if_pos held, .inl ⟨rfl, held⟩⟩
  · have waits : sock ∈ manager.opening := (registered.served client sock served).1.resolve_right held
    exact ⟨.openingDownload, by rw [if_neg held, if_pos waits], .inr ⟨rfl, waits⟩⟩

theorem terminate_changes (registered : manager.Registered)
    (served : manager.byclient.lookup client = some sock) :
    Changes starts manager (manager.terminate sock client) := by
  obtain ⟨event, same, polled⟩ := terminate_eq registered served
  rw [same]
  exact .single (.released client sock event served polled)

theorem endClientDownload_changes (registered : manager.Registered) :
    Changes starts manager (manager.endClientDownload client) := by
  unfold endClientDownload
  split
  · next served => exact terminate_changes registered served
  · exact .refl

theorem release_byclient {event : Event} :
    (manager.release sock client event).byclient = manager.byclient.erase client := rfl

theorem endClientDownload_byclient (registered : manager.Registered) :
    (manager.endClientDownload client).byclient = manager.byclient.erase client := by
  unfold endClientDownload
  split
  · next sock served =>
      obtain ⟨event, same, _⟩ := terminate_eq registered served
      rw [same, release_byclient]
  · next free => exact (erase_absent fun member => by
      rw [← AList.lookup_isSome, free] at member
      cases member).symm

theorem endClientDownload_free (registered : manager.Registered) :
    (manager.endClientDownload client).byclient.lookup client = none := by
  rw [endClientDownload_byclient registered, AList.lookup_erase]

theorem endClientDownload_absent (free : manager.byclient.lookup client = none) :
    manager.endClientDownload client = manager := by
  rw [endClientDownload, free]

/-- A manager, or the same without the client's connection. -/
def Cleared (manager : ContentManager) (client : Sock) (current : ContentManager) : Prop :=
  current = manager ∨ current = manager.endClientDownload client

theorem Cleared.changes (cleared : Cleared manager client current) (registered : manager.Registered) :
    Changes starts manager current := by
  rcases cleared with rfl | rfl
  · exact .refl
  · exact endClientDownload_changes registered

theorem Cleared.registered (cleared : Cleared manager client current) (registered : manager.Registered) :
    current.Registered := by
  have changes : Changes (fun _ _ _ => True) manager current := cleared.changes registered
  exact Changes.registered changes registered

theorem Cleared.ended (cleared : Cleared manager client current) (registered : manager.Registered) :
    current.endClientDownload client = manager.endClientDownload client := by
  rcases cleared with rfl | rfl
  · rfl
  · exact endClientDownload_absent (endClientDownload_free registered)

/-- A connection for a request that is still to be sent. -/
def newDownloader (manager : ContentManager) (client : Sock) (host : Str) (port : Int)
    (method : HostCommand) (request : Str) : Downloader :=
  { client, sock := manager.sockets, host, port, method, wBuffer := request }

/-- What `getDownloader` can return. -/
inductive Obtained (manager : ContentManager) (client : Sock) (host : Str) (port : Int)
    (method : HostCommand) (request : Str) : ContentManager × Option Sock × Bool → Prop
  | nothing (current : ContentManager) (cleared : Cleared manager client current) :
      Obtained manager client host port method request (current, none, false)
  | existing (downloader : Downloader) (serving : manager.serving client = some downloader)
      (same : downloader.host = host ∧ downloader.port = port) :
      Obtained manager client host port method request (manager, some downloader.sock, false)
  | created (current : ContentManager) (cleared : Cleared manager client current)
      (free : current.byclient.lookup client = none) :
      Obtained manager client host port method request
        ({ current with
          sockets := current.sockets + 1
          downloaders := current.downloaders.insert current.sockets
            (current.newDownloader client host port method request) }, some current.sockets, true)

/-- The connection that `getDownloader` would use again. -/
def reusable (manager : ContentManager) (client : Sock) (host : Str) (port : Int) : Option Downloader :=
  (manager.serving client).filter fun downloader => downloader.host = host ∧ downloader.port = port

/-- The manager that `getDownloader` goes on with. -/
def cleared (manager : ContentManager) (client : Sock) (host : Str) (port : Int) : ContentManager :=
  if (manager.reusable client host port).isSome then manager else manager.endClientDownload client

theorem reuse_eq (registered : manager.Registered) : manager.reuse client host port =
    (manager.cleared client host port, (manager.reusable client host port).map Downloader.sock) := by
  unfold reuse cleared reusable
  cases serving : manager.serving client with
  | none =>
      have free := endClientDownload_absent (registered.serving_none.mp serving)
      simp [free]
  | some downloader =>
      by_cases same : downloader.host = host ∧ downloader.port = port
      · simp only [Option.filter_some, same, and_self, decide_true, if_true]
        simp
      · have other : host ≠ downloader.host ∨ port ≠ downloader.port := by
          rw [eq_comm, eq_comm (a := downloader.port)] at same
          exact not_and_or.mp same
        simp only [if_pos other, Option.filter_some, same, decide_false]
        simp

theorem getDownloader_eq (registered : manager.Registered) :
    manager.getDownloader site client host port method request =
      (isip site host).bind fun valid =>
        if valid = false then .ok (manager.cleared client host port, none, false)
        else
          match manager.reusable client host port with
          | some downloader => .ok (manager, some downloader.sock, false)
          | none =>
              if site.refused host port then .ok (manager.endClientDownload client, none, false)
              else ((manager.endClientDownload client).openDownloader site client host port method
                request).map fun (current, opened) => (current, opened, opened.isSome) := by
  unfold getDownloader
  rw [reuse_eq registered]
  cases checked : isip site host with
  | error raised => rfl
  | ok valid =>
      cases valid with
      | false => rfl
      | true =>
          unfold cleared
          cases reused : manager.reusable client host port with
          | some downloader => rfl
          | none =>
              simp only [Option.map_none]
              by_cases refused : site.refused host port
              · simp [refused, bind, Except.bind, pure, Except.pure]
              · cases opened : (manager.endClientDownload client).openDownloader site client host port
                  method request with
                | error raised => simp [refused, opened, bind, Except.bind, Except.map]
                | ok result => simp [refused, opened, bind, Except.bind, Except.map, pure, Except.pure]

theorem cleared_cleared : Cleared manager client (manager.cleared client host port) := by
  unfold cleared
  split
  · exact .inl rfl
  · exact .inr rfl

theorem reusable_some (reused : manager.reusable client host port = some downloader) :
    manager.serving client = some downloader ∧ downloader.host = host ∧ downloader.port = port := by
  simpa [reusable, Option.filter_eq_some_iff] using reused

theorem getDownloader_obtained (registered : manager.Registered)
    {result : ContentManager × Option Sock × Bool}
    (obtained : manager.getDownloader site client host port method request = .ok result) :
    Obtained manager client host port method request result := by
  rw [getDownloader_eq registered] at obtained
  cases checked : isip site host with
  | error raised => simp [checked, Except.bind] at obtained
  | ok valid =>
      simp only [checked, Except.bind] at obtained
      split at obtained
      · cases obtained
        exact .nothing _ cleared_cleared
      · split at obtained
        · next downloader reused =>
            cases obtained
            obtain ⟨serving, same⟩ := reusable_some reused
            exact .existing downloader serving same
        · split at obtained
          · cases obtained
            exact .nothing _ (.inr rfl)
          · simp only [openDownloader] at obtained
            split at obtained
            · cases obtained
            · split at obtained
              · cases obtained
                exact .created _ (.inr rfl) (endClientDownload_free registered)
              · cases obtained
                exact .nothing _ (.inr rfl)

theorem contact_ok {portText data : Str} {asked : Option Str} {length : Remaining} {refusal : Reply}
    {prepared : Prepared} (ok : manager.contact site client host portText method data asked length
      refusal = .ok prepared) : ∃ port current sock new,
    manager.getDownloader site client host port method data = .ok (current, sock, new) ∧
      prepared = if sock.isSome then ⟨current, sock, new, asked, some (.stream []), length⟩
        else ⟨current, none, false, asked, some refusal, .number 0⟩ := by
  simp only [contact, bind, Except.bind, pure, Except.pure] at ok
  cases number : portOf portText with
  | error raised => simp [number] at ok
  | ok port =>
      cases got : manager.getDownloader site client host port method data with
      | error raised => simp [number, got] at ok
      | ok result =>
          obtain ⟨current, sock, new⟩ := result
          simp only [number, got] at ok
          refine ⟨port, current, sock, new, got, ?_⟩
          split at ok <;> next some => simpa [some] using (Except.ok.inj ok).symm

/-- What a decision comes to, once it is enacted: a new connection, a further
request on the one there is, or an answer without a connection. -/
inductive Enacted (manager : ContentManager) (send : Send) (client : Sock) (decision : Decision) :
    ContentManager × Answer → Prop
  | opened (current : ContentManager) (cleared : Cleared manager client current)
      (free : current.byclient.lookup client = none) (downloader : Downloader)
      (own : downloader.sock = current.sockets) (theirs : downloader.client = client)
      (opens : decision.opens = true) (length : Remaining) :
      Enacted manager send client decision
        (current.enlist downloader, ⟨some (.stream []), length, none, none⟩)
  | reused (downloader : Downloader) (serving : manager.serving client = some downloader)
      (opens : decision.opens = true) (request : Str) (length : Remaining) :
      Enacted manager send client decision
        ((manager.writeData send downloader.sock request false).1,
          ⟨some (.stream []), length, (manager.writeData send downloader.sock request false).2.1,
            (manager.writeData send downloader.sock request false).2.2⟩)
  | answered (content : Option Reply) (length : Remaining)
      (streams : ∀ data, content = some (.stream data) → ∃ length, decision = .icap data length)
      (known : content = none → decision = .malformed) :
      Enacted manager send client decision
        (manager.endClientDownload client, ⟨content, length, none, none⟩)

theorem conclude_answered (cleared : Cleared manager client current) (registered : manager.Registered)
    {asked : Option Str} {content : Option Reply} {length : Remaining} :
    conclude send client ⟨current, none, false, asked, content, length⟩ =
      .ok (manager.endClientDownload client, ⟨content, length, none, none⟩) := by
  simp only [conclude]
  split
  · rw [cleared.ended registered]
  · next absent =>
      have free : current.byclient.lookup client = none := AList.lookup_eq_none.mpr absent
      rw [← endClientDownload_absent free, cleared.ended registered]

theorem LocalContent.not_stream (content : LocalContent) (data : Str) :
    content.reply ≠ .stream data := by
  cases content <;> simp [LocalContent.reply]

theorem contact_enacted (registered : manager.Registered) {portText data : Str} {asked : Option Str}
    {length : Remaining} {refusal : Reply} {prepared : Prepared} {result : ContentManager × Answer}
    (opens : decision.opens = true) (plain : ∀ data, refusal ≠ .stream data)
    (ok : manager.contact site client host portText method data asked length refusal = .ok prepared)
    (concluded : conclude send client prepared = .ok result) :
    Enacted manager send client decision result := by
  obtain ⟨port, current, sock, new, got, rfl⟩ := contact_ok ok
  cases getDownloader_obtained registered got with
  | nothing _ cleared =>
      simp only [Option.isSome_none, Bool.false_eq_true, if_false] at concluded
      rw [conclude_answered cleared registered] at concluded
      cases concluded
      exact .answered _ _ (fun data same => absurd (Option.some.inj same) (plain data)) (by simp)
  | existing downloader serving same =>
      simp only [Option.isSome_some, if_true, conclude, Bool.false_eq_true, if_false] at concluded
      cases asked with
      | none => cases concluded
      | some asked =>
          cases concluded
          exact .reused downloader serving opens asked length
  | created current cleared free =>
      simp only [Option.isSome_some, if_true, conclude] at concluded
      cases concluded
      exact .opened current cleared free (current.newDownloader client host port method data) rfl rfl
        opens length

theorem getContent_enacted (registered : manager.Registered) {result : ContentManager × Answer}
    (ok : manager.getContent site send client decision = .ok result) :
    Enacted manager send client decision result := by
  simp only [getContent, bind, Except.bind] at ok
  cases prepares : manager.prepare site client decision with
  | error raised => simp [prepares] at ok
  | ok prepared =>
      simp only [prepares] at ok
      have here : Cleared manager client manager := .inl rfl
      cases decision with
      | download host port upgrade length request =>
          exact contact_enacted registered rfl (fun _ => LocalContent.not_stream _ _) prepares ok
      | connect host port data =>
          exact contact_enacted registered rfl (fun _ => LocalContent.not_stream _ _) prepares ok
      | intercept host port data => exact contact_enacted registered rfl (by simp) prepares ok
      | redirect url =>
          cases prepares
          rw [conclude_answered here registered] at ok
          cases ok
          exact .answered _ _ (by simp) (by simp)
      | http data =>
          cases prepares
          rw [conclude_answered here registered] at ok
          cases ok
          exact .answered _ _ (by simp) (by simp)
      | icap response length =>
          cases prepares
          rw [conclude_answered here registered] at ok
          cases ok
          exact .answered _ _ (by simp) (by simp)
      | file code reason =>
          obtain ⟨content, _, rfl⟩ := map_ok prepares
          rw [conclude_answered here registered] at ok
          cases ok
          exact .answered _ _ (fun data same => absurd (Option.some.inj same)
            (LocalContent.not_stream _ _)) (by simp)
      | rewrite code reason comment protocol url host clientIp =>
          obtain ⟨page, _, rfl⟩ := map_ok prepares
          rw [conclude_answered here registered] at ok
          cases ok
          exact .answered _ _ (by simp) (by simp)
      | monitor path =>
          simp only [prepare] at prepares
          split at prepares
          · cases prepares
            rw [conclude_answered here registered] at ok
            cases ok
            exact .answered _ _ (by simp) (by simp)
          · cases prepares
      | close =>
          cases prepares
          rw [conclude_answered here registered] at ok
          cases ok
          exact .answered _ _ (by simp) (by simp)
      | malformed =>
          cases prepares
          rw [conclude_answered here registered] at ok
          cases ok
          exact .answered _ _ (by simp) (by simp)

theorem Enacted.changes {result : ContentManager × Answer}
    (enacted : Enacted manager send client decision result) (registered : manager.Registered) :
    Changes starts manager result.1 := by
  cases enacted with
  | opened current cleared free downloader own theirs opens length =>
      exact (cleared.changes registered).tail (.enlisted downloader own (by rw [theirs]; exact free))
  | reused downloader serving opens request length =>
      exact .single (.wrote _ send request false (registered.serving_live serving))
  | answered content length streams known => exact endClientDownload_changes registered

theorem startDownload_changes (allowed : sock ∈ manager.opening → starts manager sock send) :
    Changes starts manager (manager.startDownload site send sock).1 := by
  by_cases waits : sock ∈ manager.opening
  · exact .single (.started site send sock waits (allowed waits))
  · have same : (manager.startDownload site send sock).1 = manager := by
      rw [startDownload, if_neg waits]
    rw [same]

theorem connected_some (found : manager.connected sock = some downloader) :
    sock ∈ manager.established ∧ manager.downloaders.lookup sock = some downloader := by
  unfold connected at found
  split at found
  · next held => exact ⟨held, found⟩
  · cases found

theorem connected_client (registered : manager.Registered)
    (connected : manager.connected sock = some downloader) :
    downloader.sock = sock ∧ manager.byclient.lookup downloader.client = some sock := by
  obtain ⟨held, found⟩ := connected_some connected
  obtain ⟨downloader', found', own, byclient⟩ := registered.filed sock (.inr held)
  rw [found] at found'
  cases found'
  exact ⟨own, byclient⟩

theorem readData_changes (registered : manager.Registered) {recv : Recv} :
    Changes starts manager (manager.readData sock recv).1 := by
  unfold ContentManager.readData
  split
  · next downloader connected =>
      split
      · exact .refl
      · exact terminate_changes registered (connected_client registered connected).2
  · exact .refl

theorem sendSocketData_changes {data : Str} :
    Changes starts manager (manager.sendSocketData send sock data).1 := by
  unfold sendSocketData
  split
  · next downloader connected =>
      exact .single (.wrote sock send data false (.inr (connected_some connected).1))
  · exact .refl

/-- `sendClientData` for a client with a connection: the last branch is not reached. -/
theorem sendClientData_eq (registered : manager.Registered) {data : Str}
    (serving : manager.serving client = some downloader) :
    manager.sendClientData send client data =
      if downloader.sock ∈ manager.established then manager.writeData send downloader.sock data true
      else (manager.enqueue downloader.sock (downloader.bufferData data).2,
        some (downloader.bufferData data).1, some (decide (downloader.sock ∉ manager.buffered))) := by
  simp only [sendClientData, serving]
  split
  · rfl
  · next waiting =>
      have waits := (registered.serving_live serving).resolve_right waiting
      rw [if_pos waits]
      unfold enqueue
      by_cases buffered : downloader.sock ∈ manager.buffered <;> simp [buffered]

theorem sendClientData_changes (registered : manager.Registered) {data : Str} :
    Changes starts manager (manager.sendClientData send client data).1 := by
  cases serving : manager.serving client with
  | none =>
      rw [sendClientData, serving]
  | some downloader =>
      rw [sendClientData_eq registered serving]
      split
      · next held => exact .single (.wrote _ send data true (.inr held))
      · next waiting =>
          have waits := (registered.serving_live serving).resolve_right waiting
          exact .single (.queued _ downloader data waits (registered.serving_iff.mp serving).2)

/-! ### Who has a connection -/

theorem writeData_byclient {data : Str} {again : Bool} :
    (manager.writeData send sock data again).1.byclient = manager.byclient := by
  unfold writeData
  split
  · rfl
  · simp only
    split
    · split <;> rfl
    · split <;> rfl

theorem enqueue_byclient : (manager.enqueue sock downloader).byclient = manager.byclient := by
  simp only [enqueue]
  split <;> rfl

theorem sendClientData_byclient (registered : manager.Registered) {data : Str} :
    (manager.sendClientData send client data).1.byclient = manager.byclient := by
  cases serving : manager.serving client with
  | none => rw [sendClientData, serving]
  | some downloader =>
      rw [sendClientData_eq registered serving]
      split
      · exact writeData_byclient
      · exact enqueue_byclient

theorem sendSocketData_byclient {data : Str} :
    (manager.sendSocketData send sock data).1.byclient = manager.byclient := by
  unfold sendSocketData
  split
  · exact writeData_byclient
  · rfl

theorem startDownload_byclient :
    (manager.startDownload site send sock).1.byclient = manager.byclient := by
  unfold startDownload
  split
  · split <;> rfl
  · rfl

theorem corkClientDownload_byclient :
    (manager.corkClientDownload client).byclient = manager.byclient := by
  unfold corkClientDownload
  split <;> rfl

theorem uncorkClientDownload_byclient :
    (manager.uncorkClientDownload client).byclient = manager.byclient := by
  unfold uncorkClientDownload
  split
  · split <;> rfl
  · rfl

theorem Cleared.kept (cleared : Cleared manager client current) (registered : manager.Registered)
    (byclient : current.byclient.lookup other = some sock) : manager.byclient.lookup other = some sock := by
  rcases cleared with rfl | rfl
  · exact byclient
  · rw [endClientDownload_byclient registered] at byclient
    exact (lookup_erase_iff.mp byclient).2

theorem Enacted.byclient {result : ContentManager × Answer}
    (enacted : Enacted manager send client decision result) (registered : manager.Registered)
    (byclient : result.1.byclient.lookup other = some sock) :
    other = client ∧ decision.opens = true ∨ manager.byclient.lookup other = some sock := by
  cases enacted with
  | opened current cleared free downloader own theirs opens length =>
      rcases lookup_insert_iff.mp byclient with ⟨same, _⟩ | ⟨_, kept⟩
      · exact .inl ⟨same.trans theirs, opens⟩
      · exact .inr (cleared.kept registered kept)
  | reused downloader serving opens request length =>
      rw [writeData_byclient] at byclient
      exact .inr byclient
  | answered content length streams known =>
      exact .inr (Cleared.kept (.inr rfl) registered byclient)

theorem endClientDownload_other (registered : manager.Registered) (different : other ≠ client) :
    (manager.endClientDownload client).byclient.lookup other = manager.byclient.lookup other := by
  rw [endClientDownload_byclient registered, AList.lookup_erase_ne different]

theorem Enacted.others {result : ContentManager × Answer}
    (enacted : Enacted manager send client decision result) (registered : manager.Registered)
    (different : other ≠ client) : result.1.byclient.lookup other = manager.byclient.lookup other := by
  cases enacted with
  | opened current cleared free downloader own theirs opens length =>
      have inserted : (current.enlist downloader).byclient.lookup other = current.byclient.lookup other :=
        AList.lookup_insert_ne (theirs.symm ▸ different)
      rw [inserted]
      rcases cleared with rfl | rfl
      · rfl
      · exact endClientDownload_other registered different
  | reused downloader serving opens request length => rw [writeData_byclient]
  | answered content length streams known => exact endClientDownload_other registered different

/-- Only a decision that cannot be understood is not answered. -/
theorem Enacted.answer_known {result : ContentManager × Answer}
    (enacted : Enacted manager send client decision result) (valid : decision ≠ .malformed) :
    result.2.content ≠ none := by
  cases enacted with
  | opened current cleared free downloader own theirs opens length => simp
  | reused downloader serving opens request length => simp
  | answered content length streams known => exact fun missing => valid (known missing)

/-- The client of a connection is sent an empty stream; any other answer leaves it
without a connection. -/
theorem Enacted.answer_stream {result : ContentManager × Answer}
    (enacted : Enacted manager send client decision result) (registered : manager.Registered) :
    result.2.content = some (.stream []) ∨ result.1.byclient.lookup client = none := by
  cases enacted with
  | opened current cleared free downloader own theirs opens length => exact .inl rfl
  | reused downloader serving opens request length => exact .inl rfl
  | answered content length streams known => exact .inr (endClientDownload_free registered)

/-- Whoever has no connection afterwards was not answered with a stream, but in ICAP. -/
theorem Enacted.unconnected {result : ContentManager × Answer}
    (enacted : Enacted manager send client decision result) (registered : manager.Registered) :
    result.1.byclient.lookup client ≠ none ∨
      ∀ data, result.2.content = some (.stream data) → ∃ length, decision = .icap data length := by
  cases enacted with
  | opened current cleared free downloader own theirs opens length =>
      apply Or.inl
      have inserted : (current.enlist downloader).byclient.lookup client = some current.sockets :=
        theirs ▸ AList.lookup_insert _
      rw [inserted]
      simp
  | reused downloader serving opens request length =>
      apply Or.inl
      rw [writeData_byclient, (registered.serving_iff.mp serving).1]
      simp
  | answered content length streams known => exact .inr streams

theorem writeData_downloaders {data : Str} {again : Bool}
    (found : manager.downloaders.lookup sock = some downloader) :
    (manager.writeData send sock data again).1.downloaders =
      manager.downloaders.insert sock (downloader.writeData data send).2 := by
  simp only [writeData, found]
  split
  · split <;> rfl
  · split <;> rfl

theorem enqueue_downloaders :
    (manager.enqueue sock downloader).downloaders = manager.downloaders.insert sock downloader := by
  simp only [enqueue]
  split <;> rfl

theorem sendClientData_upload (registered : manager.Registered) (data : Str) (send : Send)
    (serving : manager.serving client = some downloader) : ∃ after,
    (manager.sendClientData send client data).1.serving client = some after ∧
      after.upload = downloader.upload ++ data := by
  obtain ⟨byclient, found⟩ := registered.serving_iff.mp serving
  have kept : (manager.sendClientData send client data).1.byclient.lookup client =
      some downloader.sock := by
    rw [sendClientData_byclient registered]
    exact byclient
  rw [ContentManager.serving, kept, Option.bind_some, sendClientData_eq registered serving]
  split
  · rw [writeData_downloaders found, AList.lookup_insert]
    exact ⟨_, rfl, Downloader.writeData_upload⟩
  · rw [enqueue_downloaders, AList.lookup_insert]
    exact ⟨_, rfl, Downloader.bufferData_upload⟩

theorem startDownload_client (registered : manager.Registered)
    (told : (manager.startDownload site send sock).2.1 = some client) :
    sock ∈ manager.opening ∧ manager.byclient.lookup client = some sock := by
  unfold startDownload at told
  split at told
  · next waits =>
      obtain ⟨downloader, found, _, byclient⟩ := registered.filed sock (.inl waits)
      simp only [found, Downloader.startConversation_downloader, Downloader.writeData_client,
        Option.some.injEq] at told
      exact ⟨waits, told ▸ byclient⟩
  · cases told

/-- What `readData` can do. -/
inductive Fetching (manager : ContentManager) (sock : Sock) (recv : Recv) :
    ContentManager × Option Sock × Option Str → Prop
  | absent : Fetching manager sock recv (manager, none, none)
  | read (client : Sock) (served : manager.byclient.lookup client = some sock)
      (held : sock ∈ manager.established) (data : Str) (received : Content.readData recv = some data) :
      Fetching manager sock recv (manager, some client, some data)
  | ended (client : Sock) (served : manager.byclient.lookup client = some sock)
      (held : sock ∈ manager.established) :
      Fetching manager sock recv (manager.endClientDownload client, some client, none)

theorem readData_fetching (registered : manager.Registered) (sock : Sock) (recv : Recv) :
    Fetching manager sock recv (manager.readData sock recv) := by
  unfold ContentManager.readData
  cases found : manager.connected sock with
  | none => exact .absent
  | some downloader =>
      have served := (connected_client registered found).2
      have held := (connected_some found).1
      cases received : Content.readData recv with
      | some data => exact .read downloader.client served held data received
      | none =>
          have ended : manager.terminate sock downloader.client =
              manager.endClientDownload downloader.client := by
            rw [endClientDownload, served]
          simp only [ended]
          exact .ended downloader.client served held

/-! ### Runs -/

/-- The calls of a manager. -/
inductive Operation where
  | getContent (site : Site) (send : Send) (client : Sock) (decision : Decision)
  | startDownload (site : Site) (send : Send) (sock : Sock)
  | readData (sock : Sock) (recv : Recv)
  | sendSocketData (send : Send) (sock : Sock) (data : Str)
  | sendClientData (send : Send) (client : Sock) (data : Str)
  | endClientDownload (client : Sock)
  | corkClientDownload (client : Sock)
  | uncorkClientDownload (client : Sock)

/-- The manager after a call, if the call does not raise. -/
def perform (manager : ContentManager) : Operation → Except Raised ContentManager
  | .getContent site send client decision => (manager.getContent site send client decision).map Prod.fst
  | .startDownload site send sock => .ok (manager.startDownload site send sock).1
  | .readData sock recv => .ok (manager.readData sock recv).1
  | .sendSocketData send sock data => .ok (manager.sendSocketData send sock data).1
  | .sendClientData send client data => .ok (manager.sendClientData send client data).1
  | .endClientDownload client => .ok (manager.endClientDownload client)
  | .corkClientDownload client => .ok (manager.corkClientDownload client)
  | .uncorkClientDownload client => .ok (manager.uncorkClientDownload client)

/-- A call, where connections start as `starts` allows. -/
def Called (starts : ContentManager → Sock → Send → Prop) (before after : ContentManager) : Prop :=
  ∃ operation, before.perform operation = .ok after ∧
    ∀ site send sock, operation = .startDownload site send sock → sock ∈ before.opening →
      starts before sock send

/-- The managers that calls lead to. -/
abbrev Run (starts : ContentManager → Sock → Send → Prop) : ContentManager → Prop :=
  Reachable (· = {}) (Called starts)

theorem Called.changes (called : Called starts before after) (registered : before.Registered) :
    Changes starts before after := by
  obtain ⟨operation, performed, allowed⟩ := called
  cases operation with
  | getContent site send client decision =>
      simp only [perform] at performed
      cases enacted : before.getContent site send client decision with
      | error raised => simp [enacted, Except.map] at performed
      | ok result =>
          simp only [enacted, Except.map] at performed
          cases performed
          exact (getContent_enacted registered enacted).changes registered
  | startDownload site send sock =>
      cases performed
      exact startDownload_changes (allowed site send sock rfl)
  | readData sock recv =>
      cases performed
      exact readData_changes registered
  | sendSocketData send sock data =>
      cases performed
      exact sendSocketData_changes
  | sendClientData send client data =>
      cases performed
      exact sendClientData_changes registered
  | endClientDownload client =>
      cases performed
      exact endClientDownload_changes registered
  | corkClientDownload client =>
      cases performed
      exact .single (.corked client)
  | uncorkClientDownload client =>
      cases performed
      exact .single (.uncorked client)

theorem Run.registered (run : Run starts manager) : manager.Registered :=
  Reachable.invariant run Registered (fun _ initial => initial ▸ .initial)
    fun _ _ _ registered called => (called.changes registered).registered registered

/-- The registries agree in every run, and a client's connection is always in one
of them, so that `sendClientData` never wonders what is going on. -/
theorem registries_agree (run : Run (fun _ _ _ => True) manager) : manager.Registered ∧
    (∀ client other sock, manager.byclient.lookup client = some sock →
      manager.byclient.lookup other = some sock → client = other) ∧
    ∀ client downloader, manager.serving client = some downloader →
      downloader.sock ∈ manager.established ∨ downloader.sock ∈ manager.opening := by
  have registered := run.registered
  exact ⟨registered, fun _ _ _ first second => registered.client_unique first second,
    fun _ _ serving => (registered.serving_live serving).symm⟩

/-- A proxy that can connect to every host, and has no local pages. -/
def anySite : Site where
  isip _ := true
  refused _ _ := false
  connects := true
  location := ascii "/srv"
  plain := by decide
  localContent _ name := .missing name
  localText _ _ _ := []
  monitorPage _ := none

/-- The request of client 7 for `10.0.0.1`. -/
def firstRequest : Decision :=
  .download (ascii "10.0.0.1") (ascii "80") [] (ascii "0") (ascii "GET / HTTP/1.1\r\n\r\n")

theorem Run.call (run : Run starts before) (operation : Operation)
    (performed : before.perform operation = .ok after)
    (allowed : ∀ site send sock, operation = .startDownload site send sock →
      sock ∈ before.opening → starts before sock send) : Run starts after :=
  run.next ⟨operation, performed, allowed⟩

theorem registries_agree_opened : ∃ manager : ContentManager, manager.opening = {0} ∧
    manager.Registered := by
  have run : Run (fun _ _ _ => True) {} := .start rfl
  have asked : Run (fun _ _ _ => True) _ :=
    run.call (.getContent anySite (.accepted 0) 7 firstRequest) rfl (by simp)
  exact ⟨_, rfl, (registries_agree asked).1⟩

end ContentManager

end ExaProxy.Content
