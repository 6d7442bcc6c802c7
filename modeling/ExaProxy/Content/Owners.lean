import ExaProxy.Content.Operations

namespace ExaProxy.Content

open ExaProxy.Data ExaProxy.Network
open ExaProxy.Client (Recv)

/-- The decisions that are answered with a local file. -/
def Decision.isFile : Decision → Bool
  | .file .. => true
  | _ => false

namespace ContentManager

variable {manager before after content : ContentManager} {starts : ContentManager → Sock → Send → Prop}
  {site : Site} {send : Send} {sock client owner : Sock} {downloader : Downloader} {decision : Decision}
  {answer : Answer} {prepared : Prepared}

theorem conclude_content (ok : conclude send client prepared = .ok (content, answer)) :
    answer.content = prepared.content := by
  unfold conclude at ok
  split at ok
  · split at ok
    · cases ok
      rfl
    · split at ok
      · cases ok
      · cases ok
        rfl
  · dsimp only at ok
    split at ok
    · cases ok
      rfl
    · cases ok
      rfl

/-- A client is sent a file only for these decisions. -/
theorem getContent_file {header filename : Str}
    (ok : manager.getContent site send client decision = .ok (content, answer))
    (file : answer.content = some (.file header filename)) :
    decision.opens = true ∨ decision.isFile = true := by
  obtain ⟨prepared, prepares, concludes⟩ := bind_ok ok
  rw [conclude_content concludes] at file
  cases decision with
  | download | connect | intercept => exact .inl rfl
  | file => exact .inr rfl
  | redirect | http | icap | close | malformed =>
      cases prepares
      cases file
  | rewrite =>
      obtain ⟨page, _, rfl⟩ := map_ok prepares
      cases file
  | monitor path =>
      simp only [prepare] at prepares
      split at prepares
      · cases prepares
        cases file
      · cases prepares

/-- The connections that were ever opened are for the clients that they were for. -/
structure Owned (manager : ContentManager) (sock owner : Sock) : Prop where
  opened : sock < manager.sockets
  owner : ∃ downloader, manager.downloaders.lookup sock = some downloader ∧ downloader.client = owner

theorem Owned.unique {other : Sock} (first : manager.Owned sock owner) (second : manager.Owned sock other) :
    owner = other := by
  obtain ⟨downloader, found, rfl⟩ := first.owner
  obtain ⟨same, found', rfl⟩ := second.owner
  rw [found] at found'
  cases found'
  rfl

theorem Owned.insert (owned : manager.Owned sock owner) {member : Sock} (changed : Downloader)
    (found : manager.downloaders.lookup member = some downloader) (same : changed.client = downloader.client) :
    ∃ kept, (manager.downloaders.insert member changed).lookup sock = some kept ∧ kept.client = owner := by
  obtain ⟨held, holds, own⟩ := owned.owner
  by_cases equal : sock = member
  · subst equal
    rw [found] at holds
    cases holds
    exact ⟨changed, AList.lookup_insert _, same.trans own⟩
  · exact ⟨held, (AList.lookup_insert_ne equal).trans holds, own⟩

theorem Owned.writeData (owned : manager.Owned sock owner) {member : Sock} {data : Str} {again : Bool} :
    (manager.writeData send member data again).1.Owned sock owner := by
  cases found : manager.downloaders.lookup member with
  | none =>
      simp only [ContentManager.writeData, found]
      exact owned
  | some downloader =>
      have kept := owned.insert (downloader.writeData data send).2 found
        Downloader.writeData_client
      simp only [ContentManager.writeData, found]
      split
      · split
        · exact ⟨owned.opened, kept⟩
        · exact ⟨owned.opened, kept⟩
      · split
        · exact ⟨owned.opened, kept⟩
        · exact ⟨owned.opened, kept⟩

theorem Change.owned (change : Change starts before after) (owned : before.Owned sock owner) :
    after.Owned sock owner := by
  cases change with
  | released client member event served polled => exact ⟨owned.opened, owned.owner⟩
  | enlisted downloader own free =>
      obtain ⟨held, found, same⟩ := owned.owner
      exact ⟨Nat.lt_succ_of_lt owned.opened, held,
        (AList.lookup_insert_ne (Nat.ne_of_lt owned.opened)).trans found, same⟩
  | wrote member send data again live => exact owned.writeData
  | queued member downloader data waits found =>
      have kept := owned.insert (downloader.bufferData data).2 found rfl
      unfold enqueue
      dsimp only
      split
      · exact ⟨owned.opened, kept⟩
      · exact ⟨owned.opened, kept⟩
  | started site send member waits allowed =>
      unfold startDownload
      cases found : before.downloaders.lookup member with
      | none =>
          simp only [waits, if_true]
          exact owned
      | some downloader =>
          have kept := owned.insert (downloader.writeData [] send).2 found
            Downloader.writeData_client
          simp only [waits, if_true]
          exact ⟨owned.opened, kept⟩
  | corked client =>
      unfold corkClientDownload
      split
      · exact ⟨owned.opened, owned.owner⟩
      · exact owned
  | uncorked client =>
      unfold uncorkClientDownload
      split
      · split
        · exact ⟨owned.opened, owned.owner⟩
        · exact owned
      · exact owned

theorem Changes.owned (changes : Changes starts before after) (owned : before.Owned sock owner) :
    after.Owned sock owner := by
  induction changes with
  | refl => exact owned
  | tail _ change ih => exact change.owned ih

theorem Registered.owned (registered : manager.Registered)
    (byclient : manager.byclient.lookup client = some sock) : manager.Owned sock client := by
  obtain ⟨live, downloader, found, own⟩ := registered.served client sock byclient
  exact ⟨registered.fresh sock live, downloader, found, own⟩

/-- Changes that open no connection. -/
structure Altered (before after : ContentManager) : Prop where
  changes : Changes (fun _ _ _ => True) before after
  sockets : after.sockets = before.sockets

@[refl] theorem Altered.refl : Altered manager manager := ⟨.refl, rfl⟩

theorem Altered.trans {middle : ContentManager} (first : Altered before middle)
    (second : Altered middle after) : Altered before after :=
  ⟨first.changes.trans second.changes, second.sockets.trans first.sockets⟩

theorem Altered.registered (altered : Altered before after) (registered : before.Registered) :
    after.Registered :=
  altered.changes.registered registered

theorem terminate_sockets : (manager.terminate sock client).sockets = manager.sockets := by
  unfold terminate
  split
  · rfl
  · split <;> rfl

theorem writeData_sockets {data : Str} {again : Bool} :
    (manager.writeData send sock data again).1.sockets = manager.sockets := by
  unfold ContentManager.writeData
  split
  · rfl
  · dsimp only
    split
    · split <;> rfl
    · split <;> rfl

theorem endClientDownload_altered (registered : manager.Registered) (client : Sock) :
    Altered manager (manager.endClientDownload client) := by
  refine ⟨endClientDownload_changes registered, ?_⟩
  unfold endClientDownload
  split
  · exact terminate_sockets
  · rfl

theorem startDownload_altered : Altered manager (manager.startDownload site send sock).1 := by
  refine ⟨startDownload_changes fun _ => trivial, ?_⟩
  unfold startDownload
  split
  · split <;> rfl
  · rfl

theorem readData_altered (registered : manager.Registered) (recv : Recv) :
    Altered manager (manager.readData sock recv).1 := by
  refine ⟨readData_changes registered, ?_⟩
  unfold ContentManager.readData
  split
  · split
    · rfl
    · exact terminate_sockets
  · rfl

theorem sendSocketData_altered {data : Str} : Altered manager (manager.sendSocketData send sock data).1 := by
  refine ⟨sendSocketData_changes, ?_⟩
  unfold sendSocketData
  split
  · exact writeData_sockets
  · rfl

theorem sendClientData_altered (registered : manager.Registered) (client : Sock) (data : Str) :
    Altered manager (manager.sendClientData send client data).1 := by
  refine ⟨sendClientData_changes registered, ?_⟩
  unfold sendClientData
  split
  · dsimp only
    split
    · exact writeData_sockets
    · split
      · split <;> rfl
      · exact terminate_sockets
  · rfl

theorem corkClientDownload_altered (client : Sock) : Altered manager (manager.corkClientDownload client) := by
  refine ⟨.single (.corked client), ?_⟩
  unfold corkClientDownload
  split <;> rfl

theorem uncorkClientDownload_altered (client : Sock) :
    Altered manager (manager.uncorkClientDownload client) := by
  refine ⟨.single (.uncorked client), ?_⟩
  unfold uncorkClientDownload
  split
  · split <;> rfl
  · rfl

/-- A decision opens a connection for its own client, or none. -/
theorem Enacted.owned {result : ContentManager × Answer} (enacted : Enacted manager send client decision result)
    (registered : manager.Registered) :
    Altered manager result.1 ∨ result.1.sockets = manager.sockets + 1 ∧ result.1.Owned manager.sockets client := by
  cases enacted with
  | opened current cleared free downloader own theirs opens length =>
      have same : current.sockets = manager.sockets := by
        obtain rfl | rfl := cleared
        · rfl
        · exact (endClientDownload_altered registered client).sockets
      have found : (current.enlist downloader).downloaders.lookup current.sockets = some downloader :=
        AList.lookup_insert _
      rw [← same]
      exact .inr ⟨rfl, Nat.lt_succ_self _, downloader, found, theirs⟩
  | reused downloader serving opens request length =>
      exact .inl ⟨.single (.wrote _ send request false (registered.serving_live serving)), writeData_sockets⟩
  | answered content length streams known => exact .inl (endClientDownload_altered registered client)

end ContentManager

end ExaProxy.Content
