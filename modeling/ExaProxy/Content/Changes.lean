import ExaProxy.Content.Manager
import ExaProxy.Data.Transition

namespace ExaProxy.Content

open ExaProxy.Data ExaProxy.Network
open ExaProxy.Client (Recv)

namespace ContentManager

/-- The socket's connection is held in one of the two registries. -/
def Live (manager : ContentManager) (sock : Sock) : Prop :=
  sock ∈ manager.opening ∨ sock ∈ manager.established

/-- A connection that is opened and waited for. -/
def enlist (manager : ContentManager) (downloader : Downloader) : ContentManager :=
  { manager with
    sockets := manager.sockets + 1
    downloaders := manager.downloaders.insert manager.sockets downloader }.register
      manager.sockets downloader.client

/-- Data that waits until the connection is there. -/
def enqueue (manager : ContentManager) (sock : Sock) (downloader : Downloader) : ContentManager :=
  let manager := { manager with downloaders := manager.downloaders.insert sock downloader }
  if sock ∉ manager.buffered then { manager with buffered := manager.buffered ++ [sock] } else manager

/-- The changes, where `starts` says with which sends a connection may start. -/
inductive Change (starts : ContentManager → Sock → Send → Prop) (before : ContentManager) :
    ContentManager → Prop
  | released (client sock : Sock) (event : Event)
      (served : before.byclient.lookup client = some sock)
      (polled : event = .readDownload ∧ sock ∈ before.established ∨
        event = .openingDownload ∧ sock ∈ before.opening) :
      Change starts before (before.release sock client event)
  | enlisted (downloader : Downloader) (own : downloader.sock = before.sockets)
      (free : before.byclient.lookup downloader.client = none) :
      Change starts before (before.enlist downloader)
  | wrote (sock : Sock) (send : Send) (data : Str) (again : Bool) (live : before.Live sock) :
      Change starts before (before.writeData send sock data again).1
  | queued (sock : Sock) (downloader : Downloader) (data : Str) (waits : sock ∈ before.opening)
      (found : before.downloaders.lookup sock = some downloader) :
      Change starts before (before.enqueue sock (downloader.bufferData data).2)
  | started (site : Site) (send : Send) (sock : Sock) (waits : sock ∈ before.opening)
      (allowed : starts before sock send) :
      Change starts before (before.startDownload site send sock).1
  | corked (client : Sock) : Change starts before (before.corkClientDownload client)
  | uncorked (client : Sock) : Change starts before (before.uncorkClientDownload client)

/-- The registries of a manager agree. -/
structure Registered (manager : ContentManager) : Prop where
  disjoint : ∀ sock ∈ manager.opening, sock ∉ manager.established
  filed : ∀ sock, manager.Live sock → ∃ downloader,
    manager.downloaders.lookup sock = some downloader ∧ downloader.sock = sock ∧
      manager.byclient.lookup downloader.client = some sock
  served : ∀ client sock, manager.byclient.lookup client = some sock → manager.Live sock ∧
    ∃ downloader, manager.downloaders.lookup sock = some downloader ∧ downloader.client = client
  nodup : manager.buffered.Nodup
  buffering : ∀ sock ∈ manager.buffered, manager.Live sock
  opens : ∀ sock, manager.poller.interest .openingDownload sock =
    if sock ∈ manager.opening then .watched else .absent
  reads : ∀ sock, manager.poller.interest .readDownload sock = .absent ↔ sock ∉ manager.established
  fresh : ∀ sock, manager.Live sock → sock < manager.sockets

variable {manager before after : ContentManager} {starts : ContentManager → Sock → Send → Prop}
  {sock client other : Sock} {downloader : Downloader} {event : Event}

namespace Registered

theorem initial : Registered {} where
  disjoint := by simp
  filed := by simp [Live]
  served := by simp
  nodup := List.nodup_nil
  buffering := by simp
  opens := by simp
  reads := by simp
  fresh := by simp [Live]

theorem client_unique (registered : manager.Registered)
    (first : manager.byclient.lookup client = some sock)
    (second : manager.byclient.lookup other = some sock) : client = other := by
  obtain ⟨_, downloader, found, rfl⟩ := registered.served client sock first
  obtain ⟨_, downloader', found', rfl⟩ := registered.served other sock second
  rw [found] at found'
  cases found'
  rfl

theorem serving_iff (registered : manager.Registered) : manager.serving client = some downloader ↔
    manager.byclient.lookup client = some downloader.sock ∧
      manager.downloaders.lookup downloader.sock = some downloader := by
  rw [serving, Option.bind_eq_some_iff]
  constructor
  · intro ⟨sock, byclient, found⟩
    obtain ⟨downloader', found', own, _⟩ := registered.filed sock (registered.served client sock byclient).1
    rw [found] at found'
    cases found'
    rw [own]
    exact ⟨byclient, found⟩
  · intro ⟨byclient, found⟩
    exact ⟨_, byclient, found⟩

theorem serving_live (registered : manager.Registered) (serving : manager.serving client = some downloader) :
    manager.Live downloader.sock :=
  (registered.served client _ (registered.serving_iff.mp serving).1).1

theorem serving_none (registered : manager.Registered) :
    manager.serving client = none ↔ manager.byclient.lookup client = none := by
  rw [serving, Option.bind_eq_none_iff]
  constructor
  · intro missing
    cases byclient : manager.byclient.lookup client with
    | none => rfl
    | some sock =>
        obtain ⟨_, downloader, found, _⟩ := registered.served client sock byclient
        rw [missing sock byclient] at found
        cases found
  · intro missing sock byclient
    rw [missing] at byclient
    cases byclient

theorem update (registered : manager.Registered) (changed : Downloader)
    (found : manager.downloaders.lookup sock = some downloader)
    (sameSock : changed.sock = downloader.sock) (sameClient : changed.client = downloader.client) :
    Registered { manager with downloaders := manager.downloaders.insert sock changed } where
  disjoint := registered.disjoint
  filed := by
    intro member live
    obtain ⟨held, looked, own, byclient⟩ := registered.filed member live
    by_cases same : member = sock
    · subst same
      rw [found] at looked
      cases looked
      exact ⟨changed, AList.lookup_insert _, sameSock.trans own, by rw [sameClient]; exact byclient⟩
    · exact ⟨held, by rw [AList.lookup_insert_ne same]; exact looked, own, byclient⟩
  served := by
    intro client member byclient
    obtain ⟨live, held, looked, own⟩ := registered.served client member byclient
    refine ⟨live, ?_⟩
    by_cases same : member = sock
    · subst same
      rw [found] at looked
      cases looked
      exact ⟨changed, AList.lookup_insert _, sameClient.trans own⟩
    · exact ⟨held, by rw [AList.lookup_insert_ne same]; exact looked, own⟩
  nodup := registered.nodup
  buffering := registered.buffering
  opens := registered.opens
  reads := registered.reads
  fresh := registered.fresh

theorem rebuffer (registered : manager.Registered) {buffered : List Sock} {poller : Poller Event}
    (nodup : buffered.Nodup) (buffering : ∀ sock ∈ buffered, manager.Live sock)
    (same : ∀ event sock, event ≠ .writeDownload →
      poller.interest event sock = manager.poller.interest event sock) :
    Registered { manager with buffered, poller } where
  disjoint := registered.disjoint
  filed := registered.filed
  served := registered.served
  nodup := nodup
  buffering := buffering
  opens := fun sock => (same _ sock (by simp)).trans (registered.opens sock)
  reads := fun sock => by
    rw [same _ sock (by simp)]
    exact registered.reads sock
  fresh := registered.fresh

theorem nodup_append (registered : manager.Registered) (absent : sock ∉ manager.buffered) :
    (manager.buffered ++ [sock]).Nodup :=
  List.nodup_append.mpr ⟨registered.nodup, by simp, by
    intro member first other last
    cases List.mem_singleton.mp last
    exact fun same => absent (same ▸ first)⟩

theorem buffering_append (registered : manager.Registered) (live : manager.Live sock) :
    ∀ member ∈ manager.buffered ++ [sock], manager.Live member := by
  intro member buffered
  rcases List.mem_append.mp buffered with first | last
  · exact registered.buffering member first
  · rw [List.mem_singleton.mp last]
    exact live

theorem buffering_erase (registered : manager.Registered) :
    ∀ member ∈ manager.buffered.erase sock, manager.Live member :=
  fun member buffered => registered.buffering member (List.mem_of_mem_erase buffered)

theorem writeData (registered : manager.Registered) (live : manager.Live sock) {send : Send}
    {data : Str} {again : Bool} : (manager.writeData send sock data again).1.Registered := by
  obtain ⟨downloader, found, _⟩ := registered.filed sock live
  have updated := registered.update (downloader.writeData data send).2 found
    Downloader.writeData_sock Downloader.writeData_client
  simp only [ContentManager.writeData, found]
  split
  · split
    · next absent =>
        exact updated.rebuffer (registered.nodup_append absent) (registered.buffering_append live)
          fun event member different => by simp [Poller.interest_add, different]
    · exact updated
  · split
    · exact updated.rebuffer (registered.nodup.erase _) registered.buffering_erase
        fun event member different => by simp [Poller.interest_remove, different]
    · exact updated

theorem enqueue (registered : manager.Registered) (waits : sock ∈ manager.opening)
    (found : manager.downloaders.lookup sock = some downloader) {data : Str} :
    (manager.enqueue sock (downloader.bufferData data).2).Registered := by
  have updated := registered.update (downloader.bufferData data).2 found rfl rfl
  simp only [ContentManager.enqueue]
  split
  · next absent =>
      exact updated.rebuffer (registered.nodup_append absent) (registered.buffering_append (.inl waits))
        fun event member different => rfl
  · exact updated

theorem live_release : (manager.release sock client event).Live other ↔
    other ≠ sock ∧ manager.Live other := by
  simp only [Live, release, Finset.mem_erase, ← and_or_left]

theorem release_polled {name : Event} (other : name ≠ .writeDownload) (member : Sock) :
    (manager.release sock client event).poller.interest name member =
      if name = event ∧ member = sock then .absent else manager.poller.interest name member := by
  simp only [release]
  split <;> simp [Poller.interest_remove, other]

theorem release (registered : manager.Registered)
    (served : manager.byclient.lookup client = some sock)
    (polled : event = .readDownload ∧ sock ∈ manager.established ∨
      event = .openingDownload ∧ sock ∈ manager.opening) :
    (manager.release sock client event).Registered where
  disjoint := fun member waits => by
    simp only [ContentManager.release, Finset.mem_erase] at waits ⊢
    exact fun held => registered.disjoint member waits.2 held.2
  filed := by
    intro member live
    obtain ⟨different, live⟩ := live_release.mp live
    obtain ⟨downloader, found, own, byclient⟩ := registered.filed member live
    have others : downloader.client ≠ client := by
      intro same
      rw [same, served] at byclient
      exact different (Option.some.inj byclient).symm
    exact ⟨downloader, found, own, by
      simp only [ContentManager.release]
      rw [AList.lookup_erase_ne others]
      exact byclient⟩
  served := by
    intro owner member byclient
    obtain ⟨different, kept⟩ := lookup_erase_iff.mp byclient
    obtain ⟨live, downloader, found, own⟩ := registered.served owner member kept
    have others : member ≠ sock := by
      intro same
      rw [same] at kept
      exact different (registered.client_unique kept served)
    exact ⟨live_release.mpr ⟨others, live⟩, downloader, found, own⟩
  nodup := registered.nodup.erase _
  buffering := fun member buffered => by
    obtain ⟨different, buffered⟩ := registered.nodup.mem_erase_iff.mp buffered
    exact live_release.mpr ⟨different, registered.buffering member buffered⟩
  opens := by
    intro member
    rw [release_polled (by simp), registered.opens]
    simp only [ContentManager.release, Finset.mem_erase]
    by_cases same : member = sock
    · subst same
      rcases polled with ⟨rfl, held⟩ | ⟨rfl, waits⟩
      · have absent : member ∉ manager.opening := fun waits => registered.disjoint member waits held
        simp [absent]
      · simp
    · simp [same]
  reads := by
    intro member
    rw [release_polled (by simp)]
    simp only [ContentManager.release, Finset.mem_erase, not_and]
    have reads := registered.reads member
    by_cases same : member = sock
    · subst same
      rcases polled with ⟨rfl, held⟩ | ⟨rfl, waits⟩
      · simp
      · simpa using reads.mpr (registered.disjoint member waits)
    · simpa [same] using reads
  fresh := fun member live => registered.fresh member (live_release.mp live).2

theorem enlist (registered : manager.Registered) (own : downloader.sock = manager.sockets)
    (free : manager.byclient.lookup downloader.client = none) : (manager.enlist downloader).Registered := by
  have unused : ¬ manager.Live manager.sockets := fun live =>
    Nat.lt_irrefl _ (registered.fresh _ live)
  have live_iff : ∀ member, (manager.enlist downloader).Live member ↔
      member = manager.sockets ∨ manager.Live member := by
    intro member
    simp only [Live, ContentManager.enlist, register, Finset.mem_insert, or_assoc]
  exact {
    disjoint := by
      intro member waits held
      rcases Finset.mem_insert.mp waits with rfl | waits
      · exact unused (.inr held)
      · exact registered.disjoint member waits held
    filed := by
      intro member live
      rcases (live_iff member).mp live with rfl | live
      · exact ⟨downloader, AList.lookup_insert _, own, AList.lookup_insert _⟩
      · obtain ⟨held, found, own', byclient⟩ := registered.filed member live
        have others : member ≠ manager.sockets := fun same => unused (same ▸ live)
        have strangers : held.client ≠ downloader.client := by
          intro same
          rw [same, free] at byclient
          cases byclient
        exact ⟨held, (AList.lookup_insert_ne others).trans found, own',
          (AList.lookup_insert_ne strangers).trans byclient⟩
    served := by
      intro client member byclient
      rcases lookup_insert_iff.mp byclient with ⟨rfl, rfl⟩ | ⟨_, byclient⟩
      · exact ⟨(live_iff _).mpr (.inl rfl), downloader, AList.lookup_insert _, rfl⟩
      · obtain ⟨live, held, found, own'⟩ := registered.served client member byclient
        have others : member ≠ manager.sockets := fun same => unused (same ▸ live)
        exact ⟨(live_iff member).mpr (.inr live), held, (AList.lookup_insert_ne others).trans found, own'⟩
    nodup := registered.nodup
    buffering := fun member buffered => (live_iff member).mpr (.inr (registered.buffering member buffered))
    opens := by
      intro member
      have opens := registered.opens
      have absent : manager.poller.interest .openingDownload manager.sockets = .absent := by
        rw [opens, if_neg fun waits => unused (.inl waits)]
      simp only [ContentManager.enlist, register, Poller.interest_add, absent, and_true,
        true_and, Finset.mem_insert, opens]
      by_cases same : member = manager.sockets <;> simp [same]
    reads := fun member => by
      simp only [ContentManager.enlist, register, Poller.interest_add]
      exact registered.reads member
    fresh := by
      intro member live
      rcases (live_iff member).mp live with rfl | live
      · exact Nat.lt_succ_self _
      · exact Nat.lt_succ_of_lt (registered.fresh member live) }

theorem startDownload (registered : manager.Registered) (waits : sock ∈ manager.opening)
    {site : Site} {send : Send} : (manager.startDownload site send sock).1.Registered := by
  obtain ⟨downloader, found, own, byclient⟩ := registered.filed sock (.inl waits)
  have kept : ∀ member, (manager.startDownload site send sock).1.Live member ↔ manager.Live member := by
    intro member
    simp only [ContentManager.startDownload, waits, found, if_true, Live, Finset.mem_erase,
      Finset.mem_insert]
    by_cases same : member = sock
    · simp [same, waits]
    · simp [same]
  have updated := registered.update (downloader.writeData [] send).2 found
    Downloader.writeData_sock Downloader.writeData_client
  have polled : ∀ event member, event ≠ .writeDownload →
      (manager.startDownload site send sock).1.poller.interest event member =
        (((manager.poller.remove .writeDownload sock).remove .openingDownload sock).add
          .readDownload sock).interest event member := by
    intro event member different
    simp only [ContentManager.startDownload, waits, found, if_true]
    split
    · simp [Poller.interest_add, different]
    · rfl
  exact {
    disjoint := by
      intro member waits' held
      simp only [ContentManager.startDownload, waits, found, if_true, Finset.mem_erase,
        Finset.mem_insert] at waits' held
      rcases held with same | held
      · exact waits'.1 same
      · exact registered.disjoint member waits'.2 held
    filed := by
      intro member live
      have filed := updated.filed member ((kept member).mp live)
      simpa only [ContentManager.startDownload, waits, found, if_true,
        Downloader.startConversation_downloader] using filed
    served := by
      intro owner member byclient
      simp only [ContentManager.startDownload, waits, found, if_true] at byclient
      obtain ⟨live, served⟩ := updated.served owner member byclient
      refine ⟨(kept member).mpr live, ?_⟩
      simpa only [ContentManager.startDownload, waits, found, if_true,
        Downloader.startConversation_downloader] using served
    nodup := by
      simpa only [ContentManager.startDownload, waits, found, if_true] using registered.nodup
    buffering := fun member buffered => (kept member).mpr (registered.buffering member (by
      simpa only [ContentManager.startDownload, waits, found, if_true] using buffered))
    opens := by
      intro member
      rw [polled _ _ (by simp)]
      simp only [ContentManager.startDownload, waits, found, if_true, Poller.interest_add,
        Poller.interest_remove, Finset.mem_erase, registered.opens]
      by_cases same : member = sock <;> simp [same]
    reads := by
      intro member
      rw [polled _ _ (by simp), Poller.add_known]
      simp only [ContentManager.startDownload, waits, found, if_true, Poller.interest_remove,
        Finset.mem_insert, not_or]
      simp [registered.reads, and_comm]
    fresh := by
      intro member live
      have fresh := registered.fresh member ((kept member).mp live)
      simpa only [ContentManager.startDownload, waits, found, if_true] using fresh }

/-- Corks of sockets that are read are no matter of the registries. -/
theorem recork (registered : manager.Registered) {poller : Poller Event}
    (same : ∀ event sock, event ≠ .readDownload →
      poller.interest event sock = manager.poller.interest event sock)
    (known : ∀ sock, poller.interest .readDownload sock = .absent ↔
      manager.poller.interest .readDownload sock = .absent) :
    Registered { manager with poller } where
  disjoint := registered.disjoint
  filed := registered.filed
  served := registered.served
  nodup := registered.nodup
  buffering := registered.buffering
  opens := fun sock => (same _ sock (by simp)).trans (registered.opens sock)
  reads := fun sock => (known sock).trans (registered.reads sock)
  fresh := registered.fresh

theorem corkClientDownload (registered : manager.Registered) :
    (manager.corkClientDownload client).Registered := by
  unfold ContentManager.corkClientDownload
  split
  · exact registered.recork (fun event sock different => by simp [Poller.interest_cork, different])
      fun sock => Poller.cork_known ..
  · exact registered

theorem uncorkClientDownload (registered : manager.Registered) :
    (manager.uncorkClientDownload client).Registered := by
  unfold ContentManager.uncorkClientDownload
  split
  · split
    · exact registered.recork (fun event sock different => by simp [Poller.interest_uncork, different])
        fun sock => Poller.uncork_known ..
    · exact registered
  · exact registered

end Registered

theorem Change.registered (change : Change starts before after) (registered : before.Registered) :
    after.Registered := by
  cases change with
  | released client sock event served polled => exact registered.release served polled
  | enlisted downloader own free => exact registered.enlist own free
  | wrote sock send data again live => exact registered.writeData live
  | queued sock downloader data waits found => exact registered.enqueue waits found
  | started site send sock waits allowed => exact registered.startDownload waits
  | corked client => exact registered.corkClientDownload
  | uncorked client => exact registered.uncorkClientDownload

end ContentManager

end ExaProxy.Content
