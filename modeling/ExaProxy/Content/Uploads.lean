import ExaProxy.Content.Operations

namespace ExaProxy.Content

open ExaProxy.Data ExaProxy.Network

namespace ContentManager

/-! Data that waits for a server.  What is left of a request when its connection
starts is the one kind that no write event is asked for. -/

variable {manager before after : ContentManager} {starts : ContentManager → Sock → Send → Prop}
  {sock client other : Sock} {downloader : Downloader} {send : Send} {event : Event}

/-- The established connections with data to send are polled for it. -/
def Flushed (manager : ContentManager) : Prop :=
  ∀ sock ∈ manager.established, ∀ downloader,
    manager.downloaders.lookup sock = some downloader → downloader.broken = false →
      downloader.wBuffer ≠ [] → sock ∈ manager.buffered ∧
        manager.poller.interest .writeDownload sock = .watched

/-- The first send of a connection: its data was already noted as waiting, it has
none, all of it is accepted, or the connection fails. -/
def SendsAll (manager : ContentManager) (sock : Sock) (send : Send) : Prop :=
  sock ∈ manager.buffered ∨ ∀ downloader, manager.downloaders.lookup sock = some downloader →
    downloader.broken = true ∨ downloader.wBuffer = [] ∨ send = .failed ∨
      ∃ count, send = .accepted count ∧ downloader.wBuffer.length ≤ count

/-- The invariant behind `Flushed`: data is noted, and what is noted is polled. -/
structure Watching (manager : ContentManager) : Prop where
  noted : ∀ sock ∈ manager.established, ∀ downloader,
    manager.downloaders.lookup sock = some downloader → downloader.broken = false →
      downloader.wBuffer ≠ [] → sock ∈ manager.buffered
  polled : ∀ sock ∈ manager.established, sock ∈ manager.buffered →
    manager.poller.interest .writeDownload sock = .watched
  uncorked : ∀ sock, manager.poller.interest .writeDownload sock ≠ .corked

theorem Watching.flushed (watching : manager.Watching) : manager.Flushed :=
  fun sock held downloader found healthy waiting =>
    have buffered := watching.noted sock held downloader found healthy waiting
    ⟨buffered, watching.polled sock held buffered⟩

namespace Watching

theorem initial : Watching {} where
  noted := by simp
  polled := by simp
  uncorked := by simp

theorem add_watched (uncorked : ∀ sock, manager.poller.interest .writeDownload sock ≠ .corked) :
    (manager.poller.add .writeDownload sock).interest .writeDownload sock = .watched := by
  rw [Poller.interest_add]
  cases interest : manager.poller.interest .writeDownload sock with
  | absent => simp
  | watched => simp
  | corked => exact absurd interest (uncorked sock)

theorem add_uncorked (uncorked : ∀ sock, manager.poller.interest .writeDownload sock ≠ .corked) :
    (manager.poller.add .writeDownload sock).interest .writeDownload other ≠ .corked := by
  rw [Poller.interest_add]
  split
  · simp
  · exact uncorked other

theorem release (watching : manager.Watching) (registered : manager.Registered) :
    (manager.release sock client event).Watching where
  noted := by
    intro member held downloader found healthy waiting
    simp only [ContentManager.release, Finset.mem_erase] at held found ⊢
    have buffered := watching.noted member held.2 downloader found healthy waiting
    exact (registered.nodup.mem_erase_iff).mpr ⟨held.1, buffered⟩
  polled := by
    intro member held buffered
    simp only [ContentManager.release, Finset.mem_erase] at held buffered ⊢
    have polled := watching.polled member held.2 (List.mem_of_mem_erase buffered)
    split <;> simp [Poller.interest_remove, held.1, polled]
  uncorked := by
    intro member
    have uncorked := watching.uncorked member
    simp only [ContentManager.release]
    split <;> grind [Poller.interest_remove]

theorem enlist (watching : manager.Watching) (registered : manager.Registered) :
    (manager.enlist downloader).Watching where
  noted := by
    intro member held downloader' found healthy waiting
    have old : member ≠ manager.sockets := fun same =>
      Nat.lt_irrefl _ (registered.fresh _ (.inr (same ▸ held)))
    exact watching.noted member held downloader' ((AList.lookup_insert_ne old).symm.trans found)
      healthy waiting
  polled := by
    intro member held buffered
    simp only [ContentManager.enlist, register, Poller.interest_add]
    exact watching.polled member held buffered
  uncorked := by
    intro member
    simp only [ContentManager.enlist, register, Poller.interest_add]
    exact watching.uncorked member

theorem writeData (watching : manager.Watching) (registered : manager.Registered)
    (live : manager.Live sock) {data : Str} {again : Bool} :
    (manager.writeData send sock data again).1.Watching := by
  obtain ⟨downloader, found, _⟩ := registered.filed sock live
  have left : (downloader.writeData data send).1 ≠ some true →
      (downloader.writeData data send).2.broken = false →
      (downloader.writeData data send).2.wBuffer = [] := by
    intro drained healthy
    rw [Downloader.writeData_buffered healthy] at drained
    simpa using drained
  have elsewhere : ∀ member ∈ manager.established, member ≠ sock → ∀ downloader',
      (manager.downloaders.insert sock (downloader.writeData data send).2).lookup member =
        some downloader' → downloader'.broken = false → downloader'.wBuffer ≠ [] →
      member ∈ manager.buffered := by
    intro member held different downloader' looked healthy waiting
    rw [AList.lookup_insert_ne different] at looked
    exact watching.noted member held downloader' looked healthy waiting
  simp only [ContentManager.writeData, found]
  split
  · next more =>
      split
      · next absent =>
          exact {
            noted := by
              intro member held downloader' looked healthy waiting
              by_cases same : member = sock
              · simp [same]
              · exact List.mem_append_left _ (elsewhere member held same downloader' looked healthy waiting)
            polled := by
              intro member held buffered
              by_cases same : member = sock
              · subst same
                exact add_watched watching.uncorked
              · have old : member ∈ manager.buffered := by simpa [same] using buffered
                simp only [Poller.interest_add, same, and_false, false_and, if_false]
                exact watching.polled member held old
            uncorked := fun member => add_uncorked watching.uncorked }
      · next present =>
          rw [not_not] at present
          exact {
            noted := by
              intro member held downloader' looked healthy waiting
              by_cases same : member = sock
              · rw [same]
                exact present
              · exact elsewhere member held same downloader' looked healthy waiting
            polled := watching.polled
            uncorked := watching.uncorked }
  · next drained =>
      have nothing : ∀ member ∈ manager.established, ∀ downloader',
          (manager.downloaders.insert sock (downloader.writeData data send).2).lookup member =
            some downloader' → downloader'.broken = false → downloader'.wBuffer ≠ [] →
          member ≠ sock ∧ member ∈ manager.buffered := by
        intro member held downloader' looked healthy waiting
        have different : member ≠ sock := by
          intro same
          rw [same, AList.lookup_insert] at looked
          cases looked
          exact waiting (left drained healthy)
        exact ⟨different, elsewhere member held different downloader' looked healthy waiting⟩
      split
      · exact {
          noted := fun member held downloader' looked healthy waiting =>
            (registered.nodup.mem_erase_iff).mpr (nothing member held downloader' looked healthy waiting)
          polled := by
            intro member held buffered
            obtain ⟨different, buffered⟩ := registered.nodup.mem_erase_iff.mp buffered
            simp only [Poller.interest_remove, different, and_false, if_false]
            exact watching.polled member held buffered
          uncorked := by
            intro member
            have uncorked := watching.uncorked member
            grind [Poller.interest_remove] }
      · exact {
          noted := fun member held downloader' looked healthy waiting =>
            (nothing member held downloader' looked healthy waiting).2
          polled := watching.polled
          uncorked := watching.uncorked }

theorem enqueue (watching : manager.Watching) (registered : manager.Registered)
    (waits : sock ∈ manager.opening) : (manager.enqueue sock downloader).Watching := by
  have others : ∀ member ∈ manager.established, member ≠ sock := fun member held same =>
    registered.disjoint sock waits (same ▸ held)
  simp only [ContentManager.enqueue]
  split
  · exact {
      noted := by
        intro member held downloader' found healthy waiting
        rw [AList.lookup_insert_ne (others member held)] at found
        exact List.mem_append_left _ (watching.noted member held downloader' found healthy waiting)
      polled := by
        intro member held buffered
        have old : member ∈ manager.buffered := by simpa [others member held] using buffered
        exact watching.polled member held old
      uncorked := watching.uncorked }
  · exact {
      noted := by
        intro member held downloader' found healthy waiting
        rw [AList.lookup_insert_ne (others member held)] at found
        exact watching.noted member held downloader' found healthy waiting
      polled := watching.polled
      uncorked := watching.uncorked }

theorem sendsAll_left (sendsAll : SendsAll manager sock send) (absent : sock ∉ manager.buffered)
    (found : manager.downloaders.lookup sock = some downloader)
    (healthy : (downloader.writeData [] send).2.broken = false) :
    (downloader.writeData [] send).2.wBuffer = [] := by
  rcases sendsAll.resolve_left absent downloader found with broken | empty | failed | ⟨count, rfl, fits⟩
  · rw [Downloader.writeData_broken healthy] at broken
    cases broken
  · cases send <;> simp [Downloader.writeData, empty]
  · subst failed
    cases healthy
  · simp only [Downloader.writeData, List.append_nil]
    exact List.drop_eq_nil_of_le fits

theorem startDownload (watching : manager.Watching) (registered : manager.Registered)
    (waits : sock ∈ manager.opening) (sendsAll : SendsAll manager sock send) {site : Site} :
    (manager.startDownload site send sock).1.Watching := by
  obtain ⟨downloader, found, _⟩ := registered.filed sock (.inl waits)
  have removed : ∀ member, ((((manager.poller.remove .writeDownload sock).remove
      .openingDownload sock).add .readDownload sock)).interest .writeDownload member =
      if member = sock then .absent else manager.poller.interest .writeDownload member := by
    intro member
    simp [Poller.interest_add, Poller.interest_remove]
  exact {
    noted := by
      intro member held downloader' looked healthy waiting
      simp only [ContentManager.startDownload, waits, found, if_true, Finset.mem_insert,
        Downloader.startConversation_downloader] at held looked ⊢
      by_cases same : member = sock
      · rw [same, AList.lookup_insert] at looked
        cases looked
        rw [same]
        by_contra absent
        exact waiting (sendsAll_left sendsAll absent found healthy)
      · rw [AList.lookup_insert_ne same] at looked
        exact watching.noted member (held.resolve_left same) downloader' looked healthy waiting
    polled := by
      intro member held buffered
      simp only [ContentManager.startDownload, waits, found, if_true, Finset.mem_insert] at held buffered ⊢
      by_cases same : member = sock
      · subst same
        simp [buffered, Poller.interest_add, Poller.interest_remove]
      · have polled := watching.polled member (held.resolve_left same) buffered
        split
        · simp [Poller.interest_add, same, Poller.interest_remove, polled]
        · simp [removed, same, polled]
    uncorked := by
      intro member
      have uncorked := watching.uncorked member
      simp only [ContentManager.startDownload, waits, found, if_true]
      split <;> grind [Poller.interest_add] }

theorem recork (watching : manager.Watching) {poller : Poller Event}
    (same : ∀ sock, poller.interest .writeDownload sock = manager.poller.interest .writeDownload sock) :
    Watching { manager with poller } where
  noted := watching.noted
  polled := fun sock held buffered => (same sock).trans (watching.polled sock held buffered)
  uncorked := fun sock => by
    rw [same]
    exact watching.uncorked sock

end Watching

theorem Change.watching (change : Change SendsAll before after) (registered : before.Registered)
    (watching : before.Watching) : after.Watching := by
  cases change with
  | released client sock event served polled => exact watching.release registered
  | enlisted downloader own free => exact watching.enlist registered
  | wrote sock send data again live => exact watching.writeData registered live
  | queued sock downloader data waits found => exact watching.enqueue registered waits
  | started site send sock waits allowed => exact watching.startDownload registered waits allowed
  | corked client =>
      unfold corkClientDownload
      split
      · exact watching.recork fun sock => by simp [Poller.interest_cork]
      · exact watching
  | uncorked client =>
      unfold uncorkClientDownload
      split
      · split
        · exact watching.recork fun sock => by simp [Poller.interest_uncork]
        · exact watching
      · exact watching

theorem Changes.watching (changes : Changes SendsAll before after) (registered : before.Registered)
    (watching : before.Watching) : after.Watching := by
  induction changes with
  | refl => exact watching
  | tail earlier change ih => exact change.watching (Changes.registered earlier registered) ih

/-- While every connection that starts sends all it has, no data is stranded. -/
theorem uploads_flushed (run : Run SendsAll manager) : manager.Flushed :=
  Watching.flushed (Reachable.invariant run Watching (fun _ initial => initial ▸ .initial)
    fun _ _ reached watching called =>
      (called.changes (Run.registered reached)).watching (Run.registered reached) watching)

theorem uploads_flushed_whole : ∃ manager : ContentManager, manager.established = {0} ∧
    manager.Flushed := by
  have run : Run SendsAll {} := .start rfl
  have asked : Run SendsAll _ :=
    run.call (.getContent anySite (.accepted 0) 7 firstRequest) rfl (by simp)
  have started : Run SendsAll _ := asked.call (.startDownload anySite (.accepted 18) 0) rfl (by
    rintro site send sock ⟨rfl, rfl, rfl⟩ waits
    refine .inr fun downloader found => ?_
    cases found
    exact .inr (.inr (.inr ⟨18, rfl, by decide⟩)))
  exact ⟨_, rfl, uploads_flushed started⟩

/-- A request of which the first send accepts four bytes: nothing asks for the rest. -/
theorem upload_stranded : ¬ ∀ manager, Run (fun _ _ _ => True) manager → manager.Flushed := by
  intro flushed
  have run : Run (fun _ _ _ => True) {} := .start rfl
  have asked : Run (fun _ _ _ => True) _ :=
    run.call (.getContent anySite (.accepted 0) 7 firstRequest) rfl (by simp)
  have started : Run (fun _ _ _ => True) _ :=
    asked.call (.startDownload anySite (.accepted 4) 0) rfl (by simp)
  have noted := (flushed _ started 0 (by decide) _ rfl rfl (by decide)).1
  exact absurd noted (by decide)

end ContentManager

end ExaProxy.Content
