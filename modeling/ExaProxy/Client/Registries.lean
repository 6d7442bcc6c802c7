import ExaProxy.Client.Readers
import ExaProxy.Client.Roster

namespace ExaProxy.Client

open ExaProxy.Data ExaProxy.Network
open ExaProxy.Content (Send Reply Remaining)

namespace ClientManager

variable {ρ : Type} {readers : Readers ρ} {manager before after : ClientManager ρ} {sock other : Sock}
  {client : Connected ρ} {source : Source} {event : Event}

/-- The client with this socket, in either dictionary. -/
def identityOf (manager : ClientManager ρ) (sock : Sock) : Option Identity :=
  (manager.served sock).or (manager.waiting sock)

/-- The socket is known to the poller under the event, be it corked or not. -/
def Registered (manager : ClientManager ρ) (event : Event) (sock : Sock) : Prop :=
  manager.poller.interest event sock ≠ .absent

/-- The registries agree: a client stands in one dictionary, its name leads to it, and it is
registered as its dictionary and its buffer require. -/
structure Agreed (manager : ClientManager ρ) : Prop where
  apart : ∀ sock ∈ manager.bysock, sock ∉ manager.norequest
  named : ∀ name sock, manager.byname.lookup name = some sock ↔
    (manager.identityOf sock).map Identity.name = some name
  nodup : manager.buffered.Nodup
  within : ∀ sock ∈ manager.buffered, sock ∈ manager.bysock
  writing : ∀ sock, manager.Registered .writeClient sock ↔ sock ∈ manager.buffered
  opening : ∀ sock, manager.Registered .openingClient sock ↔ sock ∈ manager.norequest
  reading : ∀ sock, manager.Registered .readClient sock ↔ sock ∈ manager.bysock

/-- No name and no socket is known before it is given out. -/
structure Numbered (manager : ClientManager ρ) : Prop where
  names : ∀ name ∈ manager.byname, name ≤ manager.nextid
  bysock : ∀ sock ∈ manager.bysock, sock < manager.sockets
  norequest : ∀ sock ∈ manager.norequest, sock < manager.sockets

theorem mem_bysock : sock ∈ manager.bysock ↔ manager.served sock ≠ none := by
  rw [served, ne_eq, Option.map_eq_none_iff, AList.lookup_eq_none, not_not]

theorem mem_norequest : sock ∈ manager.norequest ↔ manager.waiting sock ≠ none := by
  rw [waiting, ne_eq, Option.map_eq_none_iff, AList.lookup_eq_none, not_not]

/-- The same clients are held and registered. -/
structure Level (before after : ClientManager ρ) : Prop extends Alike before after where
  byname : after.byname = before.byname
  nextid : after.nextid = before.nextid
  buffered : after.buffered = before.buffered
  registered : ∀ event sock, after.Registered event sock ↔ before.Registered event sock

theorem Level.trans {middle : ClientManager ρ} (first : Level before middle) (second : Level middle after) :
    Level before after where
  toAlike := first.toAlike.trans second.toAlike
  byname := second.byname.trans first.byname
  nextid := second.nextid.trans first.nextid
  buffered := second.buffered.trans first.buffered
  registered event sock := (second.registered event sock).trans (first.registered event sock)

theorem Alike.mem_bysock (alike : Alike before after) : sock ∈ after.bysock ↔ sock ∈ before.bysock := by
  rw [ClientManager.mem_bysock, alike.served, ← ClientManager.mem_bysock]

theorem Alike.mem_norequest (alike : Alike before after) : sock ∈ after.norequest ↔ sock ∈ before.norequest := by
  rw [ClientManager.mem_norequest, alike.waiting, ← ClientManager.mem_norequest]

theorem Agreed.level (agreed : before.Agreed) (level : Level before after) : after.Agreed where
  apart sock held := by
    rw [level.mem_norequest]
    exact agreed.apart sock (level.mem_bysock.mp held)
  named name sock := by
    rw [level.byname, agreed.named, identityOf, identityOf, level.served, level.waiting]
  nodup := level.buffered ▸ agreed.nodup
  within sock listed := level.mem_bysock.mpr (agreed.within sock (level.buffered ▸ listed))
  writing sock := by rw [level.registered, agreed.writing, level.buffered]
  opening sock := by rw [level.registered, agreed.opening, level.mem_norequest]
  reading sock := by rw [level.registered, agreed.reading, level.mem_bysock]

theorem Numbered.alike (numbered : before.Numbered) (alike : Alike before after)
    (byname : after.byname = before.byname) (nextid : after.nextid = before.nextid) : after.Numbered where
  names name known := by
    rw [nextid]
    exact numbered.names name (byname ▸ known)
  bysock sock held := by
    rw [alike.sockets]
    exact numbered.bysock sock (alike.mem_bysock.mp held)
  norequest sock held := by
    rw [alike.sockets]
    exact numbered.norequest sock (alike.mem_norequest.mp held)

/-! ### What the operations do to the registries -/

theorem put_level (found : manager.bysock.lookup sock = some client) (changed : Connected ρ)
    (same : changed.toIdentity = client.toIdentity) : Level manager (manager.put sock changed) :=
  ⟨put_alike found changed same, rfl, rfl, rfl, fun _ _ => Iff.rfl⟩

theorem cork_level : Level manager { manager with poller := manager.poller.cork event sock } :=
  ⟨⟨rfl, rfl, rfl⟩, rfl, rfl, rfl, fun _ _ => not_congr (Poller.cork_known ..)⟩

theorem uncork_level : Level manager { manager with poller := manager.poller.uncork event sock } :=
  ⟨⟨rfl, rfl, rfl⟩, rfl, rfl, rfl, fun _ _ => not_congr (Poller.uncork_known ..)⟩

theorem identityOf_served {identity : Identity} (served : manager.served sock = some identity) :
    manager.identityOf sock = some identity := by
  rw [identityOf, served]
  rfl

theorem Agreed.identityOf_waiting (agreed : manager.Agreed) {identity : Identity}
    (waiting : manager.waiting sock = some identity) : manager.identityOf sock = some identity := by
  have absent : sock ∉ manager.bysock := fun held =>
    agreed.apart sock held (mem_norequest.mpr (by rw [waiting]; exact Option.some_ne_none _))
  rw [mem_bysock, not_not] at absent
  rw [identityOf, absent, waiting]
  rfl

theorem Dropped.identityOf (dropped : Dropped sock before after) :
    after.identityOf = Function.update before.identityOf sock none := by
  funext other
  simp only [ClientManager.identityOf, dropped.served, dropped.waiting, Function.update_apply]
  split <;> simp

theorem Agreed.cleanup (agreed : manager.Agreed) {identity : Identity}
    (known : manager.identityOf sock = some identity) : (manager.cleanup sock identity.name).Agreed := by
  have held : sock ∈ manager.bysock ∨ sock ∈ manager.norequest := by
    rw [mem_bysock, mem_norequest]
    by_contra neither
    rw [not_or, not_not, not_not] at neither
    rw [identityOf, neither.1, neither.2] at known
    cases known
  have dropped : Dropped sock manager (manager.cleanup sock identity.name) := cleanup_dropped
  have registered : ∀ event other, (manager.cleanup sock identity.name).Registered event other ↔
      manager.Registered event other ∧ other ≠ sock := by
    intro event other
    simp only [Registered, ClientManager.cleanup, held, if_true, ne_eq, Poller.remove_known]
    cases event <;> grind
  have member : ∀ other, other ∈ (manager.cleanup sock identity.name).bysock ↔
      other ≠ sock ∧ other ∈ manager.bysock := fun other => AList.mem_erase
  have listed : ∀ other, other ∈ (manager.cleanup sock identity.name).norequest ↔
      other ≠ sock ∧ other ∈ manager.norequest := fun other => AList.mem_erase
  have buffered : ∀ other, other ∈ (manager.cleanup sock identity.name).buffered ↔
      other ≠ sock ∧ other ∈ manager.buffered := fun other => agreed.nodup.mem_erase_iff
  exact {
    apart := fun other served waits => agreed.apart other ((member other).mp served).2 ((listed other).mp waits).2
    named := fun name other => by
      have names : (manager.cleanup sock identity.name).byname = manager.byname.erase identity.name := rfl
      rw [names, lookup_erase_iff, agreed.named, dropped.identityOf, Function.update_apply]
      split
      · next same =>
          subst same
          simp only [known, Option.map_some, Option.some.injEq, Option.map_none, reduceCtorEq, iff_false, not_and]
          exact fun different same => different same.symm
      · next different =>
          refine and_iff_right_of_imp fun own same => different ?_
          rw [same] at own
          have first := (agreed.named _ _).mpr own
          have second := (agreed.named identity.name sock).mpr (by rw [known]; rfl)
          exact Option.some.inj (first.symm.trans second)
    nodup := agreed.nodup.erase sock
    within := fun other left => by
      obtain ⟨different, left⟩ := (buffered other).mp left
      exact (member other).mpr ⟨different, agreed.within other left⟩
    writing := fun other => by rw [registered, agreed.writing, buffered, and_comm]
    opening := fun other => by rw [registered, agreed.opening, listed, and_comm]
    reading := fun other => by rw [registered, agreed.reading, member, and_comm] }

theorem Agreed.buffer (agreed : manager.Agreed) (held : sock ∈ manager.bysock) (absent : sock ∉ manager.buffered) :
    Agreed { manager with
      buffered := manager.buffered ++ [sock]
      poller := manager.poller.add .writeClient sock } where
  apart := agreed.apart
  named := agreed.named
  nodup := List.nodup_append.mpr ⟨agreed.nodup, List.nodup_singleton _, fun other listed last same => by
    rw [List.mem_singleton] at same
    exact fun equal => absent (same ▸ equal ▸ listed)⟩
  within other listed := by
    rcases List.mem_append.mp listed with earlier | last
    · exact agreed.within other earlier
    · rw [List.mem_singleton.mp last]
      exact held
  writing other := by
    rw [Registered, ne_eq, Poller.add_known, List.mem_append, List.mem_singleton, ← agreed.writing, Registered]
    simp only [true_and, not_and_or, not_not]
  opening other := by
    rw [← agreed.opening, Registered, Registered, ne_eq, Poller.add_known]
    simp
  reading other := by
    rw [← agreed.reading, Registered, Registered, ne_eq, Poller.add_known]
    simp

theorem Agreed.unbuffer (agreed : manager.Agreed) (sock : Sock) : Agreed { manager with
    buffered := manager.buffered.erase sock
    poller := manager.poller.remove .writeClient sock } where
  apart := agreed.apart
  named := agreed.named
  nodup := agreed.nodup.erase sock
  within other listed := agreed.within other (List.mem_of_mem_erase listed)
  writing other := by
    rw [Registered, ne_eq, Poller.remove_known, agreed.nodup.mem_erase_iff, ← agreed.writing, Registered]
    simp only [true_and, not_or, and_comm]
  opening other := by
    rw [← agreed.opening, Registered, Registered, ne_eq, Poller.remove_known]
    simp
  reading other := by
    rw [← agreed.reading, Registered, Registered, ne_eq, Poller.remove_known]
    simp

theorem Agreed.noteBuffer (agreed : manager.Agreed) (held : sock ∈ manager.bysock) (buffered hadBuffer : Bool) :
    (manager.noteBuffer sock buffered hadBuffer).1.Agreed := by
  unfold ClientManager.noteBuffer
  split
  · split
    · next absent => exact agreed.buffer held absent
    · exact agreed
  · split
    · exact agreed.unbuffer sock
    · exact agreed

/-- What a response does to the buffered clients: it must not start one that is there. -/
theorem Agreed.startBuffer (agreed : manager.Agreed) (held : sock ∈ manager.bysock) {buffered hadBuffer : Bool}
    {started : ClientManager ρ} (starts : buffered = true → hadBuffer = false → sock ∉ manager.buffered)
    (ok : manager.startBuffer sock buffered hadBuffer = .ok started) : started.Agreed := by
  unfold ClientManager.startBuffer at ok
  split at ok
  · next added =>
      cases ok
      exact agreed.buffer held (starts added.1 added.2)
  · split at ok
    · split at ok
      · cases ok
        exact agreed.unbuffer sock
      · cases ok
    · cases ok
      exact agreed

theorem Agreed.promote (agreed : manager.Agreed) (found : manager.norequest.lookup sock = some client) (reader : ρ) :
    Agreed { manager with
      norequest := manager.norequest.erase sock
      bysock := manager.bysock.insert sock { client with reader }
      poller := ((manager.poller.add .readClient sock).remove .openingClient sock).cork .readClient sock } := by
  have waits : sock ∈ manager.norequest := lookup_mem found
  have promoted := @Opening.promoted _ _ _ client found reader
    (((manager.poller.add .readClient sock).remove .openingClient sock).cork .readClient sock)
  have absent : manager.served sock = none := by
    have missing : sock ∉ manager.bysock := fun held => agreed.apart sock held waits
    rwa [mem_bysock, not_not] at missing
  refine ⟨fun other held listed => ?_, fun name other => ?_, agreed.nodup,
    fun other listed => (AList.mem_insert _).mpr (.inr (agreed.within other listed)),
    fun other => ?_, fun other => ?_, fun other => ?_⟩
  · obtain ⟨different, listed⟩ := AList.mem_erase.mp listed
    exact agreed.apart other (((AList.mem_insert _).mp held).resolve_left different) listed
  · rw [agreed.named, identityOf, identityOf, promoted.served, promoted.waiting, Function.update_apply,
      Function.update_apply]
    split
    · next same =>
        subst same
        rw [absent, Option.or_none, Option.none_or]
    · rfl
  · rw [Registered, ne_eq, Poller.cork_known, Poller.remove_known, Poller.add_known, ← agreed.writing, Registered]
    simp
  · rw [Registered, ne_eq, Poller.cork_known, Poller.remove_known, Poller.add_known, AList.mem_erase,
      ← agreed.opening, Registered]
    simp [and_comm]
  · rw [Registered, ne_eq, Poller.cork_known, Poller.remove_known, Poller.add_known, AList.mem_insert,
      ← agreed.reading, Registered]
    simp only [reduceCtorEq, false_and, or_false, true_and, not_and_or, not_not]
    exact or_comm

/-- What a new client stands in: nothing, so far. -/
theorem Numbered.unheld (numbered : manager.Numbered) :
    manager.identityOf manager.sockets = none ∧ manager.byname.lookup (manager.nextid + 1) = none ∧
      manager.sockets ∉ manager.bysock ∧ manager.sockets ∉ manager.norequest := by
  have served : manager.sockets ∉ manager.bysock := fun held => Nat.lt_irrefl _ (numbered.bysock _ held)
  have waits : manager.sockets ∉ manager.norequest := fun held => Nat.lt_irrefl _ (numbered.norequest _ held)
  refine ⟨?_, ?_, served, waits⟩
  · rw [mem_bysock, not_not] at served
    rw [mem_norequest, not_not] at waits
    rw [identityOf, served, waits]
    rfl
  · rw [AList.lookup_eq_none]
    exact fun known => Nat.lt_irrefl _ (numbered.names _ known)

theorem Agreed.name (agreed : manager.Agreed) (numbered : manager.Numbered) {after : ClientManager ρ}
    (identity : Identity) (number : identity.name = manager.nextid + 1)
    (byname : after.byname = manager.byname.insert (manager.nextid + 1) manager.sockets)
    (identityOf : after.identityOf = Function.update manager.identityOf manager.sockets (some identity))
    (name : Nat) (sock : Sock) : after.byname.lookup name = some sock ↔
      (after.identityOf sock).map Identity.name = some name := by
  obtain ⟨unheld, unnamed, -⟩ := numbered.unheld
  rw [byname, lookup_insert_iff, identityOf, Function.update_apply, agreed.named]
  split
  · next same =>
      subst same
      rw [unheld, Option.map_some, Option.some.injEq, number]
      simp [eq_comm]
  · next different =>
      simp only [different, and_false, false_or, and_iff_right_iff_imp]
      intro own same
      rw [same] at own
      have known := (agreed.named _ _).mpr own
      rw [unnamed] at known
      cases known

theorem Agreed.connection (agreed : manager.Agreed) (numbered : manager.Numbered) (source : Source) :
    (manager.connection readers source).Agreed := by
  obtain ⟨-, -, served, waits⟩ := numbered.unheld
  have identityOf : (manager.connection readers source).identityOf =
      Function.update manager.identityOf manager.sockets (some ⟨manager.nextid + 1, source⟩) := by
    have waiting : (manager.connection readers source).waiting =
        Function.update manager.waiting manager.sockets (some ⟨manager.nextid + 1, source⟩) := lookup_insert_map
    have same : (manager.connection readers source).served = manager.served := rfl
    rw [mem_bysock, not_not] at served
    funext other
    rw [ClientManager.identityOf, waiting, same, Function.update_apply, Function.update_apply]
    split
    · next new =>
        subst new
        rw [served]
        rfl
    · rfl
  refine ⟨fun other held listed => ?_, agreed.name numbered _ rfl rfl identityOf, agreed.nodup, agreed.within,
    fun other => ?_, fun other => ?_, fun other => ?_⟩
  · rcases (AList.mem_insert _).mp listed with same | listed
    · rw [same] at held
      exact served held
    · exact agreed.apart other held listed
  · have polled := agreed.writing other
    rw [Registered] at polled ⊢
    rw [ClientManager.connection, ne_eq, Poller.add_known]
    simpa using polled
  · have polled := agreed.opening other
    rw [Registered] at polled ⊢
    rw [ClientManager.connection, ne_eq, Poller.add_known, AList.mem_insert, ← polled]
    simp only [true_and, not_and_or, not_not]
    exact or_comm
  · have polled := agreed.reading other
    rw [Registered] at polled ⊢
    rw [ClientManager.connection, ne_eq, Poller.add_known]
    simpa using polled

theorem Agreed.passthroughConnection (agreed : manager.Agreed) (numbered : manager.Numbered) :
    (manager.passthroughConnection readers).1.Agreed := by
  obtain ⟨-, -, served, waits⟩ := numbered.unheld
  have identityOf : (manager.passthroughConnection readers).1.identityOf =
      Function.update manager.identityOf manager.sockets (some ⟨manager.nextid + 1, .passthrough⟩) := by
    have now : (manager.passthroughConnection readers).1.served =
        Function.update manager.served manager.sockets (some ⟨manager.nextid + 1, .passthrough⟩) := lookup_insert_map
    have same : (manager.passthroughConnection readers).1.waiting = manager.waiting := rfl
    funext other
    rw [ClientManager.identityOf, now, same, Function.update_apply, Function.update_apply]
    split <;> rfl
  refine ⟨fun other held listed => ?_, agreed.name numbered _ rfl rfl identityOf, agreed.nodup,
    fun other listed => (AList.mem_insert _).mpr (.inr (agreed.within other listed)), fun other => ?_, fun other => ?_,
    fun other => ?_⟩
  · rcases (AList.mem_insert _).mp held with same | held
    · rw [same] at listed
      exact waits listed
    · exact agreed.apart other held listed
  · have polled := agreed.writing other
    rw [Registered] at polled ⊢
    rw [ClientManager.passthroughConnection, ne_eq, Poller.add_known]
    simpa using polled
  · have polled := agreed.opening other
    rw [Registered] at polled ⊢
    rw [ClientManager.passthroughConnection, ne_eq, Poller.add_known]
    simpa using polled
  · have polled := agreed.reading other
    rw [Registered] at polled ⊢
    rw [ClientManager.passthroughConnection, ne_eq, Poller.add_known, AList.mem_insert, ← polled]
    simp only [true_and, not_and_or, not_not]
    exact or_comm

theorem Numbered.cleanup (numbered : manager.Numbered) (name : Nat) : (manager.cleanup sock name).Numbered :=
  ⟨fun other known => numbered.names other (AList.mem_erase.mp known).2,
    fun other held => numbered.bysock other (AList.mem_erase.mp held).2,
    fun other held => numbered.norequest other (AList.mem_erase.mp held).2⟩

theorem Numbered.connection (numbered : manager.Numbered) (source : Source) :
    (manager.connection readers source).Numbered where
  names name known := by
    rcases (AList.mem_insert _).mp known with rfl | known
    · exact Nat.le_refl _
    · exact Nat.le_succ_of_le (numbered.names name known)
  bysock sock held := Nat.lt_succ_of_lt (numbered.bysock sock held)
  norequest sock held := by
    rcases (AList.mem_insert _).mp held with rfl | held
    · exact Nat.lt_succ_self _
    · exact Nat.lt_succ_of_lt (numbered.norequest sock held)

theorem Numbered.passthroughConnection (numbered : manager.Numbered) :
    (manager.passthroughConnection readers).1.Numbered where
  names name known := by
    rcases (AList.mem_insert _).mp known with rfl | known
    · exact Nat.le_refl _
    · exact Nat.le_succ_of_le (numbered.names name known)
  bysock sock held := by
    rcases (AList.mem_insert _).mp held with rfl | held
    · exact Nat.lt_succ_self _
    · exact Nat.lt_succ_of_lt (numbered.bysock sock held)
  norequest sock held := Nat.lt_succ_of_lt (numbered.norequest sock held)

/-- The registries agree, and what is given out next is new. -/
def Kept (manager : ClientManager ρ) : Prop := manager.Agreed ∧ manager.Numbered

theorem Kept.level (kept : before.Kept) (level : Level before after) : after.Kept :=
  ⟨kept.1.level level, kept.2.alike level.toAlike level.byname level.nextid⟩

theorem Kept.cleanup (kept : manager.Kept) (found : manager.bysock.lookup sock = some client ∨
    manager.norequest.lookup sock = some client) : (manager.cleanup sock client.name).Kept := by
  have known : manager.identityOf sock = some client.toIdentity := by
    rcases found with found | found
    · exact identityOf_served (served_found found)
    · exact kept.1.identityOf_waiting (waiting_found found)
  exact ⟨kept.1.cleanup known, kept.2.cleanup _⟩

theorem Kept.opening (kept : manager.Kept) {recv : List Recv}
    {result : ClientManager ρ × Option (Nat × Source × Yielded)}
    (opening : Opening readers manager sock recv result) : result.1.Kept := by
  cases opening with
  | absent | raised => exact kept
  | asked client found text reader read =>
      refine ⟨kept.1.promote found reader, kept.2.names, fun other held => ?_, fun other held =>
        kept.2.norequest other (AList.mem_erase.mp held).2⟩
      rcases (AList.mem_insert _).mp held with same | held
      · rw [same]
        exact kept.2.norequest sock (lookup_mem found)
      · exact kept.2.bysock other held
  | closed client found => exact kept.cleanup (.inr found)
  | kept client found yielded reader read quiet =>
      exact kept.level ⟨Opening.kept_alike found, rfl, rfl, rfl, fun _ _ => Iff.rfl⟩

theorem Kept.reading (kept : manager.Kept) {recv : List Recv}
    {result : ClientManager ρ × Option (Nat × Source × Yielded)}
    (reading : Reading readers manager sock recv result) : result.1.Kept := by
  cases reading with
  | absent | raised => exact kept
  | asked client found text reader read =>
      exact (kept.level (put_level found { client with reader } rfl)).level cork_level
  | closed client found => exact kept.cleanup (.inl found)
  | kept client found yielded reader read quiet => exact kept.level (put_level found _ rfl)

theorem Kept.sending (kept : manager.Kept) {data : Option Str} {send : Send} {result : ClientManager ρ × Sent}
    (sending : Sending manager sock data send result) : result.1.Kept := by
  cases sending with
  | absent => exact kept
  | closed client found => exact kept.cleanup (.inl found)
  | kept client found writer buffered hadBuffer resumed =>
      have put := kept.level (put_level found { client with writer } rfl)
      refine ⟨put.1.noteBuffer ((AList.mem_insert _).mpr (.inl rfl)) buffered hadBuffer, ?_⟩
      refine put.2.alike (noteBuffer_alike sock buffered hadBuffer) ?_ ?_
      · unfold ClientManager.noteBuffer
        split <;> split <;> rfl
      · unfold ClientManager.noteBuffer
        split <;> split <;> rfl

end ClientManager

namespace Writer

/-- What the socket did not take of the data. -/
def Left (data : Str) : Send → Prop
  | .accepted count => count < data.length
  | .wouldBlock => data ≠ []
  | .failed => False

/-- The response fills a buffer of its own: it is a file, or it begins where nothing is left
to write and the socket does not take it whole. -/
def Fills (writer : Writer) (source : Source) (reply : Reply) (send : Send) (file : Option Str) : Prop :=
  match reply with
  | .stream data => writer.wBuffer = [] ∧ Left data send
  | .close data => (source = .proxy ∨ source = .web) ∧ writer.wBuffer = [] ∧ ∃ text ∈ data, Left text send
  | .file _ _ => source ≠ .tls ∧ source ≠ .passthrough ∧ file ≠ none

variable {writer after : Writer} {source : Source} {reply : Reply} {send : Send} {file : Option Str}

theorem turn_fills {wBuffer : Str} {data : Option Str}
    (turned : turn false wBuffer data send = (some (true, false), after)) :
    wBuffer = [] ∧ ∃ text ∈ data, Left text send := by
  have empty : wBuffer = [] := by
    by_contra full
    unfold turn at turned
    cases data with
    | none => simp [full] at turned
    | some text =>
        simp only [full, ne_eq, not_false_eq_true, decide_true, Option.isNone_some, Bool.or_false,
          Bool.false_eq_true, false_and, if_false] at turned
        split at turned
        · split at turned <;> simp at turned
        · simp at turned
  subst empty
  refine ⟨rfl, ?_⟩
  unfold turn at turned
  cases data with
  | none => simp at turned
  | some text =>
      refine ⟨text, rfl, ?_⟩
      simp only [ne_eq, not_true_eq_false, decide_false, Option.getD_some, List.nil_append, Option.isNone_some,
        Bool.or_false, Bool.false_eq_true, false_and, if_false, true_or, if_true] at turned
      cases send with
      | accepted count =>
          obtain ⟨state, -⟩ := Prod.mk.inj turned
          simpa [Left] using state
      | wouldBlock =>
          obtain ⟨state, -⟩ := Prod.mk.inj turned
          simpa [Left] using state
      | failed => simp at turned

theorem resume_none_kept (buffered : Bool) {res : Option (Bool × Bool)}
    (resumed : writer.resume none send = (res, after)) : res ≠ some (buffered, false) := by
  intro same
  subst same
  unfold resume at resumed
  cases writer with
  | mk stage wBuffer =>
      cases stage with
      | looping finished =>
          by_cases empty : wBuffer = []
          · simp [turn, empty] at resumed
          · simp [turn, empty] at resumed
      | created => simp at resumed
      | ended => simp at resumed

theorem startData_fills (ok : writer.startData source reply send file = .ok (some (true, false), after)) :
    writer.Fills source reply send file := by
  cases reply with
  | stream data =>
      obtain ⟨empty, text, same, left⟩ := turn_fills (Except.ok.inj ok)
      cases same
      exact ⟨empty, left⟩
  | close data =>
      cases turned : turn false writer.wBuffer data send with
      | mk res writer' =>
          cases resumed : writer'.resume none send with
          | mk closing last =>
              have kept := resume_none_kept true resumed
              simp only [startData, turned, resumed] at ok
              cases source with
              | proxy =>
                  cases ok
                  obtain ⟨empty, text, same, left⟩ := turn_fills turned
                  exact ⟨.inl rfl, empty, text, same, left⟩
              | web =>
                  cases ok
                  obtain ⟨empty, text, same, left⟩ := turn_fills turned
                  exact ⟨.inr rfl, empty, text, same, left⟩
              | icap =>
                  cases ok
                  exact absurd rfl kept
              | tls =>
                  cases ok
                  exact absurd rfl kept
              | passthrough =>
                  cases ok
                  exact absurd rfl kept
  | file header filename =>
      unfold startData at ok
      cases source <;> cases file <;> simp_all [Fills]

end Writer

namespace ClientManager

variable {ρ : Type} {readers : Readers ρ} {manager before after : ClientManager ρ} {sock : Sock}

/-- The condition for a response: it does not fill a buffer of its own for a client that is
already a buffered one, unless what the client sent next closes it at once. -/
def StartsApart (readers : Readers ρ) (manager : ClientManager ρ) (sock : Sock) (reply : Option Reply)
    (remaining : Remaining) (send : Send) (file : Option Str) (recv : List Recv) : Prop :=
  ∀ client content, manager.bysock.lookup sock = some client → reply = some content → sock ∈ manager.buffered →
    client.writer.Fills client.source content send file →
    ∃ yielded reader, readers.readRelated client.reader (parseRemaining remaining).1 (parseRemaining remaining).2 recv =
      (yielded, reader) ∧ (yielded = .closed ∨ ∃ request, yielded = .request request)

theorem startBuffer_names {buffered hadBuffer : Bool} {started : ClientManager ρ}
    (ok : manager.startBuffer sock buffered hadBuffer = .ok started) :
    started.byname = manager.byname ∧ started.nextid = manager.nextid := by
  unfold ClientManager.startBuffer at ok
  split at ok
  · cases ok
    exact ⟨rfl, rfl⟩
  · split at ok
    · split at ok
      · cases ok
        exact ⟨rfl, rfl⟩
      · cases ok
    · cases ok
      exact ⟨rfl, rfl⟩

theorem Kept.starting (kept : manager.Kept) {reply : Option Reply} {remaining : Remaining} {send : Send}
    {file : Option Str} {recv : List Recv} {result : ClientManager ρ × Option Str × Option Source}
    (starting : Starting readers manager sock reply remaining send file recv result)
    (starts : manager.StartsApart readers sock reply remaining send file recv) : result.1.Kept := by
  cases starting with
  | absent => exact kept
  | unanswered => exact kept
  | closed client found => exact kept.cleanup (.inl found)
  | kept client found content valid writer buffered hadBuffer answered yielded reader data read yields started noted =>
      have put := kept.level (put_level found { client with writer, reader } rfl)
      have uncorked := put.level (@uncork_level _ _ sock .readClient)
      have held : sock ∈ (manager.put sock { client with writer, reader }).bysock := (AList.mem_insert _).mpr (.inl rfl)
      refine ⟨uncorked.1.startBuffer held (fun full fresh listed => ?_) noted, ?_⟩
      · subst full fresh
        obtain ⟨other, _, again, closes⟩ :=
          starts client content found valid listed (Writer.startData_fills answered)
        rw [read] at again
        cases again
        rcases yields with rfl | ⟨rfl, _⟩ <;> simp at closes
      · obtain ⟨byname, nextid⟩ := startBuffer_names noted
        exact uncorked.2.alike (startBuffer_alike noted) byname nextid

/-- The operations that the reactor and the supervisor call. -/
inductive Operation where
  | connection (source : Source)
  | passthroughConnection
  | readRequest (sock : Sock) (recv : List Recv)
  | readData (sock : Sock) (recv : List Recv)
  | sendData (sock : Sock) (data : Option Str) (send : Send)
  | startData (sock : Sock) (reply : Option Reply) (remaining : Remaining) (send : Send) (file : Option Str)
      (recv : List Recv)
  | corkUpload (sock : Sock)
  | uncorkUpload (sock : Sock)
  | expire (sock : Sock)

/-- The manager after an operation, or what the code raises. -/
def perform (readers : Readers ρ) (manager : ClientManager ρ) : Operation → Except Raised (ClientManager ρ)
  | .connection source => .ok (manager.connection readers source)
  | .passthroughConnection => .ok (manager.passthroughConnection readers).1
  | .readRequest sock recv => .ok (manager.readRequest readers sock recv).1
  | .readData sock recv => .ok (manager.readData readers sock recv).1
  | .sendData sock data send => (manager.sendData sock data send).map Prod.fst
  | .startData sock reply remaining send file recv =>
      (manager.startData readers sock reply remaining send file recv).map Prod.fst
  | .corkUpload sock => .ok (manager.corkUpload sock)
  | .uncorkUpload sock => .ok (manager.uncorkUpload sock)
  | .expire sock => .ok (manager.expireOne sock).1

/-- The condition under which an operation keeps the registries in agreement. -/
def RegistriesKept (readers : Readers ρ) (manager : ClientManager ρ) : Operation → Prop
  | .startData sock reply remaining send file recv =>
      manager.StartsApart readers sock reply remaining send file recv
  | .connection _ | .passthroughConnection | .readRequest .. | .readData .. | .sendData .. | .corkUpload _
  | .uncorkUpload _ | .expire _ => True

theorem Kept.perform (kept : manager.Kept) {operation : Operation}
    (keeps : manager.RegistriesKept readers operation) (ok : manager.perform readers operation = .ok after) :
    after.Kept := by
  cases operation with
  | connection source =>
      cases ok
      exact ⟨kept.1.connection kept.2 source, kept.2.connection source⟩
  | passthroughConnection =>
      cases ok
      exact ⟨kept.1.passthroughConnection kept.2, kept.2.passthroughConnection⟩
  | readRequest sock recv =>
      cases ok
      exact kept.opening (readRequest_opening recv)
  | readData sock recv =>
      cases ok
      exact kept.reading (readData_reading recv)
  | sendData sock data send =>
      obtain ⟨result, sent, rfl⟩ := map_ok ok
      exact kept.sending (sendData_sending sent)
  | startData sock reply remaining send file recv =>
      obtain ⟨result, started, rfl⟩ := map_ok ok
      exact kept.starting (startData_starting started) keeps
  | corkUpload sock =>
      cases ok
      unfold ClientManager.corkUpload
      split
      · exact kept.level cork_level
      · exact kept
  | uncorkUpload sock =>
      cases ok
      unfold ClientManager.uncorkUpload
      split
      · exact kept.level uncork_level
      · exact kept
  | expire sock =>
      cases ok
      unfold expireOne
      split
      · next client found => exact kept.cleanup (.inr found)
      · exact kept

theorem Kept.initial : Kept ({} : ClientManager ρ) := by
  refine ⟨⟨fun _ held => absurd held (AList.notMem_empty _), fun _ _ => ?_, List.nodup_nil,
    fun _ listed => (nomatch listed), fun _ => ?_, fun _ => ?_, fun _ => ?_⟩,
    fun _ known => absurd known (AList.notMem_empty _), fun _ held => absurd held (AList.notMem_empty _),
    fun _ held => absurd held (AList.notMem_empty _)⟩
  · exact ⟨fun found => (nomatch found), fun found => (nomatch found)⟩
  · exact ⟨fun known => absurd rfl known, fun listed => (nomatch listed)⟩
  · exact ⟨fun known => absurd rfl known, fun held => absurd held (AList.notMem_empty _)⟩
  · exact ⟨fun known => absurd rfl known, fun held => absurd held (AList.notMem_empty _)⟩

/-- A step that meets the condition. -/
def KeptStep (readers : Readers ρ) (before after : ClientManager ρ) : Prop :=
  ∃ operation, before.RegistriesKept readers operation ∧ before.perform readers operation = .ok after

/-- The registries agree in every run in which no response fills a buffer of its own for a
client that is already a buffered one. -/
theorem clients_agree (reached : Reachable (· = ({} : ClientManager ρ)) (KeptStep readers) manager) :
    manager.Agreed := by
  have kept : manager.Kept := by
    refine reached.invariant Kept (fun _ initial => initial ▸ .initial) ?_
    intro before after _ kept ⟨operation, keeps, ok⟩
    exact kept.perform keeps ok
  exact kept.1

/-- The readers where no client comes through a proxy, and none speaks ICAP. -/
def directReaders : Readers (AnyReader Unit) :=
  Client.readers
    { protocol := ⟨fun _ => false, fun _ => false⟩
      httpMaxBuffer := 0
      tlsMaxBuffer := 0
      proxied := fun _ => false }
    ⟨fun _ => (), fun _ _ => (.nothing, ()), fun _ _ _ _ => (.nothing, ())⟩

def pageRequest : Recv := .data (ascii "GET / HTTP/1.1\r\n\r\n")

theorem clients_agree_request : ∃ manager : ClientManager (AnyReader Unit),
    0 ∈ manager.bysock ∧ manager.Agreed := by
  let connected := ({} : ClientManager (AnyReader Unit)).connection directReaders .proxy
  have asked : 0 ∈ (connected.readRequest directReaders 0 [pageRequest]).1.bysock := by decide +kernel
  have start : Reachable (· = {}) (KeptStep directReaders) ({} : ClientManager (AnyReader Unit)) := .start rfl
  have first : Reachable (· = {}) (KeptStep directReaders) connected :=
    start.next ⟨.connection .proxy, trivial, rfl⟩
  exact ⟨_, asked, clients_agree (first.next ⟨.readRequest 0 [pageRequest], trivial, rfl⟩)⟩

/-- A client that has not taken the whole of a page asks for another one, which is a local
file. -/
def fileAfterPage : List Operation :=
  [.connection .proxy, .readRequest 0 [pageRequest],
    .startData 0 (some (.stream (ascii "HTTP/1.1 200 OK"))) (.number 0) .wouldBlock none [],
    .readData 0 [pageRequest],
    .startData 0 (some (.file (ascii "HTTP/1.1 200 OK") (ascii "page.html"))) (.number 0) .wouldBlock
      (some (ascii "page")) []]

theorem buffered_twice : ¬ ∀ manager : ClientManager (AnyReader Unit),
    Reachable (· = {}) (fun before after => ∃ operation, before.perform directReaders operation = .ok after) manager →
    manager.buffered.Nodup := by
  intro nodup
  have twice : ∃ manager ∈ fileAfterPage.foldlM (fun before operation =>
      (before.perform directReaders operation).toOption) ({} : ClientManager (AnyReader Unit)),
      ¬ manager.buffered.Nodup := by decide +kernel
  obtain ⟨manager, followed, repeated⟩ := twice
  have start : Reachable (· = {}) (fun before after => ∃ operation, before.perform directReaders operation = .ok after)
      ({} : ClientManager (AnyReader Unit)) := .start rfl
  refine repeated (nodup manager (start.foldlM (fun before operation after performed => ?_) followed))
  cases ended : before.perform directReaders operation with
  | error raised =>
      rw [ended] at performed
      cases performed
  | ok next =>
      rw [ended] at performed
      cases performed
      exact ⟨operation, ended⟩

end ClientManager

end ExaProxy.Client
