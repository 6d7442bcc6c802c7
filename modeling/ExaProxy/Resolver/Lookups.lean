import ExaProxy.Data.Transition
import ExaProxy.Resolver.Manager

namespace ExaProxy.Resolver

open ExaProxy.Data

/-! What keeps a lookup from being lost.  A lookup is filed under one key in
`resolving`, the key stands in `clients`, and an entry of `active` makes
`cleanup` look at it. -/

namespace ResolverManager

variable {α : Type} {manager after : ResolverManager α} {watched others : List Active}
  {clientId : ClientId} {clidata : ClientData} {lookup : Lookup α}

/-- The clients and the lookups are filed under the same keys, and `watched`
has an entry for every client. -/
structure Filed (watched : List Active) (manager : ResolverManager α) : Prop where
  keyed : ∀ clientId clidata, manager.clients.lookup clientId = some clidata →
    ∃ lookup, manager.resolving.lookup (clidata.wId, clidata.identifier) = some lookup ∧
      lookup.clientId = clientId
  held : ∀ key lookup, manager.resolving.lookup key = some lookup →
    ∃ clidata, manager.clients.lookup lookup.clientId = some clidata ∧
      (clidata.wId, clidata.identifier) = key
  watched : ∀ clientId ∈ manager.clients, ∃ entry ∈ watched, entry.clientId = clientId

theorem Filed.absent (filed : Filed watched manager) (absent : clientId ∉ manager.clients)
    {key : Nat × Nat} (found : manager.resolving.lookup key = some lookup) :
    lookup.clientId ≠ clientId := by
  obtain ⟨clidata, known, _⟩ := filed.held key lookup found
  intro same
  rw [same] at known
  exact absent (lookup_mem known)

/-- The lookup is filed under the key, and `active` has one more entry for it. -/
structure Tracks (clidata : ClientData) (entry : Active) (lookup : Lookup α)
    (before after : ResolverManager α) : Prop where
  clients : after.clients = before.clients.insert lookup.clientId clidata
  resolving : after.resolving =
    before.resolving.insert (clidata.wId, clidata.identifier) lookup
  owner : entry.clientId = lookup.clientId
  active : after.active = before.active ++ [entry]
  sending : ∀ sock stored, after.sending.lookup sock = some stored →
    before.sending.lookup sock = some stored ∨
      stored.command = lookup.command ∧ stored.decision = lookup.decision
  configuration : after.configuration = before.configuration
  waiting : after.waiting = before.waiting

theorem track_tracks (manager : ResolverManager α) (wId identifier now resolveCount : Nat)
    (socket : Sock) (lookup : Lookup α) :
    Tracks ⟨wId, identifier, now, resolveCount⟩ ⟨now, lookup.clientId, socket⟩ lookup manager
      (manager.track wId identifier now resolveCount socket lookup) :=
  ⟨rfl, rfl, rfl, rfl, fun _ _ stored => .inl stored, rfl, rfl⟩

theorem Filed.track (filed : Filed watched manager) (absent : lookup.clientId ∉ manager.clients)
    {entry : Active} (free : (clidata.wId, clidata.identifier) ∉ manager.resolving)
    (tracks : Tracks clidata entry lookup manager after) :
    Filed (watched ++ [entry]) after := by
  have clients := tracks.clients
  refine ⟨?_, ?_, ?_⟩
  · intro client entry known
    simp only [clients, tracks.resolving, lookup_insert_iff] at known ⊢
    rcases known with ⟨rfl, rfl⟩ | ⟨other, known⟩
    · exact ⟨lookup, .inl ⟨rfl, rfl⟩, rfl⟩
    · obtain ⟨found, stored, same⟩ := filed.keyed client entry known
      refine ⟨found, .inr ⟨?_, stored⟩, same⟩
      intro key
      rw [key] at stored
      exact free (lookup_mem stored)
  · intro key found stored
    simp only [clients, tracks.resolving, lookup_insert_iff] at stored ⊢
    rcases stored with ⟨rfl, rfl⟩ | ⟨other, stored⟩
    · exact ⟨clidata, .inl ⟨rfl, rfl⟩, rfl⟩
    · obtain ⟨entry, known, same⟩ := filed.held key found stored
      exact ⟨entry, .inr ⟨filed.absent absent stored, known⟩, same⟩
  · intro client member
    rw [clients] at member
    rcases (AList.mem_insert manager.clients).mp member with rfl | earlier
    · exact ⟨entry, by simp, tracks.owner⟩
    · obtain ⟨entry, listed, same⟩ := filed.watched client earlier
      exact ⟨entry, List.mem_append_left _ listed, same⟩

theorem Filed.forget (filed : Filed watched manager)
    (known : manager.clients.lookup clientId = some clidata)
    (clients : after.clients = manager.clients.erase clientId)
    (resolving : after.resolving = manager.resolving.erase (clidata.wId, clidata.identifier))
    (kept : ∀ entry ∈ watched, entry.clientId ≠ clientId → entry ∈ others) :
    Filed others after := by
  obtain ⟨own, ownStored, ownClient⟩ := filed.keyed clientId clidata known
  refine ⟨?_, ?_, ?_⟩
  · intro client entry listed
    rw [clients, lookup_erase_iff] at listed
    obtain ⟨found, stored, same⟩ := filed.keyed client entry listed.2
    refine ⟨found, ?_, same⟩
    rw [resolving, lookup_erase_iff]
    refine ⟨fun key => listed.1 ?_, stored⟩
    rw [key, ownStored] at stored
    cases stored
    rw [← same, ownClient]
  · intro key found stored
    rw [resolving, lookup_erase_iff] at stored
    obtain ⟨entry, listed, same⟩ := filed.held key found stored.2
    refine ⟨entry, ?_, same⟩
    rw [clients, lookup_erase_iff]
    refine ⟨fun client => stored.1 ?_, listed⟩
    rw [client, known] at listed
    cases listed
    exact same.symm
  · intro client member
    rw [clients, AList.mem_erase] at member
    obtain ⟨entry, listed, same⟩ := filed.watched client member.2
    exact ⟨entry, kept entry listed (same ▸ member.1), same⟩

theorem Filed.congr (filed : Filed watched manager) (clients : after.clients = manager.clients)
    (resolving : after.resolving = manager.resolving) : Filed watched after := by
  refine ⟨?_, ?_, ?_⟩
  · simpa only [clients, resolving] using filed.keyed
  · simpa only [clients, resolving] using filed.held
  · simpa only [clients] using filed.watched

/-- A query can be sent for a lookup whenever it is asked for: its host is not
refused. -/
def Askable (manager : ResolverManager α) (command : Str) (decision : Decision α) : Prop :=
  ∃ hostname, extractHostname command decision = some hostname ∧ manager.refusal hostname = none

/-- Every lookup that is known to the tables can be asked again. -/
structure Repeatable (manager : ResolverManager α) : Prop where
  resolving : ∀ key lookup, manager.resolving.lookup key = some lookup →
    manager.Askable lookup.command lookup.decision
  sending : ∀ sock lookup, manager.sending.lookup sock = some lookup →
    manager.Askable lookup.command lookup.decision

/-- The key is not held for another client. -/
def Free (manager : ResolverManager α) (key : Nat × Nat) (clientId : ClientId) : Prop :=
  ∀ lookup, manager.resolving.lookup key = some lookup → lookup.clientId = clientId

theorem Filed.free_absent (filed : Filed watched manager) (absent : clientId ∉ manager.clients)
    {key : Nat × Nat} (free : manager.Free key clientId) : key ∉ manager.resolving := by
  intro present
  obtain ⟨lookup, found⟩ := Option.isSome_iff_exists.mp (AList.lookup_isSome.mpr present)
  exact filed.absent absent found (free lookup found)

/-- The tables of `manager` agree, no lookup waits for a TCP worker, and the
clients that have an entry are the pending ones. -/
structure Consistent (watched : List Active) (pending : Finset ClientId)
    (manager : ResolverManager α) : Prop extends Filed watched manager, Repeatable manager where
  waiting : manager.waiting = []
  pending : ∀ clientId, clientId ∈ pending ↔ clientId ∈ manager.clients

variable {pending : Finset ClientId}

theorem Askable.congr {command : Str} {decision : Decision α}
    (askable : manager.Askable command decision)
    (configuration : after.configuration = manager.configuration) :
    after.Askable command decision := by
  obtain ⟨hostname, extracted, accepted⟩ := askable
  exact ⟨hostname, extracted, by rw [refusal, configuration]; exact accepted⟩

theorem Consistent.track (consistent : Consistent watched pending manager)
    {entry : Active} (tracks : Tracks clidata entry lookup manager after)
    (absent : lookup.clientId ∉ pending)
    (free : manager.Free (clidata.wId, clidata.identifier) lookup.clientId)
    (askable : manager.Askable lookup.command lookup.decision) :
    Consistent (watched ++ [entry]) (insert lookup.clientId pending) after := by
  have unknown : lookup.clientId ∉ manager.clients := fun member =>
    absent ((consistent.pending lookup.clientId).mpr member)
  refine ⟨consistent.toFiled.track unknown (consistent.free_absent unknown free) tracks, ⟨?_, ?_⟩,
    tracks.waiting.trans consistent.waiting, ?_⟩
  · intro key stored found
    rw [tracks.resolving, lookup_insert_iff] at found
    refine Askable.congr ?_ tracks.configuration
    rcases found with ⟨_, rfl⟩ | ⟨_, found⟩
    · exact askable
    · exact consistent.resolving key stored found
  · intro sock stored found
    refine Askable.congr ?_ tracks.configuration
    rcases tracks.sending sock stored found with earlier | ⟨command, decision⟩
    · exact consistent.sending sock stored earlier
    · rw [command, decision]
      exact askable
  · intro client
    have clients := tracks.clients
    rw [Finset.mem_insert, clients, AList.mem_insert, consistent.pending]

theorem Consistent.forget (consistent : Consistent watched pending manager)
    (known : manager.clients.lookup clientId = some clidata)
    (clients : after.clients = manager.clients.erase clientId)
    (resolving : after.resolving = manager.resolving.erase (clidata.wId, clidata.identifier))
    (sending : after.sending = manager.sending)
    (configuration : after.configuration = manager.configuration)
    (waiting : after.waiting = manager.waiting)
    (kept : ∀ entry ∈ watched, entry.clientId ≠ clientId → entry ∈ others) :
    Consistent others (pending.erase clientId) after := by
  refine ⟨consistent.toFiled.forget known clients resolving kept, ⟨?_, ?_⟩,
    waiting.trans consistent.waiting, ?_⟩
  · intro key stored found
    rw [resolving, lookup_erase_iff] at found
    exact (consistent.resolving key stored found.2).congr configuration
  · intro sock stored found
    rw [sending] at found
    exact (consistent.sending sock stored found).congr configuration
  · intro client
    rw [Finset.mem_erase, clients, AList.mem_erase, consistent.pending]

theorem Consistent.refile (consistent : Consistent watched pending manager)
    (known : manager.clients.lookup lookup.clientId = some clidata)
    (askable : manager.Askable lookup.command lookup.decision)
    (clients : after.clients = manager.clients)
    (resolving : after.resolving =
      manager.resolving.insert (clidata.wId, clidata.identifier) lookup)
    (sending : ∀ sock stored, after.sending.lookup sock = some stored →
      manager.sending.lookup sock = some stored)
    (configuration : after.configuration = manager.configuration)
    (waiting : after.waiting = manager.waiting) : Consistent watched pending after := by
  refine ⟨⟨?_, ?_, by simpa only [clients] using consistent.watched⟩, ⟨?_, ?_⟩,
    waiting.trans consistent.waiting, by simpa only [clients] using consistent.pending⟩
  · intro client entry listed
    rw [clients] at listed
    obtain ⟨found, stored, same⟩ := consistent.keyed client entry listed
    by_cases key : (entry.wId, entry.identifier) = (clidata.wId, clidata.identifier)
    · obtain ⟨own, ownStored, ownClient⟩ := consistent.keyed _ _ known
      rw [key, ownStored] at stored
      cases stored
      exact ⟨lookup, by rw [resolving, key, AList.lookup_insert], ownClient.symm.trans same⟩
    · exact ⟨found, by rw [resolving, AList.lookup_insert_ne key, stored], same⟩
  · intro key found stored
    rw [resolving, lookup_insert_iff] at stored
    rw [clients]
    rcases stored with ⟨rfl, rfl⟩ | ⟨_, stored⟩
    · exact ⟨clidata, known, rfl⟩
    · exact consistent.held key found stored
  · intro key found stored
    rw [resolving, lookup_insert_iff] at stored
    refine Askable.congr ?_ configuration
    rcases stored with ⟨_, rfl⟩ | ⟨_, stored⟩
    · exact askable
    · exact consistent.resolving key found stored
  · intro sock found stored
    exact (consistent.sending sock found (sending sock found stored)).congr configuration

/-- Nothing that concerns a lookup differs. -/
structure Same (before after : ResolverManager α) : Prop where
  configuration : after.configuration = before.configuration
  clients : after.clients = before.clients
  resolving : after.resolving = before.resolving
  sending : after.sending = before.sending
  active : after.active = before.active
  waiting : after.waiting = before.waiting

theorem same_refl (manager : ResolverManager α) : manager.Same manager :=
  ⟨rfl, rfl, rfl, rfl, rfl, rfl⟩

theorem Same.trans {before between after : ResolverManager α} (first : before.Same between)
    (second : between.Same after) : before.Same after :=
  ⟨second.configuration.trans first.configuration, second.clients.trans first.clients,
    second.resolving.trans first.resolving, second.sending.trans first.sending,
    second.active.trans first.active, second.waiting.trans first.waiting⟩

theorem Consistent.same (consistent : Consistent watched pending manager)
    (same : manager.Same after) : Consistent watched pending after := by
  refine ⟨consistent.congr same.clients same.resolving, ⟨?_, ?_⟩,
    same.waiting.trans consistent.waiting, ?_⟩
  · intro key stored found
    rw [same.resolving] at found
    exact (consistent.resolving key stored found).congr same.configuration
  · intro sock stored found
    rw [same.sending] at found
    exact (consistent.sending sock stored found).congr same.configuration
  · intro client
    rw [same.clients, consistent.pending]

theorem putWorker_same (manager : ResolverManager α) (worker : Worker) : manager.Same (manager.putWorker worker) := by
  unfold putWorker
  split <;> exact ⟨rfl, rfl, rfl, rfl, rfl, rfl⟩

theorem cacheDestination_same (manager : ResolverManager α) (now : Nat) (hostname ip : Str) :
    manager.Same (manager.cacheDestination now hostname ip) := by
  unfold cacheDestination
  split
  · exact same_refl manager
  · exact ⟨rfl, rfl, rfl, rfl, rfl, rfl⟩

theorem expireCache_same (manager : ResolverManager α) (now : Nat) : manager.Same (manager.expireCache now) := by
  unfold expireCache
  split
  · exact same_refl manager
  · split
    · exact ⟨rfl, rfl, rfl, rfl, rfl, rfl⟩
    · exact same_refl manager

theorem notifyClose_same (idle : manager.waiting = []) (now : Nat) (allSent : Sock → Bool) :
    manager.Same (manager.notifyClose now allSent) := by
  have still : ∀ count (m : ResolverManager α), m.waiting = [] →
      (fun m : ResolverManager α => m.startWaiting now allSent)^[count] m = m := by
    intro count
    induction count with
    | zero => exact fun _ _ => rfl
    | succ count ih =>
        intro m empty
        have unchanged : m.startWaiting now allSent = m := by rw [startWaiting, empty]
        rw [Function.iterate_succ_apply, unchanged, ih m empty]
  unfold notifyClose
  dsimp only
  split
  · rw [still _ { manager with workerCount := manager.workerCount - 1 } idle]
    exact ⟨rfl, rfl, rfl, rfl, rfl, rfl⟩
  · exact ⟨rfl, rfl, rfl, rfl, rfl, rfl⟩

theorem closeWorker_same (idle : manager.waiting = []) (sock : Sock) (now : Nat)
    (allSent : Sock → Bool) : manager.Same (manager.closeWorker sock now allSent) := by
  have erased : manager.Same { manager with
      reading := manager.reading.erase sock
      writing := manager.writing.erase sock
      workers := manager.workers.erase sock } := ⟨rfl, rfl, rfl, rfl, rfl, rfl⟩
  exact erased.trans (notifyClose_same (erased.waiting.trans idle) now allSent)

end ResolverManager

end ExaProxy.Resolver
