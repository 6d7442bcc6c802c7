import ExaProxy.Resolver.Cleanup

namespace ExaProxy.Resolver

open ExaProxy.Data

/-- The resolver, and the clients that were promised a decision and have none. -/
structure Session (α : Type) where
  manager : ResolverManager α
  pending : Finset ClientId

inductive Event (α : Type) where
  | start (now : Nat) (clientId : ClientId) (command : Str) (decision : Decision α)
  | respond (now : Nat) (allSent : Sock → Bool) (sock : Sock) (result : Option Result)
  | send (sock : Sock)
  | cleanup (now : Nat) (clock : Nat → Nat)
  | expireCache (now : Nat)

namespace Session

variable {α : Type} {session before after : Session α} {event : Event α}

open ResolverManager

def Start (session : Session α) : Prop :=
  ∃ configuration, session = ⟨{ configuration }, ∅⟩

/-- The session after an event; `none` where the code raises or has not ended, and
for a client that starts a lookup while it has one pending. -/
def next (fuel : Nat) (session : Session α) : Event α → Option (Session α)
  | .start now clientId command decision =>
      let (manager, given) := session.manager.startResolving now clientId command decision 1 none
      if clientId ∈ session.pending then none
      else some ⟨manager, enlist session.pending clientId given⟩
  | .respond now allSent sock result =>
      let (manager, response) := session.manager.getResponse now allSent sock result
      if session.manager.unpacksNone sock result then none
      else some ⟨manager, settle session.pending response⟩
  | .send sock =>
      (session.manager.continueSending sock).map fun manager => ⟨manager, session.pending⟩
  | .cleanup now clock =>
      (session.manager.cleanup now clock fuel).map fun (manager, responses) =>
        ⟨manager, settleAll session.pending responses⟩
  | .expireCache now => some ⟨session.manager.expireCache now, session.pending⟩

def Step (before : Session α) (event : Event α) (after : Session α) : Prop :=
  ∃ fuel, before.next fuel event = some after

/-- What must hold before a step for it to lose no lookup. -/
def Keeps (before : Session α) : Event α → Prop
  | .start _ clientId _ _ => before.manager.Free
      (before.manager.worker.wId, nextIdentifier before.manager.worker.drawn) clientId
  | .respond _ _ sock result => before.manager.ResponseKept sock result
  | .cleanup now _ => before.manager.CleanupKept now
  | .send _ | .expireCache _ => True

/-- A step that meets the condition. -/
def KeptStep (before after : Session α) : Prop :=
  ∃ event, before.Keeps event ∧ Step before event after

theorem Step.consistent (consistent : Consistent before.manager.active before.pending before.manager)
    (keeps : before.Keeps event) (stepped : Step before event after) :
    Consistent after.manager.active after.pending after.manager := by
  obtain ⟨fuel, stepped⟩ := stepped
  cases event with
  | start now clientId command decision =>
      simp only [next] at stepped
      split at stepped
      · cases stepped
      · next absent =>
          cases stepped
          exact consistent.startResolving absent now keeps
  | respond now allSent sock result =>
      simp only [next] at stepped
      split at stepped
      · cases stepped
      · cases stepped
        exact consistent.getResponse now allSent sock result keeps
  | send sock =>
      obtain ⟨manager, sent, rfl⟩ := Option.map_eq_some_iff.mp stepped
      obtain ⟨active, kept⟩ := consistent.continueSending sock sent
      exact active.symm ▸ kept
  | cleanup now clock =>
      obtain ⟨⟨manager, responses⟩, ended, rfl⟩ := Option.map_eq_some_iff.mp stepped
      exact (cleanupLoop_kept clock fuel 0 consistent keeps ended).1
  | expireCache now =>
      cases stepped
      have same := expireCache_same before.manager now
      exact same.active.symm ▸ consistent.same same

theorem Start.consistent (started : Start session) :
    Consistent session.manager.active session.pending session.manager := by
  obtain ⟨configuration, rfl⟩ := started
  refine ⟨⟨?_, ?_, ?_⟩, ⟨?_, ?_⟩, rfl, ?_⟩
  · exact fun _ _ known => nomatch known
  · exact fun _ _ stored => nomatch stored
  · exact fun _ member => absurd member (AList.notMem_empty _)
  · exact fun _ _ stored => nomatch stored
  · exact fun _ _ stored => nomatch stored
  · exact fun client => by simp [AList.notMem_empty]

theorem reachable_consistent (reached : Reachable Start KeptStep session) :
    Consistent session.manager.active session.pending session.manager := by
  refine reached.invariant
    (fun session => Consistent session.manager.active session.pending session.manager)
    (fun _ started => started.consistent) ?_
  intro before after _ consistent ⟨event, keeps, stepped⟩
  exact stepped.consistent consistent keeps

/-- The resolver knows what it waits for on behalf of the client: `active` has an
entry, and the key in `clients` is held for the client, or its query is still
being sent. -/
def Tracked (manager : ResolverManager α) (clientId : ClientId) : Prop :=
  (∃ entry ∈ manager.active, entry.clientId = clientId) ∧
    ∃ clidata ∈ manager.clients.lookup clientId,
      (∃ lookup ∈ manager.resolving.lookup (clidata.wId, clidata.identifier),
        lookup.clientId = clientId) ∨
      ∃ sock ∈ manager.sending.keys, ∃ worker ∈ manager.workerOf sock, worker.wId = clidata.wId

/-- No lookup is lost in a run whose steps meet their conditions: a pending
client is tracked, and a `cleanup` at which everything has timed out ends and
answers it or sends its query again. -/
theorem lookups_tracked (reached : Reachable Start KeptStep session) :
    ∀ clientId ∈ session.pending, Tracked session.manager clientId ∧
      ∀ now clock, session.manager.CleanupKept now →
        (∀ entry ∈ session.manager.active,
          (entry.time : Int) ≤ now - session.manager.configuration.timeout) →
        ∃ fuel manager responses,
          session.manager.cleanup now clock fuel = some (manager, responses) ∧
          Attended clock clientId manager responses := by
  have consistent := reachable_consistent reached
  intro clientId member
  have known := (consistent.pending clientId).mp member
  have watched := consistent.watched clientId known
  refine ⟨⟨watched, ?_⟩, fun now clock keeps expired => ?_⟩
  · obtain ⟨clidata, listed⟩ := Option.isSome_iff_exists.mp (AList.lookup_isSome.mpr known)
    obtain ⟨lookup, stored, owner⟩ := consistent.keyed clientId clidata listed
    exact ⟨clidata, listed, .inl ⟨lookup, stored, owner⟩⟩
  · obtain ⟨⟨manager, responses⟩, ended⟩ := cleanupLoop_ends clock
      (session.manager.active.length + session.manager.attempts + 1) 0 consistent keeps (by omega)
    have due : Due _ (session.manager.active.drop 0) clientId :=
      ⟨session.manager.active, List.prefix_rfl, expired, watched⟩
    exact ⟨_, manager, responses, ended,
      (cleanupLoop_kept clock _ 0 consistent keeps ended).2 clientId member (.inl due)⟩

/-- The session after a list of events. -/
def run (fuel : Nat) (session : Session α) (events : List (Event α)) : Option (Session α) :=
  events.foldlM (next fuel) session

theorem run_reached {fuel : Nat} {events : List (Event α)} (ended : run fuel before events = some after)
    (reached : Reachable Start (fun before after => ∃ event, Step before event after) before) :
    Reachable Start (fun before after => ∃ event, Step before event after) after := by
  induction events generalizing before with
  | nil =>
      cases ended
      exact reached
  | cons event events ih =>
      obtain ⟨between, first, rest⟩ := Option.bind_eq_some_iff.mp ended
      exact ih rest (reached.next ⟨event, fuel, first⟩)

instance (manager : ResolverManager α) (clientId : ClientId) :
    Decidable (Tracked manager clientId) :=
  inferInstanceAs (Decidable (_ ∧ ∃ clidata ∈ manager.clients.lookup clientId,
    (∃ lookup ∈ manager.resolving.lookup (clidata.wId, clidata.identifier),
      lookup.clientId = clientId) ∨
    ∃ sock ∈ manager.sending.keys, ∃ worker ∈ manager.workerOf sock, worker.wId = clidata.wId))

/-- The default configuration. -/
def sampleStart : Session Unit := ⟨{ configuration := ⟨2, 10, 900, true, 100⟩ }, ∅⟩

def sampleLookup (clientId : ClientId) : Event Unit :=
  .start 0 clientId (ascii "download") ⟨ascii "a.b", ()⟩

theorem lookups_tracked_first :
    ∃ session ∈ run 1 sampleStart [sampleLookup 1], Tracked session.manager 1 := by
  have waits : ∃ session ∈ run 1 sampleStart [sampleLookup 1], 1 ∈ session.pending := by
    decide +kernel
  obtain ⟨session, ended, pending⟩ := waits
  have started : sampleStart.next 1 (sampleLookup 1) = some session := by simpa [run] using ended
  have keeps : sampleStart.Keeps (sampleLookup 1) := fun _ found => nomatch found
  have reached : Reachable Start KeptStep session :=
    (Reachable.start ⟨_, rfl⟩).next ⟨sampleLookup 1, keeps, 1, started⟩
  exact ⟨session, ended, (lookups_tracked reached 1 pending).1⟩

/-- The answer for the second client was truncated, so that its query goes out
over TCP, as number 1 of a worker; when both have timed out, it is sent again
over UDP, under the number of the first client. -/
def collidingRun : List (Event Unit) :=
  [sampleLookup 1, sampleLookup 2,
    .respond 0 (fun _ => true) 0
      (some ⟨some 2, some (ascii "a.b"), some (ascii "10.0.0.1"), false, none⟩),
    .cleanup 10 fun _ => 10]

theorem lookup_lost : ¬ ∀ session : Session Unit,
    Reachable Start (fun before after => ∃ event, Step before event after) session →
    ∀ clientId ∈ session.pending, Tracked session.manager clientId := by
  intro tracked
  have lost : ∃ session ∈ run 5 sampleStart collidingRun,
      1 ∈ session.pending ∧ ¬ Tracked session.manager 1 := by decide +kernel
  obtain ⟨session, ended, pending, untracked⟩ := lost
  exact untracked (tracked session (run_reached ended (.start ⟨_, rfl⟩)) 1 pending)

end Session

end ExaProxy.Resolver
