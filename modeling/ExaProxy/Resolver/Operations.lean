import ExaProxy.Resolver.Runs

namespace ExaProxy.Resolver

open ExaProxy.Data

namespace ResolverManager

variable {α : Type} {manager after : ResolverManager α} {now : Nat} {allSent : Sock → Bool} {sock : Sock}
  {entry : Active} {clidata : ClientData} {cutoff : Int} {P : ResolverManager α → Prop}

/-- A lookup of this command and decision stands in a table, or waits. -/
inductive Known (manager : ResolverManager α) : Str → Decision α → Prop where
  | resolving {key : Nat × Nat} {lookup : Lookup α} (found : manager.resolving.lookup key = some lookup) :
      Known manager lookup.command lookup.decision
  | sending {sock : Sock} {lookup : Lookup α} (found : manager.sending.lookup sock = some lookup) :
      Known manager lookup.command lookup.decision
  | waiting {waiting : Waiting α} (listed : waiting ∈ manager.waiting) :
      Known manager waiting.command waiting.decision

/-- The lookups of `after` are ones of `before`. -/
def Narrower (before after : ResolverManager α) : Prop :=
  ∀ command decision, after.Known command decision → before.Known command decision

theorem Narrower.refl (manager : ResolverManager α) : Narrower manager manager := fun _ _ known => known

theorem Narrower.trans {before between after : ResolverManager α} (first : Narrower before between)
    (second : Narrower between after) : Narrower before after :=
  fun command decision known => first command decision (second command decision known)

theorem narrower_of_tables {before after : ResolverManager α}
    (resolving : ∀ key lookup, after.resolving.lookup key = some lookup →
      before.Known lookup.command lookup.decision)
    (sending : ∀ sock lookup, after.sending.lookup sock = some lookup →
      before.Known lookup.command lookup.decision)
    (waiting : ∀ waiting ∈ after.waiting, before.Known waiting.command waiting.decision) :
    Narrower before after := by
  intro command decision known
  cases known with
  | resolving found => exact resolving _ _ found
  | sending found => exact sending _ _ found
  | waiting listed => exact waiting _ listed

theorem narrower_of_eq {before after : ResolverManager α} (resolving : after.resolving = before.resolving)
    (sending : after.sending = before.sending) (waiting : after.waiting = before.waiting) :
    Narrower before after := by
  refine narrower_of_tables (fun key lookup found => ?_) (fun sock lookup found => ?_) fun waiter listed => ?_
  · exact .resolving (resolving ▸ found)
  · exact .sending (sending ▸ found)
  · exact .waiting (waiting ▸ listed)

theorem Same.narrower (same : manager.Same after) : Narrower manager after :=
  narrower_of_eq same.resolving same.sending same.waiting

theorem Tracks.known {before : ResolverManager α} {lookup : Lookup α} {command : Str} {decision : Decision α}
    (tracks : Tracks clidata entry lookup before after) (known : after.Known command decision) :
    before.Known command decision ∨ command = lookup.command ∧ decision = lookup.decision := by
  cases known with
  | resolving found =>
      rw [tracks.resolving, lookup_insert_iff] at found
      rcases found with ⟨_, rfl⟩ | ⟨_, earlier⟩
      · exact .inr ⟨rfl, rfl⟩
      · exact .inl (.resolving earlier)
  | sending found =>
      rcases tracks.sending _ _ found with earlier | same
      · exact .inl (.sending earlier)
      · exact .inr same
  | waiting listed => exact .inl (.waiting (tracks.waiting ▸ listed))

theorem getResponse_cases {result : Option Result}
    (unknown : manager.workerOf sock = none ∨ result = none → P manager)
    (unreadable : ∀ worker, manager.workerOf sock = some worker → result = none →
      sock ≠ manager.worker.socket → P (manager.closeWorker sock now allSent))
    (ignored : ∀ worker parsed, manager.workerOf sock = some worker → result = some parsed →
      manager.answered worker parsed = none → P (manager.receive worker parsed))
    (acted : ∀ worker parsed identifier lookup, manager.workerOf sock = some worker → result = some parsed →
      manager.answered worker parsed = some (identifier, lookup) →
      let received := manager.receive worker parsed
      let answered := (received.popLookup sock lookup).answer now allSent worker parsed identifier
        (followUp worker parsed) lookup (received.clients.lookup lookup.clientId)
      P answered.1 ∧ (answered.2 ≠ none → sock ≠ manager.worker.socket →
        P (answered.1.closeWorker sock now allSent))) :
    P (manager.getResponse now allSent sock result).1 := by
  unfold getResponse
  cases known : manager.workerOf sock with
  | none => exact unknown (.inl known)
  | some worker =>
      cases result with
      | none =>
          simp only
          split
          · exact unknown (.inr rfl)
          · next other => exact unreadable worker known rfl other
      | some parsed =>
          simp only
          cases found : manager.answered worker parsed with
          | none => exact ignored worker parsed known rfl found
          | some data =>
              obtain ⟨identifier, lookup⟩ := data
              obtain ⟨kept, closed⟩ := acted worker parsed identifier lookup known rfl found
              simp only
              split
              · exact kept
              · next response given =>
                  split
                  · exact kept
                  · next other => exact closed (by simp [given]) other

theorem answer_cases {worker : Worker} {result : Result} {identifier : Nat} {newidentifier : Option Nat}
    {lookup : Lookup α} {clidata : Option ClientData}
    (followed : ∀ number newhost newcomplete, result.completed = true → newidentifier = some number →
      result.followUp = some (newhost, newcomplete) →
      let tracked := manager.track worker.wId number now 1 worker.socket { lookup with hostname := newhost }
      P (if newcomplete then tracked.expectAnswer worker.socket else tracked.expectWrite worker.socket lookup))
    (refiled : ∀ client, result.completed = true → (newidentifier = none ∨ result.followUp = none) →
      result.forhost ≠ some lookup.hostname → clidata = some client →
      P (manager.track worker.wId identifier now client.resolveCount worker.socket lookup))
    (resolved : ∀ ip, (newidentifier = none ∨ result.followUp = none) →
      P (manager.cacheDestination now lookup.original ip))
    (given : newidentifier = none ∨ result.followUp = none → P manager)
    (truncated : result.completed = false →
      P (manager.beginResolvingTCP now allSent lookup.clientId lookup.command lookup.decision 1).1) :
    P (manager.answer now allSent worker result identifier newidentifier lookup clidata).1 := by
  unfold answer
  split
  · next completed =>
      split
      · next number newhost newcomplete query =>
          have tracked := followed number newhost newcomplete completed rfl query
          cases newcomplete with
          | true => exact tracked
          | false => exact tracked
      · next drawn _ _ unasked =>
          have silent : drawn = none ∨ result.followUp = none := by
            refine or_iff_not_imp_left.mpr fun filled => ?_
            obtain ⟨number, given⟩ := Option.ne_none_iff_exists'.mp filled
            exact Option.eq_none_iff_forall_ne_some.mpr fun query => unasked number query.1 query.2 given
          split
          · next other =>
              cases client : clidata with
              | none => exact given silent
              | some data => exact refiled data completed silent other client
          · cases result.ip with
            | none => exact given silent
            | some ip => exact resolved ip silent
  · next truncated' => exact truncated (by simpa using truncated')

/-- A lookup that is answered has no follow-up, and the answer is for its host; the tables
stay as they are. -/
theorem answer_given {worker : Worker} {result : Result} {identifier : Nat} {newidentifier : Option Nat}
    {lookup : Lookup α} {clidata : Option ClientData}
    (given : (manager.answer now allSent worker result identifier newidentifier lookup clidata).2 ≠ none) :
    (result.completed = true ∧ (newidentifier = none ∨ result.followUp = none) ∧
        result.forhost = some lookup.hostname) ∧
      (manager.answer now allSent worker result identifier newidentifier lookup clidata).1.workers =
        manager.workers ∧
      (manager.answer now allSent worker result identifier newidentifier lookup clidata).1.waiting =
        manager.waiting ∧
      (manager.answer now allSent worker result identifier newidentifier lookup clidata).1.chained =
        manager.chained := by
  revert given
  unfold answer
  split
  · next completed =>
      split
      · dsimp only
        split <;> exact fun given => absurd rfl given
      · next newidentifier _ _ other =>
          have silent : newidentifier = none ∨ result.followUp = none := by
            cases number : newidentifier with
            | none => exact .inl rfl
            | some number' =>
                cases asked : result.followUp with
                | none => exact .inr rfl
                | some query => exact absurd asked (other number' query.1 query.2 number)
          split
          · split <;> exact fun given => absurd rfl given
          · next right =>
              have own := not_not.mp right
              split
              · intro _
                refine ⟨⟨completed, silent, own⟩, ?_⟩
                unfold cacheDestination
                dsimp only
                split <;> exact ⟨rfl, rfl, rfl⟩
              · exact fun _ => ⟨⟨completed, silent, own⟩, rfl, rfl, rfl⟩
  · exact fun given => absurd rfl given

theorem continueSending_known (sent : manager.continueSending sock = some after) : Narrower manager after := by
  unfold continueSending at sent
  split at sent
  · cases sent
  · split at sent
    · cases sent
      exact narrower_of_eq rfl rfl rfl
    · next lookup stored =>
        split at sent
        · cases sent
          exact narrower_of_eq rfl rfl rfl
        · cases sent
          refine narrower_of_tables (fun key found present => ?_) (fun other found present => ?_) fun _ listed =>
            .waiting listed
          · rcases lookup_insert_iff.mp present with ⟨_, rfl⟩ | ⟨_, earlier⟩
            · exact .sending stored
            · exact .resolving earlier
          · exact .sending (lookup_erase_iff.mp present).2

/-- What `cleanup` takes out of the tables for an entry whose client is known. -/
def takeOut (manager : ResolverManager α) (entry : Active) (clidata : ClientData) :
    ResolverManager α × Option (Lookup α) :=
  let forgotten := { manager with clients := manager.clients.erase entry.clientId }
  match manager.resolving.lookup (clidata.wId, clidata.identifier) with
  | some data =>
      ({ forgotten with
        resolving := manager.resolving.erase (clidata.wId, clidata.identifier) }, some data)
  | none =>
      ({ forgotten with sending := manager.sending.erase entry.socket }, manager.sending.lookup entry.socket)

/-- `worker.close()` in `cleanup`, where the slot is not given back. -/
def dismiss (manager : ResolverManager α) (entry : Active) : ResolverManager α :=
  if entry.socket = manager.worker.socket then manager
  else { manager with workers := manager.workers.erase entry.socket }

theorem expire_cases (unknown : P (manager.dismiss entry))
    (dropped : ∀ clidata, manager.clients.lookup entry.clientId = some clidata →
      P ((manager.takeOut entry clidata).1.dismiss entry))
    (retried : ∀ clidata lookup, manager.clients.lookup entry.clientId = some clidata →
      (manager.takeOut entry clidata).2 = some lookup → manager.Retried entry clidata →
      P ((manager.takeOut entry clidata).1.startResolving now lookup.clientId lookup.command lookup.decision
        (clidata.resolveCount + 1) (some clidata.identifier)).1) :
    P (manager.expire now entry).1 := by
  cases known : manager.clients.lookup entry.clientId with
  | none =>
      simp only [expire, known]
      exact unknown
  | some clidata =>
      have dropped := dropped clidata known
      have retried := fun lookup => retried clidata lookup known
      cases stored : manager.resolving.lookup (clidata.wId, clidata.identifier) with
      | some lookup =>
          simp only [takeOut, stored] at dropped retried
          simp only [expire, known, stored]
          split
          · next again => exact retried lookup rfl again
          · exact dropped
      | none =>
          simp only [takeOut, stored] at dropped retried
          simp only [expire, known, stored]
          cases unsent : manager.sending.lookup entry.socket with
          | none => exact dropped
          | some lookup =>
              simp only
              split
              · next again => exact retried lookup unsent again
              · exact dropped

theorem takeOut_active (manager : ResolverManager α) (entry : Active) (clidata : ClientData) :
    (manager.takeOut entry clidata).1.active = manager.active := by
  unfold takeOut
  dsimp only
  split <;> rfl

theorem dismiss_active (manager : ResolverManager α) (entry : Active) :
    (manager.dismiss entry).active = manager.active := by
  unfold dismiss
  split <;> rfl

theorem takeOut_worker (manager : ResolverManager α) (entry : Active) (clidata : ClientData) :
    (manager.takeOut entry clidata).1.worker = manager.worker := by
  unfold takeOut
  dsimp only
  split <;> rfl

theorem startResolving_active (manager : ResolverManager α) (now resolveCount : Nat) (clientId : ClientId)
    (command : Str) (decision : Decision α) (identifier : Option Nat) : ∃ added,
    (manager.startResolving now clientId command decision resolveCount identifier).1.active =
      manager.active ++ added ∧ ∀ entry ∈ added, entry.socket = manager.worker.socket := by
  unfold startResolving
  split
  · exact ⟨[], (List.append_nil _).symm, fun _ listed => nomatch listed⟩
  · split
    · exact ⟨[], (List.append_nil _).symm, fun _ listed => nomatch listed⟩
    · cases identifier with
      | some identifier => exact ⟨_, rfl, fun _ listed => by rw [List.mem_singleton.mp listed]⟩
      | none => exact ⟨_, rfl, fun _ listed => by rw [List.mem_singleton.mp listed]⟩

theorem expire_active (manager : ResolverManager α) (now : Nat) (entry : Active) : ∃ added,
    (manager.expire now entry).1.active = manager.active ++ added ∧
      ∀ entry ∈ added, entry.socket = manager.worker.socket := by
  refine expire_cases (P := fun after => ∃ added, after.active = manager.active ++ added ∧
    ∀ entry ∈ added, entry.socket = manager.worker.socket) ?_ ?_ ?_
  · exact ⟨[], by rw [dismiss_active, List.append_nil], fun _ listed => nomatch listed⟩
  · intro clidata _
    exact ⟨[], by rw [dismiss_active, takeOut_active, List.append_nil], fun _ listed => nomatch listed⟩
  · intro clidata lookup _ _ _
    obtain ⟨added, active, sockets⟩ := startResolving_active (manager.takeOut entry clidata).1 now
      (clidata.resolveCount + 1) lookup.clientId lookup.command lookup.decision (some clidata.identifier)
    rw [takeOut_active] at active
    rw [takeOut_worker] at sockets
    exact ⟨added, active, sockets⟩

/-- The rule for the loop of `cleanup`: what holds of the manager and of the entries that
are left is kept by every turn. -/
theorem cleanupLoop_rule {Q : List Active → ResolverManager α → Prop} {clock : Nat → Nat} {fuel count : Nat}
    {responses : List (ClientId × Response α)}
    (turn : ∀ manager now entry rest added, (entry.time : Int) ≤ cutoff → Q (entry :: rest) manager →
      (manager.expire now entry).1.active = manager.active ++ added →
      (∀ entry ∈ added, entry.socket = manager.worker.socket) → Q (rest ++ added) (manager.expire now entry).1)
    (holds : Q (manager.active.drop count) manager)
    (ended : manager.cleanupLoop clock cutoff fuel count = some (after, responses)) :
    ∃ left last, Q left last ∧ after = { last with active := left } := by
  induction fuel generalizing count manager responses with
  | zero => simp only [cleanupLoop, reduceCtorEq] at ended
  | succ fuel ih =>
      rcases cleanupLoop_cases ended with ⟨rfl, _, _⟩ | ⟨entry, later, next, timedOut, rest, _⟩
      · exact ⟨_, manager, holds, rfl⟩
      · rw [drop_next next] at holds
        obtain ⟨added, active, sockets⟩ := expire_active manager (clock count) entry
        have kept := turn manager (clock count) entry _ added timedOut holds active sockets
        exact ih (drop_added next active ▸ kept) rest

/-- The rule for a slot that is given back: what every lookup that gets one keeps. -/
theorem notifyClose_rule (starts : ∀ m : ResolverManager α, P m → P (m.startWaiting now allSent))
    (closed : P { manager with workerCount := manager.workerCount - 1 }) : P (manager.notifyClose now allSent) := by
  have started : ∀ count (m : ResolverManager α), P m → P ((fun m : ResolverManager α =>
      m.startWaiting now allSent)^[count] m) := by
    intro count
    induction count with
    | zero => exact fun _ holds => holds
    | succ count ih =>
        intro m holds
        rw [Function.iterate_succ_apply']
        exact starts _ (ih m holds)
  unfold notifyClose
  dsimp only
  split
  · exact started _ _ closed
  · exact closed

/-- The manager after an operation; `none` where the code raises or has not ended. -/
def handle (fuel : Nat) (manager : ResolverManager α) : Event α → Option (ResolverManager α)
  | .start now clientId command decision =>
      some (manager.startResolving now clientId command decision 1 none).1
  | .respond now allSent sock result =>
      if manager.unpacksNone sock result then none
      else some (manager.getResponse now allSent sock result).1
  | .send sock => manager.continueSending sock
  | .cleanup now clock => (manager.cleanup now clock fuel).map Prod.fst
  | .expireCache now => some (manager.expireCache now)

def Start (manager : ResolverManager α) : Prop := ∃ configuration, manager = { configuration }

end ResolverManager

end ExaProxy.Resolver
