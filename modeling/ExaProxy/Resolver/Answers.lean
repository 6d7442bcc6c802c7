import ExaProxy.Resolver.Lookups

namespace ExaProxy.Resolver

open ExaProxy.Data

namespace ResolverManager

variable {α : Type} {manager after : ResolverManager α} {watched : List Active}
  {pending : Finset ClientId} {clientId : ClientId} {command : Str} {decision : Decision α}

/-- A query for a host that is not refused is filed, under the identifier that
is given or drawn. -/
theorem startResolving_tracks (manager : ResolverManager α) (clientId : ClientId)
    (now resolveCount : Nat) (identifier : Option Nat) {hostname : Str}
    (extracted : extractHostname command decision = some hostname)
    (asked : manager.shortcut hostname command decision identifier.isNone = none) :
    Tracks ⟨manager.worker.wId, (manager.resolveHost identifier).2, now, resolveCount⟩
      ⟨now, clientId, manager.worker.socket⟩ ⟨clientId, hostname, hostname, command, decision⟩
      manager
      (manager.startResolving now clientId command decision resolveCount identifier).1 := by
  simp only [startResolving, extracted, asked]
  cases identifier with
  | none => exact ⟨rfl, rfl, rfl, rfl, fun _ _ stored => .inl stored, rfl, rfl⟩
  | some identifier =>
      exact ⟨rfl, rfl, rfl, rfl, fun _ _ stored => .inl stored, rfl, rfl⟩

theorem startResolving_again_worker (manager : ResolverManager α) (clientId : ClientId)
    (command : Str) (decision : Decision α) (now resolveCount identifier : Nat) :
    (manager.startResolving now clientId command decision resolveCount
      (some identifier)).1.worker = manager.worker := by
  unfold startResolving
  split
  · rfl
  · split <;> rfl

section Tracks

variable {before : ResolverManager α} {clidata : ClientData} {entry : Active} {lookup : Lookup α}

theorem Tracks.expectAnswer (tracks : Tracks clidata entry lookup before after)
    (sock : Sock) : Tracks clidata entry lookup before (after.expectAnswer sock) :=
  ⟨tracks.clients, tracks.resolving, tracks.owner, tracks.active, tracks.sending,
    tracks.configuration, tracks.waiting⟩

theorem Tracks.expectWrite (tracks : Tracks clidata entry lookup before after)
    (sock : Sock) (stored : Lookup α) (command : stored.command = lookup.command)
    (decision : stored.decision = lookup.decision) :
    Tracks clidata entry lookup before (after.expectWrite sock stored) := by
  refine ⟨tracks.clients, tracks.resolving, tracks.owner, tracks.active,
    fun other found member => ?_, tracks.configuration, tracks.waiting⟩
  rcases lookup_insert_iff.mp member with ⟨_, rfl⟩ | ⟨_, earlier⟩
  · exact .inr ⟨command, decision⟩
  · exact tracks.sending other found earlier

end Tracks

theorem newTCPResolver_tracks (manager : ResolverManager α) (clientId : ClientId)
    (now resolveCount : Nat) (allSent : Sock → Bool) {hostname : Str}
    (extracted : extractHostname command decision = some hostname) :
    Tracks ⟨nextIdentifier manager.factoryDrawn, nextIdentifier 0, now, resolveCount⟩
      ⟨now, clientId, manager.worker.socket⟩ ⟨clientId, hostname, hostname, command, decision⟩
      manager
      (manager.newTCPResolver now allSent clientId command decision resolveCount).1 := by
  have opened : Tracks ⟨nextIdentifier manager.factoryDrawn, nextIdentifier 0, now, resolveCount⟩
      ⟨now, clientId, manager.worker.socket⟩ ⟨clientId, hostname, hostname, command, decision⟩
      manager
      ({ manager with
        factoryDrawn := nextIdentifier manager.factoryDrawn
        sockets := manager.sockets + 1
        workers := manager.workers.insert manager.sockets ⟨nextIdentifier manager.factoryDrawn,
          manager.sockets, nextIdentifier 0⟩ }.track (nextIdentifier manager.factoryDrawn)
        (nextIdentifier 0) now resolveCount manager.worker.socket
        ⟨clientId, hostname, hostname, command, decision⟩) :=
    ⟨rfl, rfl, rfl, rfl, fun _ _ stored => .inl stored, rfl, rfl⟩
  simp only [newTCPResolver, extracted]
  split
  · exact opened.expectAnswer _
  · exact opened.expectWrite _ _ rfl rfl

theorem Askable.shortcut (askable : manager.Askable command decision) :
    ∃ hostname, extractHostname command decision = some hostname ∧
      manager.shortcut hostname command decision false = none := by
  obtain ⟨hostname, extracted, accepted⟩ := askable
  refine ⟨hostname, extracted, ?_⟩
  simp only [ResolverManager.shortcut, Bool.false_eq_true, if_false]
  exact accepted

theorem refusal_of_shortcut {hostname : Str} {first : Bool}
    (asked : manager.shortcut hostname command decision first = none) :
    manager.refusal hostname = none := by
  unfold shortcut at asked
  split at asked
  · cases asked
  · cases asked
  · exact asked

/-- The pending clients after a lookup was started: its client is one of them if
an identifier and no response was returned. -/
def enlist (pending : Finset ClientId) (clientId : ClientId) :
    Option Nat × Option (Response α) → Finset ClientId
  | (some _, none) => insert clientId pending
  | _ => pending

theorem Consistent.startResolving (consistent : Consistent manager.active pending manager)
    (absent : clientId ∉ pending) (now : Nat)
    (free : manager.Free (manager.worker.wId, nextIdentifier manager.worker.drawn) clientId) :
    Consistent (manager.startResolving now clientId command decision 1 none).1.active
      (enlist pending clientId (manager.startResolving now clientId command decision 1 none).2)
      (manager.startResolving now clientId command decision 1 none).1 := by
  cases extracted : extractHostname command decision with
  | none =>
      simp only [ResolverManager.startResolving, extracted]
      exact consistent
  | some hostname =>
      cases asked : manager.shortcut hostname command decision true with
      | some response =>
          simp only [ResolverManager.startResolving, extracted, asked, Option.isNone_none]
          exact consistent
      | none =>
          have tracks := startResolving_tracks manager clientId now 1 none extracted asked
          have given : (manager.startResolving now clientId command decision 1 none).2 =
              (some (nextIdentifier manager.worker.drawn), none) := by
            simp only [ResolverManager.startResolving, extracted, asked, Option.isNone_none,
              resolveHost]
          rw [given, tracks.active]
          exact consistent.track tracks absent free
            ⟨hostname, extracted, refusal_of_shortcut asked⟩

/-- What an answer for a filed lookup must find for no lookup to be lost: a
free TCP worker when it was truncated, and a new key nobody else holds. -/
def AnswerKept (manager : ResolverManager α) (worker : Worker) (result : Result)
    (clientId : ClientId) : Prop :=
  if result.completed then
    result.followUp ≠ none → manager.Free (worker.wId, nextIdentifier worker.drawn) clientId
  else
    manager.workerCount < manager.configuration.maxWorkers ∧
      manager.Free (nextIdentifier manager.factoryDrawn, nextIdentifier 0) clientId

theorem Free.forget {key other : Nat × Nat} (free : manager.Free key clientId)
    (resolving : after.resolving = manager.resolving.erase other) : after.Free key clientId := by
  intro lookup found
  rw [resolving, lookup_erase_iff] at found
  exact free lookup found.2

/-- An answer for a lookup that was taken out of the tables: the lookup is
filed again, or it is answered. -/
theorem Consistent.answer {lookup : Lookup α} {worker : Worker} {result : Result}
    {identifier : Nat} (now : Nat) (allSent : Sock → Bool) (clidata : ClientData)
    (consistent : Consistent manager.active pending manager) (absent : lookup.clientId ∉ pending)
    (askable : manager.Askable lookup.command lookup.decision)
    (unheld : (worker.wId, identifier) ∉ manager.resolving)
    (kept : manager.AnswerKept worker result lookup.clientId) :
    let answered := manager.answer now allSent worker result identifier
      (followUp worker result) lookup (some clidata)
    (answered.2 = none ∧
        Consistent answered.1.active (insert lookup.clientId pending) answered.1) ∨
      (answered.2 ≠ none ∧ Consistent answered.1.active pending answered.1) := by
  have refiled : ∀ {clidata : ClientData} {entry : Active} {filed : Lookup α}
      {after : ResolverManager α}, Tracks clidata entry filed manager after →
      filed.clientId = lookup.clientId → filed.command = lookup.command →
      filed.decision = lookup.decision →
      manager.Free (clidata.wId, clidata.identifier) lookup.clientId →
      Consistent after.active (insert lookup.clientId pending) after := by
    intro clidata entry filed after tracks client command decision free
    rw [tracks.active, ← client]
    refine consistent.track tracks (client ▸ absent) (client ▸ free) ?_
    rw [command, decision]
    exact askable
  cases completed : result.completed with
  | false =>
      simp only [AnswerKept, completed, Bool.false_eq_true, if_false] at kept
      obtain ⟨hostname, extracted, _⟩ := askable
      have tracks : Tracks _ _ _ _ _ := newTCPResolver_tracks manager lookup.clientId now 1
        allSent extracted
      refine .inl ⟨?_, ?_⟩
      · simp only [ResolverManager.answer, completed, Bool.false_eq_true, if_false]
      · simp only [ResolverManager.answer, completed, Bool.false_eq_true, if_false,
          beginResolvingTCP, kept.1, if_true]
        exact (refiled tracks rfl rfl rfl kept.2).same ⟨rfl, rfl, rfl, rfl, rfl, rfl⟩
  | true =>
      simp only [AnswerKept, completed, if_true] at kept
      cases followUp : result.followUp with
      | some query =>
          obtain ⟨newhost, newcomplete⟩ := query
          have free := kept (by simp [followUp])
          have tracks := track_tracks manager worker.wId (nextIdentifier worker.drawn) now 1
            worker.socket { lookup with hostname := newhost }
          refine .inl ?_
          cases newcomplete with
          | true =>
              simp only [ResolverManager.answer, completed, if_true, ResolverManager.followUp, followUp, Option.map_some,
                true_and]
              exact refiled (tracks.expectAnswer worker.socket) rfl rfl rfl free
          | false =>
              simp only [ResolverManager.answer, completed, if_true, ResolverManager.followUp, followUp, Option.map_some,
                Bool.false_eq_true, if_false, true_and]
              exact refiled (tracks.expectWrite worker.socket lookup rfl rfl) rfl rfl rfl free
      | none =>
          by_cases right : result.forhost = some lookup.hostname
          · refine .inr ?_
            cases address : result.ip with
            | some ip =>
                simp only [ResolverManager.answer, completed, if_true, ResolverManager.followUp, followUp, Option.map_none,
                  right, ne_eq, not_true_eq_false, if_false, address, reduceCtorEq,
                  not_false_eq_true, true_and]
                have same := cacheDestination_same manager now lookup.original ip
                rw [same.active]
                exact consistent.same same
            | none =>
                simp only [ResolverManager.answer, completed, if_true, ResolverManager.followUp, followUp, Option.map_none,
                  right, ne_eq, not_true_eq_false, if_false, address, reduceCtorEq,
                  not_false_eq_true, true_and]
                exact consistent
          · refine .inl ?_
            simp only [ResolverManager.answer, completed, if_true, ResolverManager.followUp, followUp, Option.map_none, right,
              ne_eq, not_false_eq_true, true_and]
            exact refiled (track_tracks manager worker.wId identifier now _ worker.socket lookup)
              rfl rfl rfl fun _ found => absurd (lookup_mem found) unheld

/-- The pending clients after a response was or was not given. -/
def settle (pending : Finset ClientId) : Option (ClientId × Response α) → Finset ClientId
  | some (clientId, _) => pending.erase clientId
  | none => pending

/-- The condition under which `getResponse` loses no lookup. -/
def ResponseKept (manager : ResolverManager α) (sock : Sock) (result : Option Result) : Prop :=
  ∀ worker ∈ manager.workerOf sock, ∀ parsed ∈ result,
    ∀ found ∈ manager.answered worker parsed, manager.AnswerKept worker parsed found.2.clientId

theorem drawFollowUp_fields (manager : ResolverManager α) (worker : Worker) (result : Result) :
    manager.Same (manager.drawFollowUp worker result) ∧
      (manager.drawFollowUp worker result).workerCount = manager.workerCount ∧
      (manager.drawFollowUp worker result).factoryDrawn = manager.factoryDrawn := by
  unfold drawFollowUp
  split
  · refine ⟨putWorker_same manager _, ?_, ?_⟩
    · unfold putWorker
      split <;> rfl
    · unfold putWorker
      split <;> rfl
  · exact ⟨same_refl manager, rfl, rfl⟩

/-- Reading an answer changes nothing but the worker's counter, the chain and the
entry of the answer. -/
theorem receive_fields (manager : ResolverManager α) (worker : Worker) (result : Result) :
    (manager.receive worker result).configuration = manager.configuration ∧
      (manager.receive worker result).clients = manager.clients ∧
      (manager.receive worker result).resolving =
        (manager.popResolving worker result).resolving ∧
      (manager.receive worker result).sending = manager.sending ∧
      (manager.receive worker result).active = manager.active ∧
      (manager.receive worker result).waiting = manager.waiting ∧
      (manager.receive worker result).workerCount = manager.workerCount ∧
      (manager.receive worker result).factoryDrawn = manager.factoryDrawn := by
  obtain ⟨same, count, drawn⟩ := drawFollowUp_fields manager worker result
  simp only [receive, chain]
  cases asked : result.identifier with
  | none =>
      simp only [popResolving, asked]
      exact ⟨same.configuration, same.clients, same.resolving, same.sending, same.active,
        same.waiting, count, drawn⟩
  | some identifier =>
      simp only [popResolving, asked, same.resolving]
      exact ⟨same.configuration, same.clients, trivial, same.sending, same.active, same.waiting, count,
        drawn⟩

theorem receive_same {worker : Worker} {result : Result}
    (unheld : manager.answered worker result = none) :
    manager.Same (manager.receive worker result) := by
  obtain ⟨configuration, clients, resolving, sending, active, waiting, _⟩ :=
    receive_fields manager worker result
  refine ⟨configuration, clients, resolving.trans ?_, sending, active, waiting⟩
  cases found : result.identifier with
  | none => simp only [popResolving, found]
  | some identifier =>
      simp only [popResolving, found]
      simp only [answered, found, Option.bind_some, Option.map_eq_none_iff] at unheld
      exact erase_absent (AList.lookup_eq_none.mp unheld)

theorem Consistent.receive (consistent : Consistent manager.active pending manager)
    {worker : Worker} {result : Result} {identifier : Nat} {lookup : Lookup α} (sock : Sock)
    (found : manager.answered worker result = some (identifier, lookup)) :
    (∃ clidata, (manager.receive worker result).clients.lookup lookup.clientId = some clidata) ∧
      manager.Askable lookup.command lookup.decision ∧
      Consistent ((manager.receive worker result).popLookup sock lookup).active
        (pending.erase lookup.clientId) ((manager.receive worker result).popLookup sock lookup) ∧
      ((manager.receive worker result).popLookup sock lookup).resolving =
        manager.resolving.erase (worker.wId, identifier) := by
  obtain ⟨configuration, clients, resolving, sending, active, waiting, _⟩ :=
    receive_fields manager worker result
  obtain ⟨_, asked, mapped⟩ := Option.bind_eq_some_iff.mp found
  obtain ⟨_, stored, paired⟩ := Option.map_eq_some_iff.mp mapped
  cases paired
  simp only [popResolving, asked] at resolving
  obtain ⟨clidata, known, key⟩ := consistent.held _ _ stored
  refine ⟨⟨clidata, clients ▸ known⟩, consistent.resolving _ _ stored, ?_, resolving⟩
  refine consistent.forget known (by simp only [popLookup, clients]) ?_ sending configuration waiting ?_
  · rw [key]
    exact resolving
  · intro entry listed other
    simp only [popLookup, clients, known, active]
    refine (List.mem_erase_of_ne fun same => other ?_).mpr listed
    rw [same]

theorem Consistent.getResponse (consistent : Consistent manager.active pending manager)
    (now : Nat) (allSent : Sock → Bool) (sock : Sock) (result : Option Result)
    (kept : manager.ResponseKept sock result) :
    Consistent (manager.getResponse now allSent sock result).1.active
      (settle pending (manager.getResponse now allSent sock result).2)
      (manager.getResponse now allSent sock result).1 := by
  cases known : manager.workerOf sock with
  | none =>
      simp only [ResolverManager.getResponse, known]
      exact consistent
  | some worker =>
      cases result with
      | none =>
          simp only [ResolverManager.getResponse, known]
          split
          · exact consistent
          · have same := closeWorker_same consistent.waiting sock now allSent
            rw [same.active]
            exact consistent.same same
      | some result =>
          cases found : manager.answered worker result with
          | none =>
              have same := receive_same found
              simp only [ResolverManager.getResponse, known, found, same.active]
              exact consistent.same same
          | some data =>
              obtain ⟨identifier, lookup⟩ := data
              obtain ⟨⟨clidata, listed⟩, askable, popped, resolving⟩ :=
                consistent.receive sock found
              obtain ⟨configuration, _, _, _, _, _, count, drawn⟩ :=
                receive_fields manager worker result
              have member : lookup.clientId ∈ pending := by
                obtain ⟨_, _, mapped⟩ := Option.bind_eq_some_iff.mp found
                obtain ⟨_, stored, paired⟩ := Option.map_eq_some_iff.mp mapped
                cases paired
                obtain ⟨_, known, _⟩ := consistent.held _ _ stored
                exact (consistent.pending lookup.clientId).mpr (lookup_mem known)
              have allowed : ((manager.receive worker result).popLookup sock lookup).AnswerKept
                  worker result lookup.clientId := by
                have before := kept worker known result rfl _ found
                have drop : ∀ {key : Nat × Nat}, manager.Free key lookup.clientId →
                    ((manager.receive worker result).popLookup sock lookup).Free key
                      lookup.clientId := fun free => free.forget resolving
                simp only [AnswerKept, popLookup, configuration, count, drawn] at before drop ⊢
                split
                · next completed =>
                    simp only [completed, if_true] at before
                    exact fun asked => drop (before asked)
                · next truncated =>
                    simp only [truncated, if_false, Bool.false_eq_true] at before
                    exact ⟨before.1, drop before.2⟩
              have acted := popped.answer now allSent clidata (Finset.notMem_erase _ _)
                (askable.congr configuration) (by
                  rw [resolving]
                  exact fun held => (AList.mem_erase.mp held).1 rfl) allowed
              rw [Finset.insert_erase member] at acted
              simp only [ResolverManager.getResponse, known, found, listed]
              rcases acted with ⟨silent, kept⟩ | ⟨spoken, kept⟩
              · simp only [silent]
                exact kept
              · obtain ⟨response, spoken⟩ := Option.ne_none_iff_exists'.mp spoken
                simp only [spoken]
                split
                · exact kept
                · have same := closeWorker_same kept.waiting sock now allSent
                  rw [same.active]
                  exact kept.same same

theorem Consistent.continueSending (consistent : Consistent watched pending manager)
    (sock : Sock) (sent : manager.continueSending sock = some after) :
    after.active = manager.active ∧ Consistent watched pending after := by
  cases known : manager.workerOf sock with
  | none => simp only [ResolverManager.continueSending, known, reduceCtorEq] at sent
  | some worker =>
      cases found : manager.sending.lookup sock with
      | none =>
          simp only [ResolverManager.continueSending, known, found, Option.some.injEq] at sent
          subst sent
          exact ⟨rfl, consistent.same ⟨rfl, rfl, rfl, rfl, rfl, rfl⟩⟩
      | some lookup =>
          cases listed : manager.clients.lookup lookup.clientId with
          | none =>
              simp only [ResolverManager.continueSending, known, found, listed,
                Option.some.injEq] at sent
              subst sent
              exact ⟨rfl, consistent.same ⟨rfl, rfl, rfl, rfl, rfl, rfl⟩⟩
          | some clidata =>
              simp only [ResolverManager.continueSending, known, found, listed,
                Option.some.injEq] at sent
              subst sent
              have askable := consistent.sending sock lookup found
              have fewer : ∀ other stored, (manager.sending.erase sock).lookup other = some stored →
                  manager.sending.lookup other = some stored := fun _ _ stored =>
                (lookup_erase_iff.mp stored).2
              exact ⟨rfl, consistent.refile listed askable rfl rfl fewer rfl rfl⟩

end ResolverManager

end ExaProxy.Resolver
