import ExaProxy.Data.Queries
import ExaProxy.Resolver.Runs

namespace ExaProxy.Resolver

open ExaProxy.Data

/-! Lookups over UDP alone.  Every query is under the number that the UDP worker drew for it,
and `active` has an entry with the time at which it was last sent. -/

namespace ResolverManager

variable {α : Type} {manager after : ResolverManager α} {watched others : List Active}
  {clientId : ClientId} {clidata : ClientData} {lookup : Lookup α} {entry : Active} {time later : Nat}

/-- Every lookup is on the UDP worker, and the entries stand in the order of their times. -/
structure Steady (time : Nat) (watched : List Active) (manager : ResolverManager α) : Prop where
  sockets : ∀ entry ∈ watched, entry.socket = manager.worker.socket
  workers : ∀ clientId clidata, manager.clients.lookup clientId = some clidata →
    clidata.wId = manager.worker.wId
  numbers : ∀ clientId clidata, manager.clients.lookup clientId = some clidata →
    clidata.identifier ≤ manager.worker.drawn
  timed : ∀ clientId clidata, manager.clients.lookup clientId = some clidata →
    ∃ entry ∈ watched, entry.clientId = clientId ∧ entry.time = clidata.activeTime
  ordered : watched.Pairwise fun earlier later => earlier.time ≤ later.time
  latest : ∀ entry ∈ watched, entry.time ≤ time

/-- The worker is the same one, and may have drawn numbers. -/
structure Draws (before after : ResolverManager α) : Prop where
  socket : after.worker.socket = before.worker.socket
  wId : after.worker.wId = before.worker.wId
  drawn : before.worker.drawn ≤ after.worker.drawn

theorem Steady.track (steady : Steady time watched manager) (tracks : Tracks clidata entry lookup manager after)
    (draws : Draws manager after) (socket : entry.socket = manager.worker.socket)
    (worker : clidata.wId = manager.worker.wId) (number : clidata.identifier ≤ after.worker.drawn)
    (stamped : entry.time = clidata.activeTime) (passed : time ≤ entry.time) :
    Steady entry.time (watched ++ [entry]) after := by
  have clients := tracks.clients
  refine ⟨?_, ?_, ?_, ?_, ?_, ?_⟩
  · intro other member
    rw [draws.socket]
    rcases List.mem_append.mp member with earlier | own
    · exact steady.sockets other earlier
    · rw [List.mem_singleton.mp own, socket]
  · intro client data known
    rw [clients] at known
    rw [draws.wId]
    rcases lookup_insert_iff.mp known with ⟨_, rfl⟩ | ⟨_, known⟩
    · exact worker
    · exact steady.workers client data known
  · intro client data known
    rw [clients] at known
    rcases lookup_insert_iff.mp known with ⟨_, rfl⟩ | ⟨_, known⟩
    · exact number
    · exact (steady.numbers client data known).trans draws.drawn
  · intro client data known
    rw [clients] at known
    rcases lookup_insert_iff.mp known with ⟨rfl, rfl⟩ | ⟨_, known⟩
    · exact ⟨entry, by simp, tracks.owner, stamped⟩
    · obtain ⟨found, listed, own⟩ := steady.timed client data known
      exact ⟨found, List.mem_append_left _ listed, own⟩
  · refine List.pairwise_append.mpr ⟨steady.ordered, List.pairwise_singleton _ _, ?_⟩
    intro earlier member last own
    rw [List.mem_singleton.mp own]
    exact (steady.latest earlier member).trans passed
  · intro other member
    rcases List.mem_append.mp member with earlier | own
    · exact (steady.latest other earlier).trans passed
    · rw [List.mem_singleton.mp own]

/-- Fewer lookups and fewer entries, as long as each lookup that is left keeps its entry. -/
theorem Steady.narrow (steady : Steady time watched manager) (draws : Draws manager after)
    (clients : ∀ clientId clidata, after.clients.lookup clientId = some clidata →
      manager.clients.lookup clientId = some clidata)
    (fewer : others.Sublist watched) (passed : time ≤ later)
    (kept : ∀ entry ∈ watched, entry.clientId ∈ after.clients → entry ∈ others) :
    Steady later others after := by
  refine ⟨?_, ?_, ?_, ?_, steady.ordered.sublist fewer, ?_⟩
  · intro entry member
    rw [draws.socket]
    exact steady.sockets entry (fewer.subset member)
  · intro client data known
    rw [draws.wId]
    exact steady.workers client data (clients client data known)
  · intro client data known
    exact (steady.numbers client data (clients client data known)).trans draws.drawn
  · intro client data known
    obtain ⟨entry, listed, own, stamped⟩ := steady.timed client data (clients client data known)
    exact ⟨entry, kept entry listed (own ▸ lookup_mem known), own, stamped⟩
  · intro entry member
    exact (steady.latest entry (fewer.subset member)).trans passed

theorem Steady.same (steady : Steady time watched manager) (same : manager.Same after)
    (draws : Draws manager after) (passed : time ≤ later) : Steady later watched after := by
  refine steady.narrow draws ?_ (List.Sublist.refl _) passed fun _ member _ => member
  exact fun _ _ known => by rwa [same.clients] at known

theorem draws_refl (manager : ResolverManager α) : Draws manager manager := ⟨rfl, rfl, le_rfl⟩

theorem Draws.trans {between : ResolverManager α} (first : Draws manager between)
    (second : Draws between after) : Draws manager after :=
  ⟨second.socket.trans first.socket, second.wId.trans first.wId, first.drawn.trans second.drawn⟩

theorem draws_of_worker (worker : after.worker = manager.worker) : Draws manager after :=
  ⟨congrArg Worker.socket worker, congrArg Worker.wId worker, (congrArg Worker.drawn worker).ge⟩

section Responses

variable {now : Nat} {allSent : Sock → Bool} {result : Result} {pending : Finset ClientId} {identifier : Nat}

/-- The tables without the lookup an answer of the UDP worker is for. -/
def taken (manager : ResolverManager α) (result : Result) (lookup : Lookup α) : ResolverManager α :=
  (manager.receive manager.worker result).popLookup manager.worker.socket lookup

/-- The answer is for the lookup, which is filed under the number. -/
structure Held (manager : ResolverManager α) (result : Result) (identifier : Nat) (lookup : Lookup α)
    (clidata : ClientData) : Prop where
  answered : manager.answered manager.worker result = some (identifier, lookup)
  known : manager.clients.lookup lookup.clientId = some clidata
  wId : clidata.wId = manager.worker.wId
  identifier : clidata.identifier = identifier

/-- What a whole answer that comes over UDP does to the tables. -/
inductive Responded (manager : ResolverManager α) (now : Nat) (result : Result) :
    ResolverManager α → Option (ClientId × Response α) → Prop where
  | ignored (after : ResolverManager α) (unheld : manager.answered manager.worker result = none)
      (same : manager.Same after) (cache : after.cache = manager.cache) : Responded manager now result after none
  | followed (after : ResolverManager α) (identifier next : Nat) (lookup filed : Lookup α) (clidata : ClientData)
      (held : manager.Held result identifier lookup clidata)
      (asked : followUp manager.worker result = some next) (owner : filed.clientId = lookup.clientId)
      (tracks : Tracks ⟨manager.worker.wId, next, now, 1⟩ ⟨now, filed.clientId, manager.worker.socket⟩ filed
        (manager.taken result lookup) after) : Responded manager now result after none
  | restored (after : ResolverManager α) (identifier : Nat) (lookup : Lookup α) (clidata : ClientData)
      (held : manager.Held result identifier lookup clidata)
      (silent : followUp manager.worker result = none) (wrong : result.forhost ≠ some lookup.hostname)
      (tracks : Tracks ⟨manager.worker.wId, identifier, now, clidata.resolveCount⟩
        ⟨now, lookup.clientId, manager.worker.socket⟩ lookup (manager.taken result lookup) after) :
      Responded manager now result after none
  | decided (after : ResolverManager α) (identifier : Nat) (lookup : Lookup α) (clidata : ClientData)
      (response : Response α)
      (held : manager.Held result identifier lookup clidata)
      (silent : followUp manager.worker result = none) (right : result.forhost = some lookup.hostname)
      (same : (manager.taken result lookup).Same after) :
      Responded manager now result after (some (lookup.clientId, response))

theorem receive_worker (manager : ResolverManager α) (result : Result) :
    (manager.receive manager.worker result).worker =
        { manager.worker with drawn := (followUp manager.worker result).getD manager.worker.drawn } ∧
      (manager.receive manager.worker result).cache = manager.cache := by
  simp only [receive, chain, popResolving, drawFollowUp]
  cases followUp manager.worker result <;> cases result.identifier <;>
    simp only [Option.getD_none, Option.getD_some, putWorker, if_true, and_self]

theorem taken_clients (manager : ResolverManager α) (result : Result) (lookup : Lookup α) :
    (manager.taken result lookup).clients = manager.clients.erase lookup.clientId := by
  simp only [taken, popLookup, (receive_fields manager manager.worker result).2.1]

theorem taken_configuration (manager : ResolverManager α) (result : Result) (lookup : Lookup α) :
    (manager.taken result lookup).configuration = manager.configuration :=
  (receive_fields manager manager.worker result).1

theorem taken_active (known : manager.clients.lookup lookup.clientId = some clidata) (result : Result) :
    (manager.taken result lookup).active =
      manager.active.erase ⟨clidata.activeTime, lookup.clientId, manager.worker.socket⟩ := by
  obtain ⟨_, clients, _, _, active, _⟩ := receive_fields manager manager.worker result
  simp only [taken, popLookup, clients, known, active]

theorem cacheDestination_worker (manager : ResolverManager α) (now : Nat) (hostname ip : Str) :
    (manager.cacheDestination now hostname ip).worker = manager.worker := by
  unfold cacheDestination
  split <;> rfl

theorem getResponse_responded (filed : Filed watched manager) (now : Nat) (allSent : Sock → Bool) (result : Result)
    (complete : result.completed = true) (whole : ∀ query ∈ result.followUp, query.2 = true) :
    Responded manager now result (manager.getResponse now allSent manager.worker.socket (some result)).1
        (manager.getResponse now allSent manager.worker.socket (some result)).2 ∧
      (manager.getResponse now allSent manager.worker.socket (some result)).1.worker =
        { manager.worker with drawn := (followUp manager.worker result).getD manager.worker.drawn } := by
  have known : manager.workerOf manager.worker.socket = some manager.worker := by simp [workerOf]
  obtain ⟨worker, cache⟩ := receive_worker manager result
  cases found : manager.answered manager.worker result with
  | none =>
      simp only [ResolverManager.getResponse, known, found]
      exact ⟨.ignored _ found (receive_same found) cache, worker⟩
  | some data =>
      obtain ⟨identifier, lookup⟩ := data
      have stored : manager.resolving.lookup (manager.worker.wId, identifier) = some lookup := by
        obtain ⟨_, _, mapped⟩ := Option.bind_eq_some_iff.mp found
        obtain ⟨_, stored, paired⟩ := Option.map_eq_some_iff.mp mapped
        cases paired
        exact stored
      obtain ⟨clidata, listed, key⟩ := filed.held _ _ stored
      have held : manager.Held result identifier lookup clidata :=
        ⟨found, listed, congrArg Prod.fst key, congrArg Prod.snd key⟩
      obtain ⟨_, clients, _⟩ := receive_fields manager manager.worker result
      simp only [ResolverManager.getResponse, known, found, clients, listed, ResolverManager.answer, complete, if_true]
      cases asked : result.followUp with
      | some query =>
          obtain ⟨newhost, newcomplete⟩ := query
          obtain rfl : newcomplete = true := whole _ (by rw [asked]; rfl)
          have drew : followUp manager.worker result = some (nextIdentifier manager.worker.drawn) := by
            rw [followUp, asked]
            rfl
          rw [drew] at worker
          simp only [drew, if_true]
          have tracks := track_tracks (manager.taken result lookup) manager.worker.wId
            (nextIdentifier manager.worker.drawn) now 1 manager.worker.socket { lookup with hostname := newhost }
          exact ⟨.followed _ _ _ _ { lookup with hostname := newhost } _ held drew rfl
            (tracks.expectAnswer manager.worker.socket), worker⟩
      | none =>
          have silent : followUp manager.worker result = none := by
            rw [followUp, asked]
            rfl
          rw [silent] at worker
          simp only [silent]
          by_cases right : result.forhost = some lookup.hostname
          · cases address : result.ip with
            | some ip =>
                simp only [right, ne_eq, not_true_eq_false, if_false]
                refine ⟨.decided _ _ _ _ _ held silent right (cacheDestination_same _ _ _ _), ?_⟩
                rw [cacheDestination_worker]
                exact worker
            | none =>
                simp only [right, ne_eq, not_true_eq_false, if_false]
                exact ⟨.decided _ _ _ _ _ held silent right (same_refl _), worker⟩
          · simp only [right, ne_eq, not_false_eq_true, if_true]
            exact ⟨.restored _ _ _ _ held silent right (track_tracks _ _ _ _ _ _ _), worker⟩

theorem nextIdentifier_fresh {drawn : Nat} (few : drawn < 0xfffe) : nextIdentifier drawn = drawn + 1 := by
  rw [nextIdentifier, Nat.mod_eq_of_lt few]

theorem draws_of_response (few : manager.worker.drawn < 0xfffe) (worker : after.worker =
    { manager.worker with drawn := (followUp manager.worker result).getD manager.worker.drawn }) :
    Draws manager after := by
  refine ⟨by rw [worker], by rw [worker], ?_⟩
  rw [worker, followUp]
  cases result.followUp with
  | none => exact le_rfl
  | some query =>
      simp only [Option.map_some, Option.getD_some, nextIdentifier_fresh few]
      omega

theorem Steady.taken (steady : Steady time manager.active manager) (few : manager.worker.drawn < 0xfffe)
    (held : manager.Held result identifier lookup clidata) :
    Steady time (manager.taken result lookup).active (manager.taken result lookup) := by
  have draws : Draws manager (manager.taken result lookup) :=
    draws_of_response few (receive_worker manager result).1
  rw [taken_active held.known]
  refine steady.narrow draws ?_ List.erase_sublist le_rfl ?_
  · intro client data known
    rw [taken_clients] at known
    exact (lookup_erase_iff.mp known).2
  · intro entry member own
    rw [taken_clients, AList.mem_erase] at own
    exact (List.mem_erase_of_ne fun same => own.1 (by rw [same])).mpr member

theorem Steady.responded {response : Option (ClientId × Response α)}
    (steady : Steady time manager.active manager) (passed : time ≤ now) (few : manager.worker.drawn < 0xfffe)
    (responded : Responded manager now result after response) (worker : after.worker =
      { manager.worker with drawn := (followUp manager.worker result).getD manager.worker.drawn }) :
    Steady now after.active after := by
  have draws := draws_of_response few worker
  have same : ∀ lookup : Lookup α, after.worker = (manager.taken result lookup).worker := fun lookup =>
    worker.trans (receive_worker manager result).1.symm
  cases responded with
  | ignored unheld kept cache =>
      rw [kept.active]
      exact steady.same kept draws passed
  | followed identifier next lookup filed clidata held asked owner tracks =>
      rw [tracks.active]
      refine (steady.taken few held).track tracks (draws_of_worker (same lookup)) ?_ ?_ ?_ rfl passed
      · exact (draws_of_response few (receive_worker manager result).1).socket.symm
      · exact (draws_of_response few (receive_worker manager result).1).wId.symm
      · rw [worker, asked, Option.getD_some]
  | restored identifier lookup clidata held silent wrong tracks =>
      rw [tracks.active]
      refine (steady.taken few held).track tracks (draws_of_worker (same lookup)) ?_ ?_ ?_ rfl passed
      · exact (draws_of_response few (receive_worker manager result).1).socket.symm
      · exact (draws_of_response few (receive_worker manager result).1).wId.symm
      · have number := (steady.numbers _ _ held.known).trans draws.drawn
        rwa [held.identifier] at number
  | decided identifier lookup clidata response held silent right kept =>
      rw [kept.active]
      exact (steady.taken few held).same kept (draws_of_worker (same lookup)) passed

end Responses

section Starts

variable {command : Str} {decision : Decision α} {now : Nat}

/-- A lookup that starts without a query: it is answered at once, or there is nothing to ask. -/
def Unasked (manager : ResolverManager α) (now : Nat) (clientId : ClientId) (command : Str)
    (decision : Decision α) : Prop :=
  (manager.startResolving now clientId command decision 1 none).1 = manager ∧
    (manager.startResolving now clientId command decision 1 none).2.1 = none

theorem startResolving_begins (manager : ResolverManager α) (now : Nat) (clientId : ClientId) (command : Str)
    (decision : Decision α) : manager.Unasked now clientId command decision ∨
      (manager.startResolving now clientId command decision 1 none).2 =
          (some (nextIdentifier manager.worker.drawn), none) ∧
        (manager.startResolving now clientId command decision 1 none).1.worker =
          { manager.worker with drawn := nextIdentifier manager.worker.drawn } ∧
        ∃ lookup : Lookup α, lookup.clientId = clientId ∧
          Tracks ⟨manager.worker.wId, nextIdentifier manager.worker.drawn, now, 1⟩
            ⟨now, clientId, manager.worker.socket⟩ lookup manager
            (manager.startResolving now clientId command decision 1 none).1 := by
  cases extracted : extractHostname command decision with
  | none =>
      refine .inl ⟨?_, ?_⟩ <;> simp only [startResolving, extracted]
  | some hostname =>
      cases asked : manager.shortcut hostname command decision true with
      | some response =>
          refine .inl ⟨?_, ?_⟩ <;> simp only [startResolving, extracted, Option.isNone_none, asked]
      | none =>
          refine .inr ⟨?_, ?_, _, rfl, startResolving_tracks manager clientId now 1 none extracted asked⟩
          · simp only [startResolving, extracted, Option.isNone_none, asked, resolveHost]
          · simp only [startResolving, extracted, Option.isNone_none, asked, resolveHost, track]

theorem Steady.startResolving (steady : Steady time manager.active manager) (passed : time ≤ now)
    (few : manager.worker.drawn < 0xfffe) (clientId : ClientId) (command : Str) (decision : Decision α) :
    Steady now (manager.startResolving now clientId command decision 1 none).1.active
      (manager.startResolving now clientId command decision 1 none).1 := by
  rcases startResolving_begins manager now clientId command decision with
    ⟨same, _⟩ | ⟨_, worker, lookup, owner, tracks⟩
  · rw [same]
    exact steady.same (same_refl manager) (draws_refl manager) passed
  · rw [tracks.active]
    refine steady.track tracks ⟨by rw [worker], by rw [worker], ?_⟩ rfl rfl ?_ rfl passed
    · rw [worker, nextIdentifier_fresh few]
      exact Nat.le_succ _
    · rw [worker]

end Starts

end ResolverManager

end ExaProxy.Resolver
