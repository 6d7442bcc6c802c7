import ExaProxy.Resolver.Operations

namespace ExaProxy.Resolver

open ExaProxy.Data

namespace ResolverManager

variable {α : Type} {manager after : ResolverManager α} {now : Nat} {allSent : Sock → Bool} {sock : Sock}
  {command : Str} {decision : Decision α}

/-- The slots that are taken are those of the open workers, the UDP worker among them, and
no lookup waits while there is a free one. -/
structure SlotsConserved (manager : ResolverManager α) : Prop where
  count : manager.workerCount = manager.workers.keys.length + 1
  idle : manager.waiting = [] ∨ manager.configuration.maxWorkers ≤ manager.workerCount

/-- Every TCP worker is known under its own socket, which is not the one of the UDP worker. -/
structure Housed (manager : ResolverManager α) : Prop where
  udp : manager.worker.socket < manager.sockets
  own : ∀ sock worker, manager.workers.lookup sock = some worker →
    worker.socket = sock ∧ sock < manager.sockets ∧ sock ≠ manager.worker.socket

/-- Every lookup that is known names a host. -/
def Hosted (manager : ResolverManager α) : Prop :=
  ∀ command decision, manager.Known command decision → ∃ hostname, extractHostname command decision = some hostname

/-- Nothing that concerns the workers differs. -/
structure SameWorkers (before after : ResolverManager α) : Prop where
  worker : after.worker.socket = before.worker.socket
  workers : after.workers = before.workers
  sockets : after.sockets = before.sockets
  workerCount : after.workerCount = before.workerCount
  waiting : after.waiting = before.waiting
  configuration : after.configuration = before.configuration

theorem SameWorkers.refl (manager : ResolverManager α) : manager.SameWorkers manager :=
  ⟨rfl, rfl, rfl, rfl, rfl, rfl⟩

theorem SameWorkers.trans {before between after : ResolverManager α} (first : before.SameWorkers between)
    (second : between.SameWorkers after) : before.SameWorkers after :=
  ⟨second.worker.trans first.worker, second.workers.trans first.workers, second.sockets.trans first.sockets,
    second.workerCount.trans first.workerCount, second.waiting.trans first.waiting,
    second.configuration.trans first.configuration⟩

theorem SlotsConserved.same (conserved : manager.SlotsConserved) (same : manager.SameWorkers after) :
    after.SlotsConserved := by
  obtain ⟨count, idle⟩ := conserved
  refine ⟨?_, ?_⟩
  · rw [same.workerCount, same.workers, count]
  · rw [same.waiting, same.configuration, same.workerCount]
    exact idle

theorem Housed.same (housed : manager.Housed) (same : manager.SameWorkers after) : after.Housed := by
  refine ⟨by rw [same.worker, same.sockets]; exact housed.udp, fun sock worker found => ?_⟩
  rw [same.workers] at found
  rw [same.sockets, same.worker]
  exact housed.own sock worker found

theorem Hosted.narrower (hosted : manager.Hosted) (narrower : Narrower manager after) : after.Hosted :=
  fun command decision known => hosted command decision (narrower command decision known)

theorem Hosted.track (hosted : manager.Hosted) {clidata : ClientData} {entry : Active} {lookup : Lookup α}
    {hostname : Str} (tracks : Tracks clidata entry lookup manager after)
    (extracted : extractHostname lookup.command lookup.decision = some hostname) : after.Hosted := by
  intro command decision known
  rcases tracks.known known with earlier | ⟨rfl, rfl⟩
  · exact hosted command decision earlier
  · exact ⟨hostname, extracted⟩

theorem Housed.fresh (housed : manager.Housed) : manager.sockets ∉ manager.workers := by
  intro member
  obtain ⟨worker, found⟩ := Option.isSome_iff_exists.mp (AList.lookup_isSome.mpr member)
  exact absurd (housed.own _ _ found).2.1 (Nat.lt_irrefl _)

theorem workerOf_some {worker : Worker} (known : manager.workerOf sock = some worker) :
    sock = manager.worker.socket ∧ worker = manager.worker ∨
      sock ≠ manager.worker.socket ∧ manager.workers.lookup sock = some worker := by
  unfold workerOf at known
  split at known
  · next own => exact .inl ⟨own, (Option.some.inj known).symm⟩
  · next other => exact .inr ⟨other, known⟩

theorem Housed.putWorker (housed : manager.Housed) {worker : Worker}
    (known : manager.workerOf sock = some worker) (drawn : Nat) :
    (manager.putWorker { worker with drawn }).Housed := by
  unfold ResolverManager.putWorker
  rcases workerOf_some known with ⟨_, rfl⟩ | ⟨other, found⟩
  · rw [if_pos rfl]
    exact ⟨housed.udp, housed.own⟩
  · obtain ⟨own, bound, -⟩ := housed.own sock worker found
    rw [if_neg (by rw [own]; exact other)]
    refine ⟨housed.udp, fun at' stored present => ?_⟩
    rcases lookup_insert_iff.mp present with ⟨rfl, rfl⟩ | ⟨_, present⟩
    · exact ⟨rfl, own ▸ bound, own ▸ other⟩
    · exact housed.own at' stored present

theorem Housed.receive (housed : manager.Housed) {worker : Worker} (known : manager.workerOf sock = some worker)
    (result : Result) : (manager.receive worker result).Housed := by
  have drawn : (manager.drawFollowUp worker result).Housed := by
    unfold drawFollowUp
    split
    · exact housed.putWorker known _
    · exact housed
  unfold ResolverManager.receive popResolving
  split <;> exact ⟨drawn.udp, drawn.own⟩

theorem Housed.socket (housed : manager.Housed) {worker : Worker} (known : manager.workerOf sock = some worker) :
    worker.socket = sock := by
  rcases workerOf_some known with ⟨own, rfl⟩ | ⟨_, found⟩
  · exact own.symm
  · exact (housed.own sock worker found).1

theorem keys_insert_of_member {dict : AList (fun _ : Sock => Worker)} {sock : Sock} (member : sock ∈ dict)
    (worker : Worker) : (dict.insert sock worker).keys.length = dict.keys.length := by
  have positive : 0 < dict.keys.length := List.length_pos_of_mem member
  rw [AList.keys_insert, List.length_cons, List.length_erase_of_mem member]
  omega

theorem keys_insert_of_absent {dict : AList (fun _ : Sock => Worker)} {sock : Sock} (absent : sock ∉ dict)
    (worker : Worker) : (dict.insert sock worker).keys.length = dict.keys.length + 1 := by
  rw [AList.keys_insert, List.length_cons, List.erase_of_not_mem absent]

/-- What opening a TCP worker does to the workers. -/
structure Opens (before after : ResolverManager α) : Prop where
  worker : after.worker = before.worker
  workers : ∃ worker : Worker, worker.socket = before.sockets ∧
    after.workers = before.workers.insert before.sockets worker
  sockets : after.sockets = before.sockets + 1
  workerCount : after.workerCount = before.workerCount
  waiting : after.waiting = before.waiting
  configuration : after.configuration = before.configuration
  chained : after.chained = before.chained

theorem newTCPResolver_opens (manager : ResolverManager α) (now resolveCount : Nat) (allSent : Sock → Bool)
    (clientId : ClientId) {hostname : Str} (extracted : extractHostname command decision = some hostname) :
    Opens manager (manager.newTCPResolver now allSent clientId command decision resolveCount).1 := by
  simp only [newTCPResolver, extracted]
  split <;> exact ⟨rfl, ⟨_, rfl, rfl⟩, rfl, rfl, rfl, rfl, rfl⟩

theorem Opens.housed (opens : Opens manager after) (housed : manager.Housed) : after.Housed := by
  obtain ⟨opened, socket, workers⟩ := opens.workers
  refine ⟨by rw [opens.worker, opens.sockets]; exact Nat.lt_succ_of_lt housed.udp, fun sock worker found => ?_⟩
  rw [workers, lookup_insert_iff] at found
  rw [opens.sockets, opens.worker]
  rcases found with ⟨rfl, rfl⟩ | ⟨_, found⟩
  · exact ⟨socket, Nat.lt_succ_self _, Nat.ne_of_gt housed.udp⟩
  · obtain ⟨own, bound, other⟩ := housed.own sock worker found
    exact ⟨own, Nat.lt_succ_of_lt bound, other⟩

theorem Opens.count (opens : Opens manager after) (housed : manager.Housed) :
    after.workers.keys.length = manager.workers.keys.length + 1 := by
  obtain ⟨opened, _, workers⟩ := opens.workers
  rw [workers, keys_insert_of_absent housed.fresh]

/-- The workers that are open are counted, and any lookup can be given to a new one. -/
structure Slotted (manager : ResolverManager α) : Prop extends Housed manager where
  hosted : manager.Hosted
  count : manager.workerCount = manager.workers.keys.length + 1

theorem Slotted.same (slotted : manager.Slotted) (same : manager.SameWorkers after)
    (narrower : Narrower manager after) : after.Slotted :=
  ⟨slotted.toHoused.same same, slotted.hosted.narrower narrower, by
    rw [same.workerCount, same.workers, slotted.count]⟩

theorem Slotted.opens (slotted : manager.Slotted) (opens : Opens manager after) (hosted : after.Hosted) :
    Slotted { after with workerCount := after.workerCount + 1 } := by
  have housed := opens.housed slotted.toHoused
  refine ⟨⟨housed.udp, housed.own⟩, ?_, ?_⟩
  · exact hosted.narrower (narrower_of_eq rfl rfl rfl)
  · have total := opens.count slotted.toHoused
    dsimp only
    rw [opens.workerCount, total, slotted.count]
    rfl

theorem Slotted.startWaiting (slotted : manager.Slotted) : (manager.startWaiting now allSent).Slotted ∧
    (manager.startWaiting now allSent).configuration = manager.configuration ∧
      ((manager.startWaiting now allSent).waiting = [] ∨
        (manager.startWaiting now allSent).workerCount = manager.workerCount + 1) := by
  unfold ResolverManager.startWaiting
  split
  · next empty => exact ⟨slotted, rfl, .inl empty⟩
  · next clientId command decision resolveCount rest listed =>
      have known : manager.Known command decision := .waiting (by rw [listed]; exact List.mem_cons_self)
      obtain ⟨hostname, extracted⟩ := slotted.hosted command decision known
      have shorter : Narrower manager { manager with waiting := rest } := by
        refine narrower_of_tables (fun _ _ found => .resolving found) (fun _ _ found => .sending found) ?_
        exact fun waiter later => .waiting (by rw [listed]; exact List.mem_cons_of_mem _ later)
      have before : Slotted { manager with waiting := rest } :=
        ⟨⟨slotted.udp, slotted.own⟩, slotted.hosted.narrower shorter, slotted.count⟩
      have opens := newTCPResolver_opens { manager with waiting := rest } now resolveCount allSent clientId extracted
      have tracks := newTCPResolver_tracks { manager with waiting := rest } clientId now resolveCount allSent extracted
      refine ⟨before.opens opens (before.hosted.track tracks extracted), opens.configuration, .inr ?_⟩
      dsimp only
      rw [opens.workerCount]

variable (now allSent) in
theorem Slotted.startWaiting_iterate (count : Nat) (slotted : manager.Slotted) :
    let started := (fun m : ResolverManager α => m.startWaiting now allSent)^[count] manager
    started.Slotted ∧ started.configuration = manager.configuration ∧
      (started.waiting = [] ∨ started.workerCount = manager.workerCount + count) := by
  induction count with
  | zero => exact ⟨slotted, rfl, .inr (by simp)⟩
  | succ count ih =>
      obtain ⟨started, configuration, filled⟩ := ih
      obtain ⟨next, kept, full⟩ := started.startWaiting
      rw [Function.iterate_succ_apply']
      refine ⟨next, kept.trans configuration, ?_⟩
      rcases filled with empty | filled
      · left
        rw [ResolverManager.startWaiting, empty]
        exact empty
      · exact full.imp_right fun full => by omega

theorem Slotted.notifyClose (slotted : Slotted { manager with workerCount := manager.workerCount - 1 })
    (idle : manager.waiting = [] ∨ manager.configuration.maxWorkers ≤ manager.workerCount) :
    (manager.notifyClose now allSent).Slotted ∧ (manager.notifyClose now allSent).SlotsConserved := by
  unfold ResolverManager.notifyClose
  dsimp only
  split
  · next freed =>
      obtain ⟨started, configuration, filled⟩ :=
        slotted.startWaiting_iterate now allSent
          (manager.configuration.maxWorkers - (manager.workerCount - 1)).toNat
      refine ⟨started, started.count, filled.imp_right fun filled => ?_⟩
      rw [filled, configuration]
      dsimp only
      omega
  · next kept =>
      refine ⟨slotted, slotted.count, idle.imp_right fun full => ?_⟩
      by_contra below
      exact kept ⟨full, not_le.mp below⟩

theorem Slotted.closeWorker (slotted : manager.Slotted) (conserved : manager.SlotsConserved)
    (member : sock ∈ manager.workers) :
    (manager.closeWorker sock now allSent).Slotted ∧ (manager.closeWorker sock now allSent).SlotsConserved := by
  unfold ResolverManager.closeWorker
  refine Slotted.notifyClose ⟨⟨slotted.udp, fun other worker found => ?_⟩, ?_, ?_⟩ conserved.idle
  · exact slotted.own other worker (lookup_erase_iff.mp found).2
  · exact slotted.hosted.narrower (narrower_of_eq rfl rfl rfl)
  · have positive : 0 < manager.workers.keys.length := List.length_pos_of_mem member
    dsimp only
    rw [AList.keys_erase, List.length_erase_of_mem member, slotted.count]
    omega

/-- The slots are conserved, and what keeps them so. -/
def Kept (manager : ResolverManager α) : Prop := manager.Slotted ∧ manager.SlotsConserved

theorem Kept.same (kept : manager.Kept) (same : manager.SameWorkers after) (narrower : Narrower manager after) :
    after.Kept := ⟨kept.1.same same narrower, kept.2.same same⟩

theorem Kept.putWorker (kept : manager.Kept) {worker : Worker} (known : manager.workerOf sock = some worker)
    (drawn : Nat) : (manager.putWorker { worker with drawn }).Kept := by
  have housed := kept.1.toHoused.putWorker known drawn
  unfold ResolverManager.putWorker at housed ⊢
  rcases workerOf_some known with ⟨_, rfl⟩ | ⟨other, found⟩
  · rw [if_pos rfl]
    exact kept.same ⟨rfl, rfl, rfl, rfl, rfl, rfl⟩ (narrower_of_eq rfl rfl rfl)
  · obtain ⟨own, bound, -⟩ := kept.1.own sock worker found
    have total : (manager.workers.insert worker.socket { worker with drawn }).keys.length =
        manager.workers.keys.length := keys_insert_of_member (own ▸ lookup_mem found) _
    rw [if_neg (by rw [own]; exact other)] at housed ⊢
    refine ⟨⟨housed, kept.1.hosted.narrower (narrower_of_eq rfl rfl rfl), ?_⟩, ?_, kept.2.idle⟩
    · dsimp only
      rw [total, kept.1.count]
    · dsimp only
      rw [total, kept.1.count]

theorem narrower_of_erase {key : Nat × Nat} (resolving : after.resolving = manager.resolving.erase key)
    (sending : after.sending = manager.sending) (waiting : after.waiting = manager.waiting) :
    Narrower manager after := by
  refine narrower_of_tables (fun other lookup found => ?_) (fun sock lookup found => ?_) fun waiter listed => ?_
  · rw [resolving] at found
    exact .resolving (lookup_erase_iff.mp found).2
  · exact .sending (sending ▸ found)
  · exact .waiting (waiting ▸ listed)

theorem Kept.receive (kept : manager.Kept) {worker : Worker} (known : manager.workerOf sock = some worker)
    (result : Result) : (manager.receive worker result).Kept := by
  have drawn : (manager.drawFollowUp worker result).Kept := by
    unfold drawFollowUp
    split
    · exact kept.putWorker known _
    · exact kept
  unfold ResolverManager.receive popResolving
  split
  · exact drawn.same ⟨rfl, rfl, rfl, rfl, rfl, rfl⟩ (narrower_of_erase rfl rfl rfl)
  · exact drawn.same ⟨rfl, rfl, rfl, rfl, rfl, rfl⟩ (narrower_of_eq rfl rfl rfl)

theorem receive_known {worker : Worker} {result : Result} : Narrower manager (manager.receive worker result) := by
  obtain ⟨_, _, resolving, sending, _, waiting, _⟩ := receive_fields manager worker result
  cases asked : result.identifier with
  | none =>
      simp only [popResolving, asked] at resolving
      exact narrower_of_eq resolving sending waiting
  | some identifier =>
      simp only [popResolving, asked] at resolving
      exact narrower_of_erase resolving sending waiting

theorem Kept.track (kept : manager.Kept) {clidata : ClientData} {entry : Active} {lookup : Lookup α}
    {hostname : Str} (tracks : Tracks clidata entry lookup manager after)
    (extracted : extractHostname lookup.command lookup.decision = some hostname)
    (same : manager.SameWorkers after) : after.Kept := by
  refine ⟨⟨kept.1.toHoused.same same, kept.1.hosted.track tracks extracted, ?_⟩, kept.2.same same⟩
  rw [same.workerCount, same.workers, kept.1.count]

theorem Kept.beginResolvingTCP (kept : manager.Kept) {hostname : Str}
    (extracted : extractHostname command decision = some hostname) (clientId : ClientId) (resolveCount : Nat) :
    (manager.beginResolvingTCP now allSent clientId command decision resolveCount).1.Kept := by
  unfold ResolverManager.beginResolvingTCP
  split
  · next free =>
      have opens := newTCPResolver_opens manager now resolveCount allSent clientId extracted
      have tracks := newTCPResolver_tracks manager clientId now resolveCount allSent extracted
      have slotted := kept.1.opens opens (kept.1.hosted.track tracks extracted)
      refine ⟨slotted, slotted.count, ?_⟩
      rcases kept.2.idle with empty | full
      · exact .inl (opens.waiting.trans empty)
      · exact absurd free (not_lt.mpr full)
  · next full =>
      refine ⟨⟨⟨kept.1.udp, kept.1.own⟩, fun command' decision' known => ?_, kept.1.count⟩, kept.2.count,
        .inr (not_lt.mp full)⟩
      cases known with
      | resolving found => exact kept.1.hosted _ _ (.resolving found)
      | sending found => exact kept.1.hosted _ _ (.sending found)
      | waiting listed =>
          rcases List.mem_append.mp listed with earlier | last
          · exact kept.1.hosted _ _ (.waiting earlier)
          · rw [List.mem_singleton.mp last]
            exact ⟨hostname, extracted⟩

variable (now allSent) in
theorem Kept.answer (kept : manager.Kept) (worker : Worker) (result : Result) (identifier : Nat)
    (newidentifier : Option Nat) {lookup : Lookup α} (clidata : Option ClientData) {hostname : Str}
    (extracted : extractHostname lookup.command lookup.decision = some hostname) :
    (manager.answer now allSent worker result identifier newidentifier lookup clidata).1.Kept := by
  refine answer_cases ?_ ?_ ?_ (fun _ => kept) ?_
  · intro number newhost newcomplete _ _ _
    have tracks := track_tracks manager worker.wId number now 1 worker.socket { lookup with hostname := newhost }
    dsimp only
    split
    · exact kept.track (tracks.expectAnswer worker.socket) extracted ⟨rfl, rfl, rfl, rfl, rfl, rfl⟩
    · exact kept.track (tracks.expectWrite worker.socket lookup rfl rfl) extracted ⟨rfl, rfl, rfl, rfl, rfl, rfl⟩
  · intro client _ _ _ _
    exact kept.track (track_tracks _ _ _ _ _ _ _) extracted ⟨rfl, rfl, rfl, rfl, rfl, rfl⟩
  · intro ip _
    unfold cacheDestination
    split
    · exact kept
    · exact kept.same ⟨rfl, rfl, rfl, rfl, rfl, rfl⟩ (narrower_of_eq rfl rfl rfl)
  · intro _
    exact kept.beginResolvingTCP extracted _ _

theorem receive_member (manager : ResolverManager α) (worker : Worker) (result : Result)
    (member : sock ∈ manager.workers) : sock ∈ (manager.receive worker result).workers := by
  have drawn : sock ∈ (manager.drawFollowUp worker result).workers := by
    unfold drawFollowUp putWorker
    split
    · split
      · exact member
      · exact (AList.mem_insert _).mpr (.inr member)
    · exact member
  unfold ResolverManager.receive popResolving
  split <;> exact drawn

theorem Kept.getResponse (kept : manager.Kept) (result : Option Result) :
    (manager.getResponse now allSent sock result).1.Kept := by
  have listed : ∀ {worker}, manager.workerOf sock = some worker → sock ≠ manager.worker.socket →
      sock ∈ manager.workers := by
    intro worker known other
    rcases workerOf_some known with ⟨own, _⟩ | ⟨_, found⟩
    · exact absurd own other
    · exact lookup_mem found
  refine getResponse_cases (fun _ => kept) ?_ ?_ ?_
  · intro worker known _ other
    exact kept.1.closeWorker kept.2 (listed known other)
  · intro worker parsed known _ _
    exact kept.receive known parsed
  · intro worker parsed identifier lookup known _ found
    dsimp only
    have popped : ((manager.receive worker parsed).popLookup sock lookup).Kept :=
      (kept.receive known parsed).same ⟨rfl, rfl, rfl, rfl, rfl, rfl⟩ (narrower_of_eq rfl rfl rfl)
    obtain ⟨_, _, mapped⟩ := Option.bind_eq_some_iff.mp found
    obtain ⟨_, stored, paired⟩ := Option.map_eq_some_iff.mp mapped
    cases paired
    obtain ⟨hostname, extracted⟩ := kept.1.hosted _ _ (.resolving stored)
    have acted := popped.answer now allSent worker parsed identifier (followUp worker parsed)
      ((manager.receive worker parsed).clients.lookup lookup.clientId) extracted
    refine ⟨acted, fun given other => ?_⟩
    have member := receive_member manager worker parsed (listed known other)
    refine acted.1.closeWorker acted.2 ?_
    rw [(answer_given given).2.1]
    exact member

theorem Kept.continueSending (kept : manager.Kept) (sent : manager.continueSending sock = some after) :
    after.Kept := by
  have narrower := continueSending_known sent
  unfold ResolverManager.continueSending at sent
  split at sent
  · cases sent
  · split at sent
    · cases sent
      exact kept.same ⟨rfl, rfl, rfl, rfl, rfl, rfl⟩ narrower
    · split at sent <;> cases sent <;> exact kept.same ⟨rfl, rfl, rfl, rfl, rfl, rfl⟩ narrower

theorem Kept.startResolving (kept : manager.Kept) (clientId : ClientId) (resolveCount : Nat)
    (identifier : Option Nat) :
    (manager.startResolving now clientId command decision resolveCount identifier).1.Kept := by
  cases extracted : extractHostname command decision with
  | none =>
      simp only [ResolverManager.startResolving, extracted]
      exact kept
  | some hostname =>
      cases asked : manager.shortcut hostname command decision identifier.isNone with
      | some response =>
          simp only [ResolverManager.startResolving, extracted, asked]
          exact kept
      | none =>
          have tracks := startResolving_tracks manager clientId now resolveCount identifier extracted asked
          refine kept.track tracks extracted ?_
          simp only [ResolverManager.startResolving, extracted, asked]
          cases identifier <;> exact ⟨rfl, rfl, rfl, rfl, rfl, rfl⟩

theorem takeOut_same (manager : ResolverManager α) (entry : Active) (clidata : ClientData) :
    manager.SameWorkers (manager.takeOut entry clidata).1 ∧ Narrower manager (manager.takeOut entry clidata).1 := by
  unfold takeOut
  dsimp only
  split
  · exact ⟨⟨rfl, rfl, rfl, rfl, rfl, rfl⟩, narrower_of_erase rfl rfl rfl⟩
  · refine ⟨⟨rfl, rfl, rfl, rfl, rfl, rfl⟩, narrower_of_tables (fun _ _ found => .resolving found) ?_
      fun _ listed => .waiting listed⟩
    exact fun _ _ found => .sending (lookup_erase_iff.mp found).2

theorem dismiss_same (manager : ResolverManager α) {entry : Active} (absent : entry.socket ∉ manager.workers) :
    manager.SameWorkers (manager.dismiss entry) ∧ Narrower manager (manager.dismiss entry) := by
  unfold dismiss
  split
  · exact ⟨.refl manager, .refl manager⟩
  · exact ⟨⟨rfl, erase_absent absent, rfl, rfl, rfl, rfl⟩, narrower_of_eq rfl rfl rfl⟩

theorem startResolving_workers (manager : ResolverManager α) (now resolveCount : Nat) (clientId : ClientId)
    (command : Str) (decision : Decision α) (identifier : Option Nat) :
    (manager.startResolving now clientId command decision resolveCount identifier).1.workers = manager.workers := by
  unfold ResolverManager.startResolving
  split
  · rfl
  · split
    · rfl
    · cases identifier <;> rfl

variable (now) in
theorem Kept.expire (kept : manager.Kept) {entry : Active} (absent : entry.socket ∉ manager.workers) :
    (manager.expire now entry).1.Kept ∧ (manager.expire now entry).1.workers = manager.workers := by
  refine expire_cases (P := fun after => after.Kept ∧ after.workers = manager.workers) ?_ ?_ ?_
  · obtain ⟨same, narrower⟩ := dismiss_same manager absent
    exact ⟨kept.same same narrower, same.workers⟩
  · intro clidata _
    obtain ⟨taken, fewer⟩ := takeOut_same manager entry clidata
    obtain ⟨same, narrower⟩ := dismiss_same (manager.takeOut entry clidata).1
      (by rwa [taken.workers])
    exact ⟨(kept.same taken fewer).same same narrower, same.workers.trans taken.workers⟩
  · intro clidata lookup _ _ _
    obtain ⟨taken, fewer⟩ := takeOut_same manager entry clidata
    refine ⟨(kept.same taken fewer).startResolving _ _ _, ?_⟩
    rw [startResolving_workers, taken.workers]

/-- The entries that a `cleanup` comes to. -/
def timedOut (cutoff : Int) (watched : List Active) : List Active :=
  watched.takeWhile fun entry => (entry.time : Int) ≤ cutoff

theorem mem_timedOut_append {cutoff : Int} {entry : Active} {watched added : List Active}
    (member : entry ∈ timedOut cutoff (watched ++ added)) :
    entry ∈ timedOut cutoff watched ∨ entry ∈ added := by
  unfold timedOut at member ⊢
  rw [List.takeWhile_append] at member
  split at member
  · next all =>
      rcases List.mem_append.mp member with earlier | later
      · left
        rwa [List.IsPrefix.eq_of_length (List.takeWhile_prefix _) all]
      · exact .inr ((List.takeWhile_subset _) later)
  · exact .inl member

/-- The condition under which an operation conserves the slots: no entry that times out is
the one of an open TCP worker. -/
def SlotsKept (manager : ResolverManager α) : Event α → Prop
  | .cleanup now _ => ∀ entry ∈ timedOut ((now : Int) - manager.configuration.timeout) manager.active,
      entry.socket ∉ manager.workers
  | .start .. | .respond .. | .send .. | .expireCache .. => True

/-- The loop of `cleanup` may go on: it comes to no entry of an open TCP worker. -/
def Spared (cutoff : Int) (watched : List Active) (manager : ResolverManager α) : Prop :=
  manager.Kept ∧ ∀ entry ∈ timedOut cutoff watched, entry.socket ∉ manager.workers

theorem Spared.expire {cutoff : Int} {entry : Active} {rest added : List Active} (due : (entry.time : Int) ≤ cutoff)
    (spared : Spared cutoff (entry :: rest) manager)
    (sockets : ∀ entry ∈ added, entry.socket = manager.worker.socket) :
    Spared cutoff (rest ++ added) (manager.expire now entry).1 := by
  obtain ⟨kept, others⟩ := spared
  have entries : timedOut cutoff (entry :: rest) = entry :: timedOut cutoff rest :=
    List.takeWhile_cons_of_pos (by simpa using due)
  rw [entries] at others
  obtain ⟨expired, workers⟩ := kept.expire now (others entry List.mem_cons_self)
  refine ⟨expired, fun other listed => ?_⟩
  rw [workers]
  rcases mem_timedOut_append listed with earlier | later
  · exact others other (List.mem_cons_of_mem _ earlier)
  · -- what is added is watched under the UDP worker
    intro member
    obtain ⟨worker, found⟩ := Option.isSome_iff_exists.mp (AList.lookup_isSome.mpr member)
    exact (kept.1.own _ _ found).2.2 (sockets other later)

theorem Spared.cleanup {clock : Nat → Nat} {fuel : Nat} {responses : List (ClientId × Response α)}
    (spared : Spared ((now : Int) - manager.configuration.timeout) manager.active manager)
    (ended : manager.cleanup now clock fuel = some (after, responses)) : after.Kept := by
  have first : Spared ((now : Int) - manager.configuration.timeout) (manager.active.drop 0) manager := spared
  obtain ⟨left, last, ⟨kept, -⟩, rfl⟩ := cleanupLoop_rule
    (fun _ _ _ _ _ due spared _ sockets => Spared.expire due spared sockets) first ended
  exact kept.same ⟨rfl, rfl, rfl, rfl, rfl, rfl⟩ (narrower_of_eq rfl rfl rfl)

theorem Kept.handle (kept : manager.Kept) {event : Event α} (keeps : manager.SlotsKept event) {fuel : Nat}
    (handled : manager.handle fuel event = some after) : after.Kept := by
  cases event with
  | start now clientId command decision =>
      cases handled
      exact kept.startResolving clientId 1 none
  | respond now allSent sock result =>
      simp only [ResolverManager.handle] at handled
      split at handled
      · cases handled
      · cases handled
        exact kept.getResponse result
  | send sock => exact kept.continueSending handled
  | cleanup now clock =>
      obtain ⟨⟨cleaned, responses⟩, ended, rfl⟩ := Option.map_eq_some_iff.mp handled
      exact Spared.cleanup ⟨kept, keeps⟩ ended
  | expireCache now =>
      cases handled
      refine kept.same ?_ (expireCache_same manager now).narrower
      unfold expireCache
      split
      · exact .refl manager
      · split
        · exact ⟨rfl, rfl, rfl, rfl, rfl, rfl⟩
        · exact .refl manager

theorem Start.kept (started : Start manager) : manager.Kept := by
  obtain ⟨configuration, rfl⟩ := started
  refine ⟨⟨⟨Nat.zero_lt_one, fun _ _ found => nomatch found⟩, fun command decision known => ?_, rfl⟩, rfl, .inl rfl⟩
  cases known with
  | resolving found => cases found
  | sending found => cases found
  | waiting listed => cases listed

/-- A step that meets the condition. -/
def SlotStep (before after : ResolverManager α) : Prop :=
  ∃ event fuel, before.SlotsKept event ∧ before.handle fuel event = some after

/-- The slots are conserved in every run in which no entry of an open TCP worker times out. -/
theorem slots_conserved (reached : Reachable Start SlotStep manager) : manager.SlotsConserved := by
  have kept : manager.Kept := by
    refine reached.invariant Kept (fun _ started => started.kept) ?_
    intro before after _ kept ⟨event, fuel, keeps, handled⟩
    exact kept.handle keeps handled
  exact kept.2

/-- The default configuration. -/
def atStart : ResolverManager Unit where
  configuration := ⟨2, 10, 900, true, 100⟩

def lookupStart : Event Unit := .start 0 1 (ascii "download") ⟨ascii "a.b", ()⟩

/-- An answer that was truncated, so that the query goes out over TCP. -/
def truncatedAnswer : Event Unit :=
  .respond 0 (fun _ => true) 0 (some ⟨some 1, some (ascii "a.b"), none, false, none⟩)

theorem slots_conserved_tcp : ∃ between ∈ atStart.handle 1 lookupStart,
    ∃ manager ∈ between.handle 1 truncatedAnswer, manager.workerCount = 2 ∧ manager.SlotsConserved := by
  have opened : ∃ between ∈ atStart.handle 1 lookupStart, ∃ manager ∈ between.handle 1 truncatedAnswer,
      manager.workerCount = 2 := by decide +kernel
  obtain ⟨between, first, manager, second, two⟩ := opened
  have asked : Reachable Start SlotStep between :=
    (Reachable.start ⟨_, rfl⟩).next ⟨lookupStart, 1, trivial, first⟩
  exact ⟨between, first, manager, second, two,
    slots_conserved (asked.next ⟨truncatedAnswer, 1, trivial, second⟩)⟩

/-- The answer over TCP names another host, whose query times out: the worker is closed and
its slot stays taken. -/
def followedOverTCP : List (Event Unit) :=
  [lookupStart, truncatedAnswer,
    .respond 0 (fun _ => true) 1 (some ⟨some 1, some (ascii "a.b"), none, true, some (ascii "c.d", true)⟩),
    .cleanup 10 fun _ => 10]

theorem slot_lost : ¬ ∀ manager : ResolverManager Unit,
    Reachable Start (fun before after => ∃ event fuel, before.handle fuel event = some after) manager →
    manager.workerCount = manager.workers.keys.length + 1 := by
  intro conserved
  have lost : ∃ manager ∈ followedOverTCP.foldlM (handle 5) atStart,
      manager.workerCount ≠ manager.workers.keys.length + 1 := by decide +kernel
  obtain ⟨manager, ended, differs⟩ := lost
  have reached : Reachable Start (fun before after => ∃ event fuel, before.handle fuel event = some after) manager :=
    (Reachable.start ⟨_, rfl⟩).foldlM (fun _ event _ handled => ⟨event, 5, handled⟩) ended
  exact differs (conserved manager reached)

end ResolverManager

end ExaProxy.Resolver
