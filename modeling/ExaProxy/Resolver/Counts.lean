import ExaProxy.Resolver.Client
import ExaProxy.Resolver.Slots

namespace ExaProxy.Resolver

open ExaProxy.Data

/-! The follow-up queries that are made for one call of `startResolving`.  The calls are
numbered, and the number of a call goes wherever its decision goes. -/

abbrev Lookup.call {α : Type} (lookup : Lookup (Nat × α)) : Nat := lookup.decision.args.1
abbrev Waiting.call {α : Type} (waiting : Waiting (Nat × α)) : Nat := waiting.decision.args.1

namespace ResolverManager

variable {α : Type} {manager after : ResolverManager (Nat × α)} {now : Nat} {allSent : Sock → Bool} {sock : Sock}
  {asked : Nat → Nat} {calls call number : Nat} {lookup : Lookup (Nat × α)}

/-- `chained.get(identifier, 0)` -/
def count {β : Type} (manager : ResolverManager β) (identifier : Nat) : Nat :=
  (manager.chained.lookup identifier).getD 0

/-- What is known of the queries that are filed: `asked` counts the follow-ups of each call. -/
structure Accounted (asked : Nat → Nat) (calls : Nat) (manager : ResolverManager (Nat × α)) : Prop
    extends Housed manager where
  bounded : ∀ call, asked call ≤ 10
  counted : ∀ key lookup, manager.resolving.lookup key = some lookup → manager.count key.2 = asked lookup.call
  single : ∀ key other first second, manager.resolving.lookup key = some first →
    manager.resolving.lookup other = some second → first.call = second.call → key = other
  patient : ∀ waiting ∈ manager.waiting, asked waiting.call = 0 ∧
    ∀ key lookup, manager.resolving.lookup key = some lookup → lookup.call ≠ waiting.call
  distinct : (manager.waiting.map Waiting.call).Nodup
  known : ∀ command decision, manager.Known command decision → decision.args.1 < calls
  fresh : ∀ call, calls ≤ call → asked call = 0
  unsent : manager.worker.socket ∉ manager.sending

/-- No query is filed for the call, nor does it wait. -/
def Loose (manager : ResolverManager (Nat × α)) (call : Nat) : Prop :=
  (∀ key lookup, manager.resolving.lookup key = some lookup → lookup.call ≠ call) ∧
    ∀ waiting ∈ manager.waiting, waiting.call ≠ call

/-- Nothing that concerns the follow-ups differs, but queries may be gone. -/
structure Fewer (before after : ResolverManager (Nat × α)) : Prop where
  resolving : ∀ key lookup, after.resolving.lookup key = some lookup → before.resolving.lookup key = some lookup
  sending : ∀ sock lookup, after.sending.lookup sock = some lookup → before.sending.lookup sock = some lookup
  waiting : after.waiting = before.waiting
  chained : after.chained = before.chained
  worker : after.worker.socket = before.worker.socket
  housed : before.Housed → after.Housed

theorem Fewer.narrower (fewer : Fewer manager after) : Narrower manager after :=
  narrower_of_tables (fun _ _ found => .resolving (fewer.resolving _ _ found))
    (fun _ _ found => .sending (fewer.sending _ _ found)) fun _ listed => .waiting (fewer.waiting ▸ listed)

theorem Loose.fewer (loose : manager.Loose call) (fewer : Fewer manager after) : after.Loose call := by
  refine ⟨fun key lookup found => loose.1 key lookup (fewer.resolving key lookup found), ?_⟩
  rw [fewer.waiting]
  exact loose.2

theorem Accounted.fewer (accounted : Accounted asked calls manager) (fewer : Fewer manager after) :
    Accounted asked calls after where
  toHoused := fewer.housed accounted.toHoused
  bounded := accounted.bounded
  counted key lookup found := by
    rw [count, fewer.chained]
    exact accounted.counted key lookup (fewer.resolving key lookup found)
  single key other first second found stored :=
    accounted.single key other first second (fewer.resolving _ _ found) (fewer.resolving _ _ stored)
  patient waiting listed := by
    obtain ⟨zero, apart⟩ := accounted.patient waiting (fewer.waiting ▸ listed)
    exact ⟨zero, fun key lookup found => apart key lookup (fewer.resolving key lookup found)⟩
  distinct := by
    rw [fewer.waiting]
    exact accounted.distinct
  known command decision known := accounted.known command decision (fewer.narrower command decision known)
  fresh := accounted.fresh
  unsent member := by
    obtain ⟨lookup, found⟩ := Option.isSome_iff_exists.mp (AList.lookup_isSome.mpr member)
    rw [fewer.worker] at found
    exact accounted.unsent (lookup_mem (fewer.sending _ _ found))

theorem Accounted.file (accounted : Accounted asked calls manager) {clidata : ClientData} {entry : Active}
    (tracks : Tracks clidata entry lookup manager after) (loose : manager.Loose lookup.call)
    (early : lookup.call < calls) (count : manager.count clidata.identifier = asked lookup.call)
    (chained : after.chained = manager.chained) (housed : after.Housed)
    (unsent : after.worker.socket ∉ after.sending) : Accounted asked calls after where
  toHoused := housed
  bounded := accounted.bounded
  counted key stored found := by
    rw [ResolverManager.count, chained]
    rw [tracks.resolving, lookup_insert_iff] at found
    rcases found with ⟨rfl, rfl⟩ | ⟨_, found⟩
    · exact count
    · exact accounted.counted key stored found
  single key other first second found stored same := by
    rw [tracks.resolving, lookup_insert_iff] at found stored
    rcases found with ⟨rfl, rfl⟩ | ⟨_, found⟩
    · rcases stored with ⟨rfl, rfl⟩ | ⟨_, stored⟩
      · rfl
      · exact absurd same.symm (loose.1 _ _ stored)
    · rcases stored with ⟨rfl, rfl⟩ | ⟨_, stored⟩
      · exact absurd same (loose.1 _ _ found)
      · exact accounted.single key other first second found stored same
  patient waiting listed := by
    rw [tracks.waiting] at listed
    obtain ⟨zero, apart⟩ := accounted.patient waiting listed
    refine ⟨zero, fun key stored found => ?_⟩
    rw [tracks.resolving, lookup_insert_iff] at found
    rcases found with ⟨_, rfl⟩ | ⟨_, found⟩
    · exact (loose.2 waiting listed).symm
    · exact apart key stored found
  distinct := by
    rw [tracks.waiting]
    exact accounted.distinct
  known command decision known := by
    rcases tracks.known known with earlier | ⟨_, rfl⟩
    · exact accounted.known command decision earlier
    · exact early
  fresh := accounted.fresh
  unsent := unsent

theorem Accounted.bump (accounted : Accounted asked calls manager) (loose : manager.Loose call)
    (early : call < calls) (few : asked call < 10) :
    Accounted (Function.update asked call (asked call + 1)) calls manager where
  toHoused := accounted.toHoused
  bounded other := by
    by_cases same : other = call
    · subst same
      rw [Function.update_self]
      omega
    · rw [Function.update_of_ne same]
      exact accounted.bounded other
  counted key lookup found := by
    rw [Function.update_of_ne (loose.1 key lookup found)]
    exact accounted.counted key lookup found
  single := accounted.single
  patient waiting listed := by
    rw [Function.update_of_ne (loose.2 waiting listed)]
    exact accounted.patient waiting listed
  distinct := accounted.distinct
  known := accounted.known
  fresh other late := by
    rw [Function.update_of_ne (by omega)]
    exact accounted.fresh other late
  unsent := accounted.unsent

theorem unsent_insert {manager : ResolverManager (Nat × α)} {other : Sock} (unsent : manager.worker.socket ∉ manager.sending)
    (apart : manager.worker.socket ≠ other) (lookup : Lookup (Nat × α)) :
    manager.worker.socket ∉ manager.sending.insert other lookup := by
  intro member
  rcases (AList.mem_insert _).mp member with same | earlier
  · exact apart same
  · exact unsent earlier

variable (now allSent) in
theorem Accounted.newTCPResolver (accounted : Accounted asked calls manager) (command : Str)
    {decision : Decision (Nat × α)} (loose : manager.Loose decision.args.1) (early : decision.args.1 < calls)
    (count : manager.count 1 = asked decision.args.1) (clientId : ClientId) (resolveCount : Nat) :
    Accounted asked calls (manager.newTCPResolver now allSent clientId command decision resolveCount).1 := by
  cases extracted : extractHostname command decision with
  | none =>
      simp only [ResolverManager.newTCPResolver, extracted]
      exact accounted
  | some hostname =>
      have opens := newTCPResolver_opens manager now resolveCount allSent clientId extracted
      have tracks := newTCPResolver_tracks manager clientId now resolveCount allSent extracted
      refine accounted.file tracks loose early count opens.chained (opens.housed accounted.toHoused) ?_
      rw [opens.worker]
      have apart := Nat.ne_of_lt accounted.udp
      simp only [ResolverManager.newTCPResolver, extracted]
      split
      · exact accounted.unsent
      · exact unsent_insert accounted.unsent apart _

theorem Accounted.beginResolvingTCP (accounted : Accounted asked calls manager) {command : Str}
    {decision : Decision (Nat × α)} (loose : manager.Loose decision.args.1) (early : decision.args.1 < calls)
    (zero : asked decision.args.1 = 0)
    (free : manager.workerCount < manager.configuration.maxWorkers → manager.count 1 = 0)
    (clientId : ClientId) (resolveCount : Nat) :
    Accounted asked calls (manager.beginResolvingTCP now allSent clientId command decision resolveCount).1 := by
  unfold ResolverManager.beginResolvingTCP
  split
  · next slot =>
      have opened := accounted.newTCPResolver now allSent command loose early
        ((free slot).trans zero.symm) clientId resolveCount
      exact opened.fewer ⟨fun _ _ found => found, fun _ _ found => found, rfl, rfl, rfl, fun housed => ⟨housed.udp, housed.own⟩⟩
  · refine { accounted with
      toHoused := ⟨accounted.udp, accounted.own⟩
      patient := fun waiting listed => ?_
      distinct := ?_
      known := fun command' decision' known => ?_ }
    · rcases List.mem_append.mp listed with earlier | last
      · exact accounted.patient waiting earlier
      · rw [List.mem_singleton.mp last]
        exact ⟨zero, loose.1⟩
    · rw [List.map_append, List.nodup_append]
      refine ⟨accounted.distinct, List.nodup_singleton _, fun other listed last same => ?_⟩
      obtain ⟨waiting, member, rfl⟩ := List.mem_map.mp listed
      intro equal
      rw [List.map_singleton, List.mem_singleton] at same
      exact loose.2 waiting member (equal.trans same)
    · cases known with
      | resolving found => exact accounted.known _ _ (.resolving found)
      | sending found => exact accounted.known _ _ (.sending found)
      | waiting listed =>
          rcases List.mem_append.mp listed with earlier | last
          · exact accounted.known _ _ (.waiting earlier)
          · rw [List.mem_singleton.mp last]
            exact early

theorem Accounted.unqueue (accounted : Accounted asked calls manager) {waiting : Waiting (Nat × α)}
    {rest : List (Waiting (Nat × α))} (listed : manager.waiting = waiting :: rest) :
    Accounted asked calls { manager with waiting := rest } ∧ Loose { manager with waiting := rest } waiting.call ∧
      asked waiting.call = 0 ∧ waiting.call < calls := by
  have member : waiting ∈ manager.waiting := by
    rw [listed]
    exact List.mem_cons_self
  have later : ∀ other ∈ rest, other ∈ manager.waiting := fun other tail => by
    rw [listed]
    exact List.mem_cons_of_mem _ tail
  have distinct := accounted.distinct
  rw [listed, List.map_cons, List.nodup_cons] at distinct
  obtain ⟨zero, apart⟩ := accounted.patient waiting member
  refine ⟨{ accounted with
    toHoused := ⟨accounted.udp, accounted.own⟩
    patient := fun other tail => accounted.patient other (later other tail)
    distinct := distinct.2
    known := fun command decision known => ?_ }, ⟨apart, fun other tail same => ?_⟩, zero,
    accounted.known _ _ (.waiting member)⟩
  · cases known with
    | resolving found => exact accounted.known _ _ (.resolving found)
    | sending found => exact accounted.known _ _ (.sending found)
    | waiting tail => exact accounted.known _ _ (.waiting (later _ tail))
  · exact distinct.1 (List.mem_map.mpr ⟨other, tail, same⟩)

/-- A lookup that waits finds no count that is left over. -/
def Startable (manager : ResolverManager (Nat × α)) : Prop := manager.waiting ≠ [] → manager.count 1 = 0

theorem Accounted.startWaiting (accounted : Accounted asked calls manager) (startable : manager.Startable) :
    Accounted asked calls (manager.startWaiting now allSent) ∧ (manager.startWaiting now allSent).Startable := by
  unfold ResolverManager.startWaiting
  split
  · exact ⟨accounted, startable⟩
  · next clientId command decision resolveCount rest listed =>
      obtain ⟨shorter, loose, zero, early⟩ := accounted.unqueue listed
      have first : manager.count 1 = 0 := startable (by rw [listed]; exact List.cons_ne_nil _ _)
      have opened := shorter.newTCPResolver now allSent command loose early
        (first.trans zero.symm) clientId resolveCount
      refine ⟨opened.fewer ⟨fun _ _ found => found, fun _ _ found => found, rfl, rfl, rfl,
        fun housed => ⟨housed.udp, housed.own⟩⟩, fun _ => ?_⟩
      have chained : ({ manager with waiting := rest }.newTCPResolver now allSent clientId command decision
          resolveCount).1.chained = manager.chained := by
        cases extracted : extractHostname command decision with
        | none => simp only [ResolverManager.newTCPResolver, extracted]
        | some hostname => exact (newTCPResolver_opens _ now resolveCount allSent clientId extracted).chained
      rw [count] at first ⊢
      dsimp only
      rw [chained]
      exact first

theorem Accounted.closeWorker (accounted : Accounted asked calls manager) (startable : manager.Startable) :
    Accounted asked calls (manager.closeWorker sock now allSent) := by
  unfold ResolverManager.closeWorker
  refine And.left (notifyClose_rule (P := fun m => Accounted asked calls m ∧ m.Startable)
    (fun m ⟨kept, able⟩ => kept.startWaiting able) ⟨?_, startable⟩)
  refine accounted.fewer ⟨fun _ _ found => found, fun _ _ found => found, rfl, rfl, rfl, fun housed => ?_⟩
  exact ⟨housed.udp, fun other worker found => housed.own other worker (lookup_erase_iff.mp found).2⟩

theorem receive_count (manager : ResolverManager (Nat × α)) (worker : Worker) (result : Result) (number : Nat) :
    (manager.receive worker result).count number =
      if followUp worker result = some number then result.identifier.elim 0 manager.count + 1
      else if result.identifier = some number then 0 else manager.count number := by
  have same : ((manager.drawFollowUp worker result).popResolving worker result).chained = manager.chained := by
    unfold popResolving drawFollowUp putWorker
    split
    · split
      · split <;> rfl
      · rfl
    · split
      · split <;> rfl
      · rfl
  have count : (result.identifier.bind ((manager.drawFollowUp worker result).popResolving worker
      result).chained.lookup).getD 0 = result.identifier.elim 0 manager.count := by
    rw [same]
    cases result.identifier <;> rfl
  have popped : ((result.identifier.elim manager.chained manager.chained.erase).lookup number).getD 0 =
      if result.identifier = some number then 0 else manager.count number := by
    cases result.identifier with
    | none => rfl
    | some identifier =>
        by_cases own : identifier = number
        · subst own
          simp [AList.lookup_erase]
        · simp only [Option.elim_some, Option.some.injEq, own, if_false]
          rw [AList.lookup_erase_ne (Ne.symm own)]
          rfl
  unfold ResolverManager.receive chain ResolverManager.count
  dsimp only
  rw [count, same]
  cases drawn : followUp worker result with
  | none => exact popped
  | some new =>
      by_cases own : new = number
      · subst own
        rw [AList.lookup_insert, if_pos rfl]
        rfl
      · simp only [Option.some.injEq, own, if_false]
        rw [AList.lookup_insert_ne (Ne.symm own)]
        exact popped

/-- The count of the answer is not the one of another query: no worker has a query under the
same identifier, where that has a count, nor under the one of the follow-up. -/
structure CountsApart (manager : ResolverManager (Nat × α)) (worker : Worker) (result : Result) : Prop where
  shared : ∀ identifier, result.identifier = some identifier → manager.count identifier ≠ 0 →
    ∀ wId, (wId, identifier) ∈ manager.resolving → wId = worker.wId
  drawn : ∀ number, followUp worker result = some number → ∀ wId, (wId, number) ∈ manager.resolving →
    wId = worker.wId ∧ result.identifier = some number

variable {worker : Worker} {result : Result} {identifier : Nat}

theorem answered_filed (found : manager.answered worker result = some (identifier, lookup)) :
    result.identifier = some identifier ∧ manager.resolving.lookup (worker.wId, identifier) = some lookup := by
  obtain ⟨_, asked, mapped⟩ := Option.bind_eq_some_iff.mp found
  obtain ⟨_, stored, paired⟩ := Option.map_eq_some_iff.mp mapped
  cases paired
  exact ⟨asked, stored⟩

theorem receive_filed {key : Nat × Nat} {stored : Lookup (Nat × α)}
    (found : (manager.receive worker result).resolving.lookup key = some stored) :
    manager.resolving.lookup key = some stored ∧ ∀ identifier, result.identifier = some identifier →
      key ≠ (worker.wId, identifier) := by
  obtain ⟨_, _, resolving, _⟩ := receive_fields manager worker result
  rw [resolving] at found
  unfold popResolving at found
  split at found
  · next identifier asked =>
      obtain ⟨other, earlier⟩ := lookup_erase_iff.mp found
      refine ⟨earlier, fun number same => ?_⟩
      rw [asked] at same
      cases same
      exact other
  · next silent =>
      refine ⟨found, fun number same => ?_⟩
      rw [silent] at same
      cases same

theorem receive_udp (manager : ResolverManager (Nat × α)) (worker : Worker) (result : Result) :
    (manager.receive worker result).worker.socket = manager.worker.socket := by
  have drawn : (manager.drawFollowUp worker result).worker.socket = manager.worker.socket := by
    unfold drawFollowUp putWorker
    split
    · split
      · next own => exact own
      · rfl
    · rfl
  unfold ResolverManager.receive popResolving
  split <;> exact drawn

theorem Accounted.receive (accounted : Accounted asked calls manager) (known : manager.workerOf sock = some worker)
    (apart : manager.CountsApart worker result) : Accounted asked calls (manager.receive worker result) := by
  obtain ⟨_, _, _, sending, _, waiting, _⟩ := receive_fields manager worker result
  have udp := receive_udp manager worker result
  refine { accounted with
    toHoused := accounted.toHoused.receive known result
    counted := fun key stored found => ?_
    single := fun key other first second found stored => ?_
    patient := fun waiter listed => ?_
    distinct := ?_
    known := fun command decision known => accounted.known _ _ (receive_known _ _ known)
    unsent := ?_ }
  · obtain ⟨earlier, other⟩ := receive_filed found
    rw [receive_count]
    split
    · next drawn =>
        obtain ⟨same, asked⟩ := apart.drawn key.2 drawn key.1 (lookup_mem earlier)
        exact (other key.2 asked (Prod.ext same rfl)).elim
    · split
      · next asked =>
          rw [← accounted.counted key stored earlier]
          by_contra counted
          have same := apart.shared key.2 asked (Ne.symm counted) key.1 (lookup_mem earlier)
          exact other key.2 asked (Prod.ext same rfl)
      · exact accounted.counted key stored earlier
  · exact accounted.single key other first second (receive_filed found).1 (receive_filed stored).1
  · rw [waiting] at listed
    obtain ⟨zero, apart⟩ := accounted.patient waiter listed
    exact ⟨zero, fun key stored found => apart key stored (receive_filed found).1⟩
  · rw [waiting]
    exact accounted.distinct
  · rw [udp, sending]
    exact accounted.unsent

theorem Accounted.answered (accounted : Accounted asked calls manager)
    (found : manager.answered worker result = some (identifier, lookup)) :
    (manager.receive worker result).Loose lookup.call ∧ lookup.call < calls ∧
      asked lookup.call = manager.count identifier := by
  obtain ⟨_, _, _, _, _, waiting, _⟩ := receive_fields manager worker result
  obtain ⟨asked, stored⟩ := answered_filed found
  refine ⟨⟨fun key other filed same => ?_, fun waiter listed same => ?_⟩, accounted.known _ _ (.resolving stored),
    (accounted.counted _ _ stored).symm⟩
  · obtain ⟨earlier, apart⟩ := receive_filed filed
    exact apart identifier asked (accounted.single _ _ _ _ earlier stored same)
  · rw [waiting] at listed
    exact (accounted.patient waiter listed).2 _ _ stored same.symm

/-- What an answer for a filed query must meet for its count to stay with the lookup: one that
is truncated, or for another host, comes before any follow-up, and a lookup that goes on over
TCP finds no count left over under its new identifier. -/
structure CountCarried (manager : ResolverManager (Nat × α)) (sock : Sock) (result : Result) (identifier : Nat)
    (lookup : Lookup (Nat × α)) : Prop where
  truncated : result.completed = false → manager.count identifier = 0 ∧ result.followUp = none ∧
    (manager.workerCount < manager.configuration.maxWorkers → manager.count 1 = 0)
  refiled : result.completed = true → result.followUp = none → result.forhost ≠ some lookup.hostname →
    manager.count identifier = 0
  closed : result.completed = true → result.followUp = none → result.forhost = some lookup.hostname →
    sock ≠ manager.worker.socket → manager.waiting ≠ [] → identifier = 1 ∨ manager.count 1 = 0

/-- The condition for an answer of a worker. -/
def AnswerCounted (manager : ResolverManager (Nat × α)) (sock : Sock) (worker : Worker) : Option Result → Prop
  | none => sock ≠ manager.worker.socket → manager.Startable
  | some result => manager.CountsApart worker result ∧
      match manager.answered worker result with
      | none => result.followUp = none
      | some (identifier, lookup) => manager.CountCarried sock result identifier lookup

/-- The call on whose behalf an answer makes a follow-up query. -/
def followed (manager : ResolverManager (Nat × α)) (sock : Sock) (result : Option Result) : Option Nat :=
  (manager.workerOf sock).bind fun worker => result.bind fun parsed => parsed.followUp.bind fun _ =>
    (manager.answered worker parsed).map fun (_, lookup) => lookup.call

/-- The follow-ups of the calls, with one more. -/
def noted (asked : Nat → Nat) : Option Nat → Nat → Nat
  | some call => Function.update asked call (asked call + 1)
  | none => asked

theorem followUp_none (worker : Worker) {result : Result} :
    followUp worker result = none ∨ result.followUp = none ↔ result.followUp = none := by
  cases result with
  | mk _ _ _ _ query => cases query <;> simp [followUp]

theorem Accounted.answer (accounted : Accounted asked calls manager) (loose : manager.Loose lookup.call)
    (early : lookup.call < calls) {clidata : Option ClientData}
    (truncated : result.completed = false → asked lookup.call = 0 ∧ result.followUp = none ∧
      (manager.workerCount < manager.configuration.maxWorkers → manager.count 1 = 0))
    (refiled : result.completed = true → result.followUp = none → result.forhost ≠ some lookup.hostname →
      manager.count identifier = asked lookup.call)
    (followed : ∀ newhost newcomplete, result.followUp = some (newhost, newcomplete) → asked lookup.call < 10 ∧
      (∀ number, followUp worker result = some number → manager.count number = asked lookup.call + 1) ∧
      (newcomplete = false → worker.socket ≠ manager.worker.socket)) :
    Accounted (noted asked (result.followUp.map fun _ => lookup.call)) calls
      (manager.answer now allSent worker result identifier (followUp worker result) lookup clidata).1 := by
  refine answer_cases ?_ ?_ ?_ ?_ ?_
  · intro number newhost newcomplete _ drawn query
    obtain ⟨few, next, whole⟩ := followed newhost newcomplete query
    rw [query, Option.map_some]
    have bumped := accounted.bump loose early few
    have count : manager.count number = Function.update asked lookup.call (asked lookup.call + 1) lookup.call := by
      rw [Function.update_self]
      exact next number drawn
    have tracks := track_tracks manager worker.wId number now 1 worker.socket { lookup with hostname := newhost }
    cases newcomplete with
    | true =>
        exact bumped.file (tracks.expectAnswer worker.socket) loose early count rfl ⟨accounted.udp, accounted.own⟩
          accounted.unsent
    | false =>
        exact bumped.file (tracks.expectWrite worker.socket lookup rfl rfl) loose early count rfl
          ⟨accounted.udp, accounted.own⟩ (unsent_insert accounted.unsent (whole rfl).symm _)
  · intro client completed silent other _
    have unfollowed := (followUp_none worker).mp silent
    rw [unfollowed]
    exact accounted.file (track_tracks _ _ _ _ _ _ _) loose early (refiled completed unfollowed other) rfl
      ⟨accounted.udp, accounted.own⟩ accounted.unsent
  · intro ip silent
    rw [(followUp_none worker).mp silent]
    unfold cacheDestination
    split
    · exact accounted
    · exact accounted.fewer ⟨fun _ _ found => found, fun _ _ found => found, rfl, rfl, rfl,
        fun housed => ⟨housed.udp, housed.own⟩⟩
  · intro silent
    rw [(followUp_none worker).mp silent]
    exact accounted
  · intro incomplete
    obtain ⟨zero, unfollowed, free⟩ := truncated incomplete
    rw [unfollowed]
    exact accounted.beginResolvingTCP loose early zero free _ _

/-- What a worker can make of what it reads: nothing, where that is no response; no result
yet, where a response over TCP is not whole; or what is found in the response.  A follow-up
over UDP is always sent completely. -/
inductive Reads (configuration : DNSClient.Configuration) (manager : ResolverManager (Nat × α)) (sock : Sock) :
    Option Result → Prop where
  | unreadable : Reads configuration manager sock none
  | incomplete (other : sock ≠ manager.worker.socket) :
      Reads configuration manager sock (some ⟨none, none, none, true, none⟩)
  | response (response : Dns.DNSResponseType) (random turns : Nat → Nat) (fuel : Nat) (found : DNSClient.Found)
      (sent : Bool)
      (looked : DNSClient.find configuration (manager.count response.identifier) random turns fuel response = some found)
      (whole : sock = manager.worker.socket → sent = true) :
      Reads configuration manager sock (some (found.result response sent))

/-- A worker makes a follow-up only while the count is below ten. -/
theorem Reads.followUp {configuration : DNSClient.Configuration}
    (reads : Reads configuration manager sock (some result)) {newhost : Str} {newcomplete : Bool}
    (query : result.followUp = some (newhost, newcomplete)) :
    (∃ identifier, result.identifier = some identifier ∧ manager.count identifier < 10) ∧
      (newcomplete = false → sock ≠ manager.worker.socket) := by
  cases reads with
  | incomplete => cases query
  | response response random turns fuel found sent looked whole =>
      obtain ⟨⟨newhost', qtype⟩, asked, paired⟩ := Option.map_eq_some_iff.mp query
      cases paired
      refine ⟨⟨_, rfl, ?_⟩, fun unsent own => ?_⟩
      · by_contra many
        obtain ⟨⟨qtype', value⟩, _, looked⟩ := Option.bind_eq_some_iff.mp looked
        simp only [if_neg many] at looked
        cases looked
        cases asked
      · rw [whole own] at unsent
        cases unsent

theorem Accounted.getResponse (accounted : Accounted asked calls manager)
    {configuration : DNSClient.Configuration} {result : Option Result} (reads : Reads configuration manager sock result)
    (kept : ∀ worker, manager.workerOf sock = some worker → manager.AnswerCounted sock worker result) :
    Accounted (noted asked (manager.followed sock result)) calls (manager.getResponse now allSent sock result).1 := by
  refine getResponse_cases ?_ ?_ ?_ ?_
  · intro silent
    have unfollowed : manager.followed sock result = none := by
      unfold followed
      rcases silent with unknown | unread
      · rw [unknown]
        rfl
      · rw [unread]
        cases manager.workerOf sock <;> rfl
    rw [unfollowed]
    exact accounted
  · intro worker known unread other
    have unfollowed : manager.followed sock result = none := by
      rw [followed, known, unread]
      rfl
    have startable := kept worker known
    rw [unread] at startable
    rw [unfollowed]
    exact accounted.closeWorker (startable other)
  · intro worker parsed known read unclaimed
    have counted := kept worker known
    rw [read, AnswerCounted, unclaimed] at counted
    obtain ⟨apart, unfollowed⟩ := counted
    have silent : manager.followed sock result = none := by
      rw [followed, known, read]
      simp [unfollowed]
    rw [silent]
    exact accounted.receive known apart
  · intro worker parsed identifier lookup known read found
    have counted := kept worker known
    rw [read, AnswerCounted, found] at counted
    obtain ⟨apart, carried⟩ := counted
    obtain ⟨loose, early, own⟩ := accounted.answered found
    have followed : manager.followed sock result = parsed.followUp.map fun _ => lookup.call := by
      rw [ResolverManager.followed, known, read]
      simp only [Option.bind_some, found, Option.map_some]
      cases parsed.followUp <;> rfl
    have popped : Fewer (manager.receive worker parsed) ((manager.receive worker parsed).popLookup sock lookup) :=
      ⟨fun _ _ found => found, fun _ _ found => found, rfl, rfl, rfl, fun housed => ⟨housed.udp, housed.own⟩⟩
    obtain ⟨identified, _⟩ := answered_filed found
    obtain ⟨configuration', _, _, _, _, waiting, workerCount, _⟩ := receive_fields manager worker parsed
    have unfollowed : ∀ {number}, parsed.followUp = none → (number = identifier ∨ manager.count number = 0) →
        (manager.receive worker parsed).count number = 0 := by
      intro number silent zero
      have undrawn : followUp worker parsed = none := by rw [ResolverManager.followUp, silent]; rfl
      rw [receive_count, undrawn, identified, if_neg (by simp)]
      split
      · rfl
      · next other => exact zero.resolve_left fun same => other (congrArg some same.symm)
    rw [followed]
    have answered : Accounted (noted asked (parsed.followUp.map fun _ => lookup.call)) calls
        (((manager.receive worker parsed).popLookup sock lookup).answer now allSent worker parsed identifier
          (followUp worker parsed) lookup ((manager.receive worker parsed).clients.lookup lookup.clientId)).1 := by
      refine ((accounted.receive known apart).fewer popped).answer (loose.fewer popped) early ?_ ?_ ?_
      · intro incomplete
        obtain ⟨zero, silent, free⟩ := carried.truncated incomplete
        refine ⟨own.trans zero, silent, fun slot => unfollowed silent (.inr (free ?_))⟩
        rw [← workerCount, ← configuration']
        exact slot
      · intro completed silent other
        have zero := carried.refiled completed silent other
        rw [own, zero]
        exact unfollowed silent (.inl rfl)
      · intro newhost newcomplete query
        obtain ⟨⟨number, asked', few⟩, whole⟩ := (read ▸ reads).followUp query
        rw [identified] at asked'
        cases asked'
        refine ⟨own ▸ few, fun number drawn => ?_, fun unsent => ?_⟩
        · have next : (manager.receive worker parsed).count number = manager.count identifier + 1 := by
            rw [receive_count, if_pos drawn, identified]
            rfl
          exact next.trans (by rw [own])
        · rw [accounted.toHoused.socket known]
          exact fun same => whole unsent (same.trans (receive_udp manager worker parsed))
    refine ⟨answered, fun given other => answered.closeWorker fun waits => ?_⟩
    obtain ⟨⟨completed, silent, right⟩, _, still, chained⟩ := answer_given given
    have query := (followUp_none worker).mp silent
    rw [still] at waits
    have last := carried.closed completed query right other (by rw [← waiting]; exact waits)
    rw [count, chained]
    exact unfollowed query (last.imp_left Eq.symm)

theorem Accounted.startResolving (accounted : Accounted asked calls manager) {command : Str}
    {decision : Decision (Nat × α)} {identifier : Option Nat} (loose : manager.Loose decision.args.1)
    (early : decision.args.1 < calls)
    (counted : ∀ hostname, extractHostname command decision = some hostname →
      manager.shortcut hostname command decision identifier.isNone = none →
      manager.count (manager.resolveHost identifier).2 = asked decision.args.1)
    (clientId : ClientId) (resolveCount : Nat) : Accounted asked calls
      (manager.startResolving now clientId command decision resolveCount identifier).1 := by
  cases extracted : extractHostname command decision with
  | none =>
      simp only [ResolverManager.startResolving, extracted]
      exact accounted
  | some hostname =>
      cases shortcut : manager.shortcut hostname command decision identifier.isNone with
      | some response =>
          simp only [ResolverManager.startResolving, extracted, shortcut]
          exact accounted
      | none =>
          have tracks := startResolving_tracks manager clientId now resolveCount identifier extracted shortcut
          have count := counted hostname extracted shortcut
          simp only [ResolverManager.startResolving, extracted, shortcut] at tracks ⊢
          cases identifier with
          | none => exact accounted.file tracks loose early count rfl ⟨accounted.udp, accounted.own⟩ accounted.unsent
          | some number =>
              exact accounted.file tracks loose early count rfl ⟨accounted.udp, accounted.own⟩ accounted.unsent

theorem dismiss_fewer (manager : ResolverManager (Nat × α)) (entry : Active) :
    Fewer manager (manager.dismiss entry) := by
  unfold dismiss
  split
  · exact ⟨fun _ _ found => found, fun _ _ found => found, rfl, rfl, rfl, id⟩
  · exact ⟨fun _ _ found => found, fun _ _ found => found, rfl, rfl, rfl, fun housed =>
      ⟨housed.udp, fun other worker found => housed.own other worker (lookup_erase_iff.mp found).2⟩⟩

theorem takeOut_fewer (manager : ResolverManager (Nat × α)) (entry : Active) (clidata : ClientData) :
    Fewer manager (manager.takeOut entry clidata).1 := by
  unfold takeOut
  dsimp only
  split
  · exact ⟨fun _ _ found => (lookup_erase_iff.mp found).2, fun _ _ found => found, rfl, rfl, rfl,
      fun housed => ⟨housed.udp, housed.own⟩⟩
  · exact ⟨fun _ _ found => found, fun _ _ found => (lookup_erase_iff.mp found).2, rfl, rfl, rfl,
      fun housed => ⟨housed.udp, housed.own⟩⟩

theorem Accounted.expire (accounted : Accounted asked calls manager) (now : Nat) (entry : Active) :
    Accounted asked calls (manager.expire now entry).1 := by
  refine expire_cases (accounted.fewer (dismiss_fewer manager entry)) ?_ ?_
  · intro clidata _
    exact (accounted.fewer (takeOut_fewer manager entry clidata)).fewer (dismiss_fewer _ entry)
  · intro clidata lookup _ taken retried
    have fewer := takeOut_fewer manager entry clidata
    cases stored : manager.resolving.lookup (clidata.wId, clidata.identifier) with
    | none =>
        -- nothing is sent over UDP in parts
        simp only [takeOut, stored] at taken
        rw [retried.2] at taken
        exact absurd (lookup_mem taken) accounted.unsent
    | some filed =>
        have withdrawn : (manager.takeOut entry clidata).1.resolving =
            manager.resolving.erase (clidata.wId, clidata.identifier) := by
          simp only [takeOut, stored]
        simp only [takeOut, stored] at taken
        cases taken
        have loose : (manager.takeOut entry clidata).1.Loose lookup.call := by
          refine ⟨fun key other found same => ?_, fun waiter listed same => ?_⟩
          · rw [withdrawn, lookup_erase_iff] at found
            exact found.1 (accounted.single _ _ _ _ found.2 stored same)
          · rw [fewer.waiting] at listed
            exact (accounted.patient waiter listed).2 _ _ stored same.symm
        refine (accounted.fewer fewer).startResolving loose (accounted.known _ _ (.resolving stored)) ?_ _ _
        intro _ _ _
        rw [count, fewer.chained]
        exact accounted.counted _ _ stored

theorem Accounted.continueSending (accounted : Accounted asked calls manager)
    (same : ∀ lookup clidata, manager.sending.lookup sock = some lookup →
      manager.clients.lookup lookup.clientId = some clidata →
      ∃ filed, manager.resolving.lookup (clidata.wId, clidata.identifier) = some filed ∧ filed.call = lookup.call)
    (sent : manager.continueSending sock = some after) : Accounted asked calls after := by
  have narrower := continueSending_known sent
  have unchanged : Fewer manager { manager with writing := manager.writing.erase sock } :=
    ⟨fun _ _ found => found, fun _ _ found => found, rfl, rfl, rfl, fun housed => ⟨housed.udp, housed.own⟩⟩
  unfold ResolverManager.continueSending at sent
  split at sent
  · cases sent
  · split at sent
    · cases sent
      exact accounted.fewer unchanged
    · next lookup unsent =>
        split at sent
        · cases sent
          exact accounted.fewer unchanged
        · next clidata listed =>
            cases sent
            obtain ⟨filed, stored, call⟩ := same lookup clidata unsent listed
            have earlier : ∀ {key found}, (manager.resolving.insert (clidata.wId, clidata.identifier) lookup).lookup
                key = some found → ∃ before, manager.resolving.lookup key = some before ∧ before.call = found.call := by
              intro key found present
              rcases lookup_insert_iff.mp present with ⟨rfl, rfl⟩ | ⟨_, present⟩
              · exact ⟨filed, stored, call⟩
              · exact ⟨found, present, rfl⟩
            refine { accounted with
              toHoused := ⟨accounted.udp, accounted.own⟩
              counted := fun key found present => ?_
              single := fun key other first second found present equal => ?_
              patient := fun waiter waits => ?_
              known := fun command decision known => accounted.known _ _ (narrower _ _ known)
              unsent := fun member => accounted.unsent (AList.mem_erase.mp member).2 }
            · obtain ⟨before, present, number⟩ := earlier present
              rw [← number]
              exact accounted.counted key before present
            · obtain ⟨one, found, number⟩ := earlier found
              obtain ⟨another, present, number'⟩ := earlier present
              exact accounted.single key other one another found present (number.trans (equal.trans number'.symm))
            · obtain ⟨zero, apart⟩ := accounted.patient waiter waits
              refine ⟨zero, fun key found present => ?_⟩
              obtain ⟨before, present, number⟩ := earlier present
              rw [← number]
              exact apart key before present

theorem Accounted.cleanup (accounted : Accounted asked calls manager) {clock : Nat → Nat} {fuel : Nat}
    {responses : List (ClientId × Response (Nat × α))}
    (ended : manager.cleanup now clock fuel = some (after, responses)) : Accounted asked calls after := by
  obtain ⟨left, last, kept, rfl⟩ := cleanupLoop_rule (Q := fun _ m => Accounted asked calls m)
    (fun _ now entry _ _ _ kept _ _ => kept.expire now entry) accounted ended
  exact kept.fewer ⟨fun _ _ found => found, fun _ _ found => found, rfl, rfl, rfl, fun housed => ⟨housed.udp, housed.own⟩⟩

theorem Accounted.expireCache (accounted : Accounted asked calls manager) (now : Nat) :
    Accounted asked calls (manager.expireCache now) := by
  unfold ResolverManager.expireCache
  split
  · exact accounted
  · split
    · exact accounted.fewer ⟨fun _ _ found => found, fun _ _ found => found, rfl, rfl, rfl,
        fun housed => ⟨housed.udp, housed.own⟩⟩
    · exact accounted

end ResolverManager

end ExaProxy.Resolver
