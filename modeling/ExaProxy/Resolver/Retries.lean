import ExaProxy.Resolver.Timing

namespace ExaProxy.Resolver

open ExaProxy.Data Relation

/-! How often a query is sent over UDP.  A journal keeps the number of each query that is sent,
what became of it, and the clients that get a decision. -/

namespace ResolverManager

variable {α : Type} (manager : ResolverManager α)

/-- The number that a turn of the loop in `cleanup` sends again. -/
def resent (now : Nat) (entry : Active) : Option Nat :=
  match manager.clients.lookup entry.clientId with
  | none => none
  | some clidata =>
      match (manager.resolving.lookup (clidata.wId, clidata.identifier)).or
        (manager.sending.lookup entry.socket) with
      | none => none
      | some lookup =>
          if clidata.resolveCount < manager.configuration.retries ∧
              entry.socket = manager.worker.socket then
            (manager.startResolving now lookup.clientId lookup.command lookup.decision
              (clidata.resolveCount + 1) (some clidata.identifier)).2.1
          else none

def expireRecord (now : Nat) (entry : Active) : Log ClientId (Response α) where
  sent := (manager.resent now entry).toList
  expired := match manager.clients.lookup entry.clientId, (manager.expire now entry).2 with
    | some clidata, some (clientId, page) => [(clidata.identifier, clientId, page)]
    | _, _ => []
  decided := ((manager.expire now entry).2.map Prod.fst).toList

/-- What the turns of `cleanupLoop` do, one after the other. -/
def cleanupRecord (clock : Nat → Nat) (cutoff : Int) :
    Nat → Nat → ResolverManager α → Log ClientId (Response α)
  | 0, _, _ => {}
  | fuel + 1, count, manager =>
      match manager.active[count]? with
      | none => {}
      | some entry =>
          if (entry.time : Int) > cutoff then {}
          else manager.expireRecord (clock count) entry ++
            cleanupRecord clock cutoff fuel (count + 1) (manager.expire (clock count) entry).1

/-- An answer counts for its query, unless it names another host and nothing else is asked. -/
def counts (result : Result) (lookup : Lookup α) : Bool :=
  (followUp manager.worker result).isSome || result.forhost = some lookup.hostname

/-- What an event does to the queries. -/
def record (fuel : Nat) : Event α → Log ClientId (Response α)
  | .start now clientId command decision =>
      match (manager.startResolving now clientId command decision 1 none).2 with
      | (_, some _) => { begun := [clientId], decided := [clientId] }
      | (some identifier, none) =>
          { sent := [identifier], owned := [(identifier, clientId)], begun := [clientId] }
      | (none, none) => {}
  | .respond now allSent sock (some result) =>
      let next := followUp manager.worker result
      let decided := ((manager.getResponse now allSent sock (some result)).2.map Prod.fst).toList
      match manager.answered manager.worker result with
      | none => { sent := next.toList, decided }
      | some (identifier, lookup) =>
          { sent := next.toList
            owned := next.toList.map fun next => (next, lookup.clientId)
            answered := if manager.counts result lookup then [identifier] else []
            decided }
  | .cleanup now clock =>
      manager.cleanupRecord clock ((now : Int) - manager.configuration.timeout) fuel 0
  | _ => {}

/-- What is received over UDP is whole, and so is what is sent. -/
def Udp : Event α → Prop
  | .respond _ _ sock result => sock = manager.worker.socket ∧
      ∀ parsed ∈ result, parsed.completed = true ∧ ∀ query ∈ parsed.followUp, query.2 = true
  | .send _ => False
  | _ => True

/-- The number that a client waits for, and how often its query was sent. -/
def awaits (clientId : ClientId) : Option (Nat × Nat) :=
  (manager.clients.lookup clientId).map fun clidata => (clidata.identifier, clidata.resolveCount)

/-- The last decision of a lookup that is given up. -/
def GivesUp (page : Response α) : Prop :=
  ∃ hostname, page =
    .rewrite [ascii "503", ascii "dns.html", [], [], [], hostname, ascii "peer"]

section Turns

variable {manager} {after : ResolverManager α} {rest : List Active} {pending : Finset ClientId}
  {clidata : ClientData} {lookup : Lookup α} {entry : Active} {now time : Nat}
  {log : Log ClientId (Response α)}

theorem awaits_insert {clientId : ClientId}
    (clients : after.clients = manager.clients.insert clientId clidata) :
    after.awaits = Function.update manager.awaits clientId
      (some (clidata.identifier, clidata.resolveCount)) := by
  funext client
  by_cases own : client = clientId
  · subst own
    rw [Function.update_self, awaits, clients, AList.lookup_insert]
    rfl
  · rw [Function.update_of_ne own, awaits, clients, AList.lookup_insert_ne own]
    rfl

theorem awaits_erase {clientId : ClientId} (clients : after.clients = manager.clients.erase clientId) :
    after.awaits = Function.update manager.awaits clientId none := by
  funext client
  by_cases own : client = clientId
  · subst own
    rw [Function.update_self, awaits, clients, AList.lookup_erase]
    rfl
  · rw [Function.update_of_ne own, awaits, clients, AList.lookup_erase_ne own]
    rfl

theorem awaits_refile {clientId : ClientId}
    (clients : after.clients = (manager.clients.erase clientId).insert clientId clidata) :
    after.awaits = Function.update manager.awaits clientId
      (some (clidata.identifier, clidata.resolveCount)) := by
  funext client
  by_cases own : client = clientId
  · subst own
    rw [Function.update_self, awaits, clients, AList.lookup_insert]
    rfl
  · rw [Function.update_of_ne own, awaits, clients, AList.lookup_insert_ne own, AList.lookup_erase_ne own]
    rfl

theorem awaits_congr (clients : after.clients = manager.clients) : after.awaits = manager.awaits := by
  funext client
  rw [awaits, clients]
  rfl

theorem awaits_known {clientId : ClientId} (known : manager.clients.lookup clientId = some clidata) :
    manager.awaits clientId = some (clidata.identifier, clidata.resolveCount) := by
  rw [awaits, known]
  rfl

/-- What is done to the manager, in the steps of its record. -/
structure Moves (manager after : ResolverManager α) (log : Log ClientId (Response α)) : Prop where
  draws : Draws manager after
  configuration : after.configuration = manager.configuration
  steps : ∀ earlier : Log ClientId (Response α), (∀ number ∈ earlier.sent, number ≤ manager.worker.drawn) →
    ReflTransGen (Queries.Step manager.configuration.retries GivesUp)
      ⟨earlier, manager.awaits⟩ ⟨earlier ++ log, after.awaits⟩
  sent : ∀ number ∈ log.sent, number ≤ after.worker.drawn

theorem Moves.idle (draws : Draws manager after) (configuration : after.configuration = manager.configuration)
    (clients : after.clients = manager.clients) : Moves manager after {} := by
  refine ⟨draws, configuration, fun earlier _ => ?_, fun _ member => absurd member List.not_mem_nil⟩
  rw [Log.append_nil, awaits_congr clients]

theorem Moves.trans {between : ResolverManager α} {first second : Log ClientId (Response α)}
    (moved : Moves manager between first) (moved' : Moves between after second) :
    Moves manager after (first ++ second) := by
  refine ⟨moved.draws.trans moved'.draws, moved'.configuration.trans moved.configuration, ?_, ?_⟩
  · intro earlier known
    rw [← Log.append_assoc]
    have rest := moved'.steps (earlier ++ first) fun number member => by
      rcases List.mem_append.mp member with own | own
      · exact (known number own).trans moved.draws.drawn
      · exact moved.sent number own
    rw [moved.configuration] at rest
    exact (moved.steps earlier known).trans rest
  · intro number member
    rcases List.mem_append.mp member with own | own
    · exact (moved.sent number own).trans moved'.draws.drawn
    · exact moved'.sent number own

/-- What one turn of the loop in `cleanup` does, and its record. -/
inductive Turned (manager : ResolverManager α) (now : Nat) (entry : Active) :
    ResolverManager α → Log ClientId (Response α) → Prop where
  | unknown (after : ResolverManager α) (known : manager.clients.lookup entry.clientId = none)
      (same : manager.Same after) : Turned manager now entry after {}
  | again (after : ResolverManager α) (clidata : ClientData) (lookup : Lookup α)
      (known : manager.clients.lookup entry.clientId = some clidata)
      (owner : lookup.clientId = entry.clientId)
      (left : clidata.resolveCount < manager.configuration.retries)
      (tracks : Tracks ⟨manager.worker.wId, clidata.identifier, now, clidata.resolveCount + 1⟩
        ⟨now, entry.clientId, manager.worker.socket⟩ lookup
        (manager.withdraw entry.clientId clidata) after) :
      Turned manager now entry after { sent := [clidata.identifier] }
  | givenUp (after : ResolverManager α) (clidata : ClientData) (page : Response α)
      (known : manager.clients.lookup entry.clientId = some clidata)
      (used : ¬ clidata.resolveCount < manager.configuration.retries)
      (same : (manager.withdraw entry.clientId clidata).Same after) (isLast : GivesUp page) :
      Turned manager now entry after
        { expired := [(clidata.identifier, entry.clientId, page)], decided := [entry.clientId] }

theorem resent_eq (known : manager.clients.lookup entry.clientId = some clidata)
    (stored : manager.resolving.lookup (clidata.wId, clidata.identifier) = some lookup)
    (askable : manager.Askable lookup.command lookup.decision) (now : Nat) :
    manager.resent now entry = if clidata.resolveCount < manager.configuration.retries ∧
      entry.socket = manager.worker.socket then some clidata.identifier else none := by
  obtain ⟨hostname, extracted, asked⟩ := askable.shortcut
  simp only [resent, known, stored, Option.some_or, startResolving, extracted, Option.isNone_some, asked,
    resolveHost]

theorem expire_turned (consistent : Consistent (entry :: rest) pending manager)
    (socket : entry.socket = manager.worker.socket) (now : Nat) :
    Turned manager now entry (manager.expire now entry).1 (manager.expireRecord now entry) ∧
      (manager.expire now entry).1.worker = manager.worker := by
  cases known : manager.clients.lookup entry.clientId with
  | none =>
      obtain ⟨silent, same, worker⟩ := expire_unknown known now
      have nothing : manager.expireRecord now entry = {} := by
        simp only [expireRecord, silent, resent, known, Option.toList_none, Option.map_none]
      rw [nothing]
      exact ⟨.unknown _ known same, worker⟩
  | some clidata =>
      obtain ⟨lookup, stored, owner⟩ := consistent.keyed _ _ known
      have askable := consistent.resolving _ _ stored
      have resent := resent_eq known stored askable now
      by_cases left : clidata.resolveCount < manager.configuration.retries
      · obtain ⟨silent, worker, hostname, tracks⟩ :=
          expire_retried known stored askable ⟨left, socket⟩ now
        have again : manager.expireRecord now entry = { sent := [clidata.identifier] } := by
          simp only [expireRecord, silent, resent, known, left, socket, and_self, if_true, Option.toList_some,
            Option.map_none, Option.toList_none]
        rw [again]
        rw [owner] at tracks
        exact ⟨.again _ clidata _ known rfl left tracks, worker⟩
      · have given : ¬ manager.Retried entry clidata := fun retried => left retried.1
        obtain ⟨_, same, worker⟩ := expire_answered known stored given now
        have page : (manager.expire now entry).2 = some (entry.clientId, .rewrite [ascii "503",
            ascii "dns.html", [], [], [], lookup.hostname, ascii "peer"]) := by
          simp only [expire, known, stored, left, false_and, if_false, owner]
        have last : manager.expireRecord now entry = {
            expired := [(clidata.identifier, entry.clientId, .rewrite [ascii "503",
              ascii "dns.html", [], [], [], lookup.hostname, ascii "peer"])]
            decided := [entry.clientId] } := by
          simp only [expireRecord, page, resent, known, left, false_and, if_false, Option.toList_none,
            Option.map_some, Option.toList_some]
        rw [last]
        exact ⟨.givenUp _ clidata _ known left same ⟨_, rfl⟩, worker⟩

theorem Turned.steady (turned : Turned manager now entry after log)
    (worker : after.worker = manager.worker) (steady : Steady time (entry :: rest) manager)
    (passed : time ≤ now) :
    ∃ added, after.active = manager.active ++ added ∧ Steady now (rest ++ added) after := by
  have shorter : rest.Sublist (entry :: rest) := List.sublist_cons_self entry rest
  cases turned with
  | unknown known same =>
      refine ⟨[], by rw [List.append_nil]; exact same.active, ?_⟩
      rw [List.append_nil]
      refine steady.narrow (draws_of_worker worker) ?_ shorter passed ?_
      · exact fun _ _ listed => by rwa [same.clients] at listed
      · intro other member own
        cases member with
        | head =>
            rw [same.clients] at own
            exact absurd own (AList.lookup_eq_none.mp known)
        | tail _ member => exact member
  | again clidata lookup known owner left tracks =>
      refine ⟨_, tracks.active, ?_⟩
      have number := steady.numbers _ _ known
      have fewer : Steady time rest (manager.withdraw entry.clientId clidata) := by
        refine steady.narrow (draws_of_worker rfl) (fun _ _ listed => (lookup_erase_iff.mp listed).2) shorter
          le_rfl ?_
        intro other member own
        cases member with
        | head => exact absurd rfl (AList.mem_erase.mp own).1
        | tail _ member => exact member
      exact fewer.track tracks (draws_of_worker worker) rfl rfl (by rw [worker]; exact number) rfl passed
  | givenUp clidata page known used same isLast =>
      refine ⟨[], by rw [List.append_nil]; exact same.active, ?_⟩
      rw [List.append_nil]
      refine steady.narrow (draws_of_worker worker) ?_ shorter passed ?_
      · intro client data listed
        rw [same.clients] at listed
        exact (lookup_erase_iff.mp listed).2
      · intro other member own
        cases member with
        | head =>
            rw [same.clients] at own
            exact absurd rfl (AList.mem_erase.mp own).1
        | tail _ member => exact member

theorem Turned.moves (turned : Turned manager now entry after log) (worker : after.worker = manager.worker)
    (steady : Steady time (entry :: rest) manager) : Moves manager after log := by
  have draws := draws_of_worker worker
  cases turned with
  | unknown known same => exact .idle draws same.configuration same.clients
  | again clidata lookup known owner left tracks =>
      have number := steady.numbers _ _ known
      have clients := tracks.clients
      rw [owner] at clients
      refine ⟨draws, tracks.configuration, fun earlier _ => ?_, ?_⟩
      · rw [awaits_refile clients]
        exact .single (.again _ _ _ _ (awaits_known known) left)
      · intro sent member
        rw [List.mem_singleton.mp member, worker]
        exact number
  | givenUp clidata page known used same isLast =>
      have withdrawn : after.clients = manager.clients.erase entry.clientId := same.clients
      refine ⟨draws, same.configuration, fun earlier _ => ?_, fun _ member => absurd member List.not_mem_nil⟩
      rw [awaits_erase withdrawn]
      exact .single (.giveUp _ _ _ _ _ (awaits_known known) used isLast)

theorem Turned.dealt (turned : Turned manager now entry after log)
    (known : manager.clients.lookup entry.clientId = some clidata) :
    clidata.identifier ∈ log.sent ∨ log.Settled clidata.identifier := by
  cases turned with
  | unknown absent same => rw [absent] at known; cases known
  | again data lookup listed owner left tracks =>
      rw [listed] at known
      cases known
      exact .inl List.mem_cons_self
  | givenUp data page listed used same isLast =>
      rw [listed] at known
      cases known
      exact .inr (.inr ⟨_, List.mem_cons_self, rfl⟩)

theorem Steady.apart {watched others : List Active} (steady : Steady time watched manager)
    (filed : Filed others manager) (cutoff : Int) (list : List Active) : manager.Apart cutoff list := by
  intro first firstData second secondData known known' same _ _
  obtain ⟨lookup, stored, own⟩ := filed.keyed first firstData known
  obtain ⟨lookup', stored', own'⟩ := filed.keyed second secondData known'
  rw [steady.workers _ _ known, same, ← steady.workers _ _ known', stored'] at stored
  cases stored
  exact own.symm.trans own'

end Turns

section Loop

variable {manager} {after : ResolverManager α} {pending : Finset ClientId} {time last : Nat}
  {clock : Nat → Nat} {cutoff : Int} {responses : List (ClientId × Response α)} {entry : Active}

theorem cleanupRecord_stop {fuel count : Nat} (fresh : ∀ entry ∈ manager.active[count]?, cutoff < entry.time) :
    cleanupRecord clock cutoff (fuel + 1) count manager = {} := by
  cases next : manager.active[count]? with
  | none => simp only [cleanupRecord, next]
  | some entry => simp only [cleanupRecord, next, gt_iff_lt, fresh entry next, if_true]

theorem cleanupRecord_turn {fuel count : Nat} (next : manager.active[count]? = some entry)
    (timedOut : (entry.time : Int) ≤ cutoff) :
    cleanupRecord clock cutoff (fuel + 1) count manager = manager.expireRecord (clock count) entry ++
      cleanupRecord clock cutoff fuel (count + 1) (manager.expire (clock count) entry).1 := by
  simp only [cleanupRecord, next, gt_iff_lt, timedOut.not_gt, if_false]

theorem expire_rest {now count : Nat} (next : manager.active[count]? = some entry)
    (due : (entry.time : Int) ≤ cutoff) (consistent : Consistent (manager.active.drop count) pending manager)
    (steady : Steady time (manager.active.drop count) manager) (passed : time ≤ now) :
    Turned manager now entry (manager.expire now entry).1 (manager.expireRecord now entry) ∧
      Moves manager (manager.expire now entry).1 (manager.expireRecord now entry) ∧
      Consistent ((manager.expire now entry).1.active.drop (count + 1))
        (settle pending (manager.expire now entry).2) (manager.expire now entry).1 ∧
      Steady now ((manager.expire now entry).1.active.drop (count + 1)) (manager.expire now entry).1 ∧
      ∀ client ≠ entry.clientId,
        (manager.expire now entry).1.clients.lookup client = manager.clients.lookup client ∧
        (Due cutoff (manager.active.drop count) client →
          Due cutoff ((manager.expire now entry).1.active.drop (count + 1)) client) := by
  rw [drop_next next] at consistent steady ⊢
  obtain ⟨turned, worker⟩ := expire_turned consistent (steady.sockets entry List.mem_cons_self) now
  have turn := consistent.expire (steady.apart consistent.toFiled cutoff _) due now
  obtain ⟨added, active, kept, _⟩ := turn.kept
  obtain ⟨more, active', stays⟩ := turned.steady worker steady passed
  obtain rfl : more = added := List.append_cancel_left (active'.symm.trans active)
  rw [drop_added next active]
  exact ⟨turned, turned.moves worker steady, kept, stays,
    fun client other => ⟨turn.others client other, fun due => due.next other⟩⟩

theorem cleanupLoop_moves (fuel count : Nat)
    (consistent : Consistent (manager.active.drop count) pending manager)
    (steady : Steady time (manager.active.drop count) manager) (passed : time ≤ clock count)
    (rising : ∀ index < last, clock index ≤ clock (index + 1)) (bound : count + fuel ≤ last)
    (ended : manager.cleanupLoop clock cutoff fuel count = some (after, responses)) :
    Steady (clock last) after.active after ∧
      Moves manager after (cleanupRecord clock cutoff fuel count manager) := by
  induction fuel generalizing count manager pending responses time with
  | zero => simp only [cleanupLoop, reduceCtorEq] at ended
  | succ fuel ih =>
      have ahead : clock count ≤ clock last := by
        refine Nat.le_induction (P := fun index _ => index ≤ last → clock count ≤ clock index)
          (fun _ => le_rfl) ?_ last (by omega) le_rfl
        exact fun index _ earlier within => (earlier (by omega)).trans (rising index (by omega))
      rcases cleanupLoop_cases ended with ⟨rfl, _, fresh⟩ | ⟨entry, later, next, timedOut, rest, _⟩
      · rw [cleanupRecord_stop fresh]
        refine ⟨?_, .idle (draws_of_worker rfl) rfl rfl⟩
        exact steady.narrow (draws_of_worker rfl) (fun _ _ known => known) (List.Sublist.refl _)
          (passed.trans ahead) fun _ member _ => member
      · obtain ⟨_, moved, kept, stays, _⟩ := expire_rest next timedOut consistent steady passed
        obtain ⟨steady', moved'⟩ := ih (count + 1) kept stays (rising count (by omega)) (by omega) rest
        rw [cleanupRecord_turn next timedOut]
        exact ⟨steady', moved.trans moved'⟩

/-- The loop sends the query again or gives it up, for each client that it comes to. -/
theorem cleanupLoop_dealt {clientId : ClientId} {clidata : ClientData} (fuel count : Nat)
    (consistent : Consistent (manager.active.drop count) pending manager)
    (steady : Steady time (manager.active.drop count) manager) (passed : time ≤ clock count)
    (rising : ∀ index < last, clock index ≤ clock (index + 1)) (bound : count + fuel ≤ last)
    (ended : manager.cleanupLoop clock cutoff fuel count = some (after, responses))
    (known : manager.clients.lookup clientId = some clidata)
    (due : Due cutoff (manager.active.drop count) clientId) :
    clidata.identifier ∈ (cleanupRecord clock cutoff fuel count manager).sent ∨
      (cleanupRecord clock cutoff fuel count manager).Settled clidata.identifier := by
  induction fuel generalizing count manager pending responses time with
  | zero => simp only [cleanupLoop, reduceCtorEq] at ended
  | succ fuel ih =>
      rcases cleanupLoop_cases ended with ⟨_, _, fresh⟩ | ⟨entry, later, next, timedOut, rest, _⟩
      · exact (due.next_timedOut fresh).elim
      · obtain ⟨turned, _, kept, stays, others⟩ := expire_rest next timedOut consistent steady passed
        rw [cleanupRecord_turn next timedOut]
        by_cases own : clientId = entry.clientId
        · subst own
          rcases turned.dealt known with sent | settled
          · exact .inl (List.mem_append_left _ sent)
          · exact .inr (settled.append _)
        · obtain ⟨same, still⟩ := others clientId own
          rcases ih (count + 1) kept stays (rising count (by omega)) (by omega) rest (same.trans known)
            (still due) with sent | settled
          · exact .inl (List.mem_append_right _ sent)
          · exact .inr (settled.prepend _)

end Loop

section Events

variable {manager} {after : ResolverManager α} {clientId : ClientId} {time now : Nat} {watched : List Active}
  {result : Result}

theorem Steady.free (steady : Steady time watched manager) (filed : Filed watched manager)
    (few : manager.worker.drawn < 0xfffe) (clientId : ClientId) :
    manager.Free (manager.worker.wId, nextIdentifier manager.worker.drawn) clientId := by
  intro lookup found
  obtain ⟨clidata, known, key⟩ := filed.held _ _ found
  have number := steady.numbers _ _ known
  have drawn : clidata.identifier = nextIdentifier manager.worker.drawn := congrArg Prod.snd key
  rw [drawn, nextIdentifier_fresh few] at number
  omega

theorem startResolving_moves (few : manager.worker.drawn < 0xfffe) (idle : clientId ∉ manager.clients)
    (fuel now : Nat) (command : Str) (decision : Decision α) :
    Moves manager (manager.startResolving now clientId command decision 1 none).1
      (manager.record fuel (.start now clientId command decision)) := by
  have waits : manager.awaits clientId = none := by
    rw [awaits, AList.lookup_eq_none.mpr idle]
    rfl
  rcases startResolving_begins manager now clientId command decision with
    ⟨same, unasked⟩ | ⟨given, worker, lookup, owner, tracks⟩
  · rw [same]
    cases given : (manager.startResolving now clientId command decision 1 none).2 with
    | mk identifier response =>
        rw [given] at unasked
        obtain rfl : identifier = none := unasked
        simp only [record, given]
        cases response with
        | none => exact .idle (draws_refl manager) rfl rfl
        | some response =>
            refine ⟨draws_refl manager, rfl, fun earlier _ => .single ?_,
              fun _ member => absurd member List.not_mem_nil⟩
            exact .refuse _ clientId waits
  · have draws : Draws manager (manager.startResolving now clientId command decision 1 none).1 := by
      refine ⟨by rw [worker], by rw [worker], ?_⟩
      rw [worker, nextIdentifier_fresh few]
      exact Nat.le_succ _
    have clients := tracks.clients
    rw [owner] at clients
    simp only [record, given]
    refine ⟨draws, tracks.configuration, fun earlier known => ?_, ?_⟩
    · rw [awaits_insert clients]
      refine .single (.begin _ clientId _ waits fun member => ?_)
      have := known _ member
      rw [nextIdentifier_fresh few] at this
      omega
    · intro number member
      rw [List.mem_singleton.mp member, worker]

theorem getResponse_moves (filed : Filed watched manager)
    (few : manager.worker.drawn < 0xfffe) (fuel now : Nat) (allSent : Sock → Bool) (result : Result)
    (complete : result.completed = true) (whole : ∀ query ∈ result.followUp, query.2 = true) :
    Moves manager (manager.getResponse now allSent manager.worker.socket (some result)).1
      (manager.record fuel (.respond now allSent manager.worker.socket (some result))) := by
  obtain ⟨responded, worker⟩ := getResponse_responded filed now allSent result complete whole
  have draws := draws_of_response few worker
  have drawn : ∀ number ∈ (followUp manager.worker result).toList, number ≤
      (manager.getResponse now allSent manager.worker.socket (some result)).1.worker.drawn := by
    intro number member
    rw [worker, Option.mem_toList.mp member, Option.getD_some]
  have fresh : ∀ next, followUp manager.worker result = some next → next = manager.worker.drawn + 1 := by
    intro next asked
    obtain ⟨_, _, rfl⟩ := Option.map_eq_some_iff.mp asked
    exact nextIdentifier_fresh few
  simp only [record]
  generalize manager.getResponse now allSent manager.worker.socket (some result) = answer at *
  obtain ⟨after, response⟩ := answer
  cases responded with
  | ignored unheld same cache =>
      simp only [unheld, Option.map_none, Option.toList_none]
      cases asked : followUp manager.worker result with
      | none => exact .idle draws same.configuration same.clients
      | some next =>
          rw [asked] at drawn
          refine ⟨draws, same.configuration, fun earlier known => ?_, drawn⟩
          rw [awaits_congr same.clients]
          refine .single (.stray _ next fun member => ?_)
          have := known next member
          have := fresh next asked
          omega
  | followed identifier next lookup filed clidata held asked owner tracks =>
      have counted : manager.counts result lookup = true := by simp [counts, asked]
      have waits := awaits_known held.known
      have clients := tracks.clients
      rw [owner, taken_clients] at clients
      rw [held.identifier] at waits
      simp only [held.answered, asked, counted, if_true, Option.toList_some, Option.map_none, Option.toList_none,
        List.map_cons, List.map_nil]
      rw [asked] at drawn
      refine ⟨draws, tracks.configuration.trans (taken_configuration manager result lookup),
        fun earlier known => ?_, drawn⟩
      rw [awaits_refile clients]
      refine .single (.follow _ lookup.clientId identifier next _ waits fun member => ?_)
      have := known next member
      have := fresh next asked
      omega
  | restored identifier lookup clidata held silent wrong tracks =>
      have uncounted : manager.counts result lookup = false := by simp [counts, silent, wrong]
      have waits := awaits_known held.known
      have clients := tracks.clients
      rw [taken_clients] at clients
      rw [held.identifier] at waits
      have same := awaits_refile clients
      rw [← waits, Function.update_eq_self] at same
      simp only [held.answered, silent, uncounted, Bool.false_eq_true, if_false, Option.toList_none, Option.map_none,
        List.map_nil]
      refine ⟨draws, tracks.configuration.trans (taken_configuration manager result lookup), fun earlier known => ?_,
        fun _ member => absurd member List.not_mem_nil⟩
      rw [same]
      exact (Log.append_nil earlier).symm ▸ .refl
  | decided identifier lookup clidata response held silent right kept =>
      have counted : manager.counts result lookup = true := by simp [counts, right]
      have waits := awaits_known held.known
      have clients := kept.clients
      rw [taken_clients] at clients
      rw [held.identifier] at waits
      simp only [held.answered, silent, counted, if_true, Option.toList_none, Option.map_some, Option.toList_some,
        List.map_nil]
      refine ⟨draws, kept.configuration.trans (taken_configuration manager result lookup), fun earlier known => ?_,
        fun _ member => absurd member List.not_mem_nil⟩
      rw [awaits_erase clients]
      exact .single (.answer _ lookup.clientId identifier _ waits)

end Events

end ResolverManager

end ExaProxy.Resolver
