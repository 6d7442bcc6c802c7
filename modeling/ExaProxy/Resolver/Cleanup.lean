import ExaProxy.Resolver.Answers

namespace ExaProxy.Resolver

open ExaProxy.Data

namespace ResolverManager

variable {α : Type} {manager after : ResolverManager α} {watched rest : List Active}
  {pending : Finset ClientId} {clientId : ClientId} {clidata : ClientData} {lookup : Lookup α}
  {entry : Active} {cutoff : Int} {now : Nat}

/-- The tables without the lookup of a client. -/
def withdraw (manager : ResolverManager α) (clientId : ClientId) (clidata : ClientData) :
    ResolverManager α :=
  { manager with
    clients := manager.clients.erase clientId
    resolving := manager.resolving.erase (clidata.wId, clidata.identifier) }

/-- The lookup of the entry has attempts left, and is watched under the UDP worker. -/
def Retried (manager : ResolverManager α) (entry : Active) (clidata : ClientData) : Prop :=
  clidata.resolveCount < manager.configuration.retries ∧ entry.socket = manager.worker.socket

theorem expire_unknown (unknown : manager.clients.lookup entry.clientId = none) (now : Nat) :
    (manager.expire now entry).2 = none ∧ manager.Same (manager.expire now entry).1 ∧
      (manager.expire now entry).1.worker = manager.worker := by
  simp only [expire, unknown, true_and]
  split
  · exact ⟨same_refl manager, rfl⟩
  · exact ⟨⟨rfl, rfl, rfl, rfl, rfl, rfl⟩, rfl⟩

theorem expire_retried (known : manager.clients.lookup entry.clientId = some clidata)
    (stored : manager.resolving.lookup (clidata.wId, clidata.identifier) = some lookup)
    (askable : manager.Askable lookup.command lookup.decision)
    (retried : manager.Retried entry clidata) (now : Nat) :
    (manager.expire now entry).2 = none ∧
      (manager.expire now entry).1.worker = manager.worker ∧
      ∃ hostname, Tracks ⟨manager.worker.wId, clidata.identifier, now, clidata.resolveCount + 1⟩
        ⟨now, lookup.clientId, manager.worker.socket⟩
        ⟨lookup.clientId, hostname, hostname, lookup.command, lookup.decision⟩
        (manager.withdraw entry.clientId clidata) (manager.expire now entry).1 := by
  have sent : manager.expire now entry = (((manager.withdraw entry.clientId clidata).startResolving
      now lookup.clientId lookup.command lookup.decision (clidata.resolveCount + 1)
      (some clidata.identifier)).1, none) := by
    obtain ⟨attempts, socket⟩ := retried
    simp only [expire, known, stored, attempts, socket, true_and, if_true]
    rfl
  rw [sent]
  have again : (manager.withdraw entry.clientId clidata).Askable lookup.command lookup.decision :=
    askable
  obtain ⟨hostname, extracted, asked⟩ := again.shortcut
  exact ⟨rfl, startResolving_again_worker _ _ _ _ _ _ _, hostname,
    startResolving_tracks (manager.withdraw entry.clientId clidata) lookup.clientId now
      (clidata.resolveCount + 1) (some clidata.identifier) extracted asked⟩

theorem expire_answered (known : manager.clients.lookup entry.clientId = some clidata)
    (stored : manager.resolving.lookup (clidata.wId, clidata.identifier) = some lookup)
    (given : ¬ manager.Retried entry clidata) (now : Nat) :
    (∃ response, (manager.expire now entry).2 = some (lookup.clientId, response)) ∧
      (manager.withdraw entry.clientId clidata).Same (manager.expire now entry).1 ∧
      (manager.expire now entry).1.worker = manager.worker := by
  have branch : ¬ (clidata.resolveCount < manager.configuration.retries ∧
      entry.socket = manager.worker.socket) := given
  simp only [expire, known, stored, branch, if_false]
  refine ⟨⟨_, rfl⟩, ?_⟩
  split
  · exact ⟨same_refl _, rfl⟩
  · exact ⟨⟨rfl, rfl, rfl, rfl, rfl, rfl⟩, rfl⟩

/-- The lookup of the client is filed under the UDP worker, or will be by the
`cleanup` with this cutoff. -/
def OnUdp (manager : ResolverManager α) (cutoff : Int) (watched : List Active)
    (clientId : ClientId) (clidata : ClientData) : Prop :=
  clidata.wId = manager.worker.wId ∨
    ∃ entry ∈ watched, entry.clientId = clientId ∧ (entry.time : Int) ≤ cutoff ∧
      manager.Retried entry clidata

/-- No two clients are filed under one identifier of the UDP worker, nor will be. -/
def Apart (manager : ResolverManager α) (cutoff : Int) (watched : List Active) : Prop :=
  ∀ first firstData second secondData, manager.clients.lookup first = some firstData →
    manager.clients.lookup second = some secondData →
    firstData.identifier = secondData.identifier →
    manager.OnUdp cutoff watched first firstData → manager.OnUdp cutoff watched second secondData →
    first = second

/-- The condition under which `cleanup` loses no lookup. -/
def CleanupKept (manager : ResolverManager α) (now : Nat) : Prop :=
  manager.Apart ((now : Int) - manager.configuration.timeout) manager.active

/-- The entries after a step are entries from before it, on the UDP worker if
they were or will be. -/
def Narrows (cutoff : Int) (watched others : List Active)
    (before after : ResolverManager α) : Prop :=
  ∀ clientId clidata, after.clients.lookup clientId = some clidata →
    after.OnUdp cutoff others clientId clidata →
    ∃ earlier, before.clients.lookup clientId = some earlier ∧
      earlier.identifier = clidata.identifier ∧ before.OnUdp cutoff watched clientId earlier

theorem Apart.narrows {others : List Active} (apart : manager.Apart cutoff watched)
    (narrows : Narrows cutoff watched others manager after) : after.Apart cutoff others := by
  intro first firstData second secondData known known' same onUdp onUdp'
  obtain ⟨data, listed, number, earlier⟩ := narrows first firstData known onUdp
  obtain ⟨data', listed', number', earlier'⟩ := narrows second secondData known' onUdp'
  exact apart first data second data' listed listed' (number.trans (same.trans number'.symm))
    earlier earlier'

/-- What one turn of the loop does about the client of its entry. -/
def Dealt (now : Nat) (clientId : ClientId) (manager : ResolverManager α)
    (response : Option (ClientId × Response α)) : Prop :=
  (∃ page, response = some (clientId, page)) ∨
    ∃ clidata, manager.clients.lookup clientId = some clidata ∧ clidata.activeTime = now

theorem narrows_of_subset {others : List Active} (worker : after.worker = manager.worker)
    (configuration : after.configuration = manager.configuration)
    (clients : ∀ clientId clidata, after.clients.lookup clientId = some clidata →
      manager.clients.lookup clientId = some clidata)
    (fewer : ∀ entry ∈ others, entry ∈ watched) : Narrows cutoff watched others manager after := by
  intro clientId clidata known onUdp
  refine ⟨clidata, clients clientId clidata known, rfl, ?_⟩
  cases onUdp with
  | inl filed => exact .inl (worker ▸ filed)
  | inr later =>
      obtain ⟨entry, listed, owner, due, attempts, socket⟩ := later
      exact .inr ⟨entry, fewer entry listed, owner, due, configuration ▸ attempts, worker ▸ socket⟩

theorem Consistent.unwatch (consistent : Consistent (entry :: rest) pending manager)
    (unknown : entry.clientId ∉ manager.clients) : Consistent rest pending manager := by
  refine ⟨⟨consistent.keyed, consistent.held, ?_⟩, consistent.toRepeatable, consistent.waiting,
    consistent.pending⟩
  intro client member
  obtain ⟨found, listed, owner⟩ := consistent.watched client member
  cases listed with
  | head => exact absurd (owner ▸ member) unknown
  | tail _ listed => exact ⟨found, listed, owner⟩

theorem Consistent.withdraw (consistent : Consistent (entry :: rest) pending manager)
    (known : manager.clients.lookup entry.clientId = some clidata) :
    Consistent rest (pending.erase entry.clientId) (manager.withdraw entry.clientId clidata) := by
  refine consistent.forget known rfl rfl rfl rfl rfl ?_
  intro other listed different
  cases listed with
  | head => exact absurd rfl different
  | tail _ listed => exact listed

theorem Apart.free (apart : manager.Apart cutoff (entry :: rest))
    (consistent : Consistent (entry :: rest) pending manager) (due : (entry.time : Int) ≤ cutoff)
    (known : manager.clients.lookup entry.clientId = some clidata)
    (retried : manager.Retried entry clidata) :
    (manager.withdraw entry.clientId clidata).Free (manager.worker.wId, clidata.identifier)
      entry.clientId := by
  intro lookup found
  obtain ⟨other, stored⟩ := lookup_erase_iff.mp found
  obtain ⟨data, listed, key⟩ := consistent.held _ _ stored
  have same : lookup.clientId = entry.clientId :=
    apart lookup.clientId data entry.clientId clidata listed known (congrArg Prod.snd key)
      (.inl (congrArg Prod.fst key)) (.inr ⟨entry, List.mem_cons_self, rfl, due, retried⟩)
  exact same

/-- One turn of the loop: the entry's client is answered or asked for again, and
nothing else changes for any other client. -/
structure Turn (cutoff : Int) (now : Nat) (entry : Active) (rest : List Active)
    (pending : Finset ClientId) (before after : ResolverManager α)
    (response : Option (ClientId × Response α)) : Prop where
  kept : ∃ added, after.active = before.active ++ added ∧
    Consistent (rest ++ added) (settle pending response) after ∧
    Narrows cutoff (entry :: rest) (rest ++ added) before after
  others : ∀ client, client ≠ entry.clientId →
    after.clients.lookup client = before.clients.lookup client
  dealt : entry.clientId ∈ pending → Dealt now entry.clientId after response

theorem Consistent.expire (consistent : Consistent (entry :: rest) pending manager)
    (apart : manager.Apart cutoff (entry :: rest)) (due : (entry.time : Int) ≤ cutoff) (now : Nat) :
    Turn cutoff now entry rest pending manager (manager.expire now entry).1
      (manager.expire now entry).2 := by
  cases known : manager.clients.lookup entry.clientId with
  | none =>
      obtain ⟨silent, same, worker⟩ := expire_unknown known now
      have unknown : entry.clientId ∉ manager.clients := AList.lookup_eq_none.mp known
      refine ⟨⟨[], by simpa using same.active, ?_, ?_⟩, fun _ _ => by rw [same.clients], ?_⟩
      · rw [silent, List.append_nil]
        exact (consistent.unwatch unknown).same same
      · exact narrows_of_subset worker same.configuration
          (fun _ _ listed => by rwa [same.clients] at listed) (by simp +contextual)
      · exact fun member => absurd ((consistent.pending _).mp member) unknown
  | some clidata =>
      obtain ⟨lookup, stored, owner⟩ := consistent.keyed _ _ known
      have withdrawn := consistent.withdraw known
      have member : entry.clientId ∈ pending := (consistent.pending _).mpr (lookup_mem known)
      by_cases retried : manager.Retried entry clidata
      · have free := apart.free consistent due known retried
        have askable := consistent.resolving _ _ stored
        obtain ⟨silent, worker, hostname, tracks⟩ := expire_retried known stored askable retried now
        rw [silent]
        have clients := tracks.clients
        refine ⟨⟨[⟨now, lookup.clientId, _⟩], tracks.active, ?_, ?_⟩, ?_, fun _ => .inr ?_⟩
        · have absent : lookup.clientId ∉ pending.erase entry.clientId := by
            rw [owner]
            exact Finset.notMem_erase _ _
          have filed := withdrawn.track tracks absent (by rw [owner]; exact free) askable
          rw [owner, Finset.insert_erase member] at filed
          rw [owner]
          exact filed
        · intro client data listed onUdp
          rw [clients, owner] at listed
          rcases lookup_insert_iff.mp listed with ⟨rfl, rfl⟩ | ⟨other, listed⟩
          · exact ⟨clidata, known, rfl, .inr ⟨entry, List.mem_cons_self, rfl, due, retried⟩⟩
          · refine ⟨data, (lookup_erase_iff.mp listed).2, rfl, ?_⟩
            rcases onUdp with filed | ⟨later, watched, whose, expired, attempts, socket⟩
            · exact .inl (filed.trans (congrArg Worker.wId worker))
            · rw [tracks.configuration] at attempts
              rw [worker] at socket
              rcases List.mem_append.mp watched with earlier | added
              · exact .inr ⟨later, List.mem_cons_of_mem _ earlier, whose, expired, attempts, socket⟩
              · rw [List.mem_singleton.mp added] at whose
                exact absurd (whose.symm.trans owner) other
        · intro client other
          rw [clients, owner, AList.lookup_insert_ne other]
          exact AList.lookup_erase_ne other
        · rw [clients, owner]
          exact ⟨_, AList.lookup_insert _, rfl⟩
      · obtain ⟨⟨page, spoken⟩, same, worker⟩ := expire_answered known stored retried now
        rw [owner] at spoken
        refine ⟨⟨[], by rw [List.append_nil]; exact same.active, ?_, ?_⟩, ?_,
          fun _ => .inl ⟨page, spoken⟩⟩
        · rw [spoken, List.append_nil]
          exact withdrawn.same same
        · refine narrows_of_subset worker same.configuration (fun client data listed => ?_)
            (by simp +contextual)
          rw [same.clients] at listed
          exact (lookup_erase_iff.mp listed).2
        · intro client other
          rw [same.clients]
          exact AList.lookup_erase_ne other

/-- How often the lookups may be sent again altogether. -/
def attempts (manager : ResolverManager α) : Nat :=
  (manager.clients.entries.map fun listed =>
    manager.configuration.retries - listed.2.resolveCount).sum

theorem attempts_withdraw (known : manager.clients.lookup clientId = some clidata) :
    manager.attempts = manager.configuration.retries - clidata.resolveCount +
      (manager.withdraw clientId clidata).attempts := by
  have listed := (entries_perm_erase known).map fun listed : Sigma fun _ : ClientId => ClientData =>
    manager.configuration.retries - listed.2.resolveCount
  exact listed.sum_nat.trans (by rw [List.map_cons, List.sum_cons]; rfl)

theorem Same.attempts (same : manager.Same after) : after.attempts = manager.attempts := by
  simp only [ResolverManager.attempts, same.clients, same.configuration]

theorem Tracks.attempts (tracks : Tracks clidata entry lookup manager after)
    (absent : lookup.clientId ∉ manager.clients) : after.attempts =
      manager.configuration.retries - clidata.resolveCount + manager.attempts := by
  simp only [ResolverManager.attempts, tracks.clients, tracks.configuration,
    AList.entries_insert_of_notMem absent, List.map_cons, List.sum_cons]

/-- A turn of the loop that adds an entry uses up an attempt. -/
theorem expire_attempts (consistent : Consistent (entry :: rest) pending manager) (now : Nat) :
    (manager.expire now entry).1.active.length + (manager.expire now entry).1.attempts ≤
      manager.active.length + manager.attempts := by
  cases known : manager.clients.lookup entry.clientId with
  | none =>
      obtain ⟨_, same, _⟩ := expire_unknown known now
      rw [same.active, same.attempts]
  | some clidata =>
      obtain ⟨lookup, stored, owner⟩ := consistent.keyed _ _ known
      have before := attempts_withdraw known
      by_cases retried : manager.Retried entry clidata
      · obtain ⟨_, _, hostname, tracks⟩ :=
          expire_retried known stored (consistent.resolving _ _ stored) retried now
        have absent : lookup.clientId ∉ (manager.withdraw entry.clientId clidata).clients := by
          rw [owner]
          exact fun member => (AList.mem_erase.mp member).1 rfl
        have later := tracks.attempts absent
        have active : (manager.withdraw entry.clientId clidata).active = manager.active := rfl
        have retries : (manager.withdraw entry.clientId clidata).configuration =
          manager.configuration := rfl
        have left := retried.1
        rw [tracks.active, active, later, retries, before, List.length_append, List.length_singleton]
        dsimp only
        omega
      · obtain ⟨_, same, _⟩ := expire_answered known stored retried now
        have active : (manager.withdraw entry.clientId clidata).active = manager.active := rfl
        rw [same.active, same.attempts, active, before]
        omega

/-- The loop stops where the next entry has not timed out, or it takes a turn. -/
theorem cleanupLoop_cases {clock : Nat → Nat} {fuel count : Nat} {responses : List (ClientId × Response α)}
    (ended : manager.cleanupLoop clock cutoff (fuel + 1) count = some (after, responses)) :
    (after = { manager with active := manager.active.drop count } ∧ responses = [] ∧
        ∀ entry ∈ manager.active[count]?, cutoff < entry.time) ∨
      ∃ entry later, manager.active[count]? = some entry ∧ (entry.time : Int) ≤ cutoff ∧
        (manager.expire (clock count) entry).1.cleanupLoop clock cutoff fuel (count + 1) = some (after, later) ∧
        responses = (manager.expire (clock count) entry).2.toList ++ later := by
  cases next : manager.active[count]? with
  | none =>
      simp only [cleanupLoop, next, Option.some.injEq, Prod.mk.injEq] at ended
      exact .inl ⟨ended.1.symm, ended.2.symm, fun _ member => nomatch member⟩
  | some entry =>
      by_cases fresh : (entry.time : Int) > cutoff
      · simp only [cleanupLoop, next, fresh, if_true, Option.some.injEq, Prod.mk.injEq] at ended
        refine .inl ⟨ended.1.symm, ended.2.symm, ?_⟩
        intro _ given
        cases given
        exact fresh
      · simp only [cleanupLoop, next, fresh, if_false, Option.map_eq_some_iff, Prod.mk.injEq,
          Prod.exists] at ended
        obtain ⟨_, later, ended, rfl, rfl⟩ := ended
        exact .inr ⟨entry, later, rfl, Int.not_lt.mp fresh, ended, rfl⟩

theorem drop_next {count : Nat} (next : manager.active[count]? = some entry) :
    manager.active.drop count = entry :: manager.active.drop (count + 1) := by
  obtain ⟨bound, found⟩ := List.getElem?_eq_some_iff.mp next
  rw [List.drop_eq_getElem_cons bound, found]

theorem drop_added {added : List Active} {count : Nat} (next : manager.active[count]? = some entry)
    (active : after.active = manager.active ++ added) :
    after.active.drop (count + 1) = manager.active.drop (count + 1) ++ added := by
  obtain ⟨bound, _⟩ := List.getElem?_eq_some_iff.mp next
  rw [active, List.drop_append_of_le_length (by omega)]

/-- The loop ends: every turn leaves fewer entries or fewer attempts. -/
theorem cleanupLoop_ends (clock : Nat → Nat) (fuel count : Nat)
    (consistent : Consistent (manager.active.drop count) pending manager)
    (apart : manager.Apart cutoff (manager.active.drop count))
    (enough : manager.active.length + manager.attempts < fuel + count) :
    ∃ result, manager.cleanupLoop clock cutoff (fuel + 1) count = some result := by
  induction fuel generalizing count manager pending with
  | zero =>
      have done : manager.active[count]? = none := List.getElem?_eq_none_iff.mpr (by omega)
      exact ⟨_, by simp only [cleanupLoop, done]; rfl⟩
  | succ fuel ih =>
      cases next : manager.active[count]? with
      | none => exact ⟨_, by simp only [cleanupLoop, next]; rfl⟩
      | some entry =>
          obtain ⟨bound, found⟩ := List.getElem?_eq_some_iff.mp next
          by_cases fresh : (entry.time : Int) > cutoff
          · exact ⟨_, by simp only [cleanupLoop, next, fresh, if_true]; rfl⟩
          · rw [drop_next next] at consistent apart
            have turn := consistent.expire apart (by omega) (clock count)
            obtain ⟨added, active, kept, narrows⟩ := turn.kept
            have rest := drop_added next active
            have fewer := expire_attempts consistent (clock count)
            obtain ⟨result, ended⟩ := ih (count + 1) (rest ▸ kept) (rest ▸ apart.narrows narrows)
              (by omega)
            refine ⟨(result.1, (manager.expire (clock count) entry).2.toList ++ result.2), ?_⟩
            rw [cleanupLoop]
            simp only [next, fresh, if_false, ended]
            rfl

/-- The client was answered by `cleanup`, or its query was sent again. -/
def Attended (clock : Nat → Nat) (clientId : ClientId) (after : ResolverManager α)
    (responses : List (ClientId × Response α)) : Prop :=
  (∃ page, (clientId, page) ∈ responses) ∨
    ∃ clidata, after.clients.lookup clientId = some clidata ∧
      ∃ count, clidata.activeTime = clock count

theorem Attended.mono {clock : Nat → Nat} {responses : List (ClientId × Response α)}
    {earlier : List (ClientId × Response α)} (attended : Attended clock clientId after responses) :
    Attended clock clientId after (earlier ++ responses) :=
  attended.imp_left fun ⟨page, given⟩ => ⟨page, List.mem_append_right _ given⟩

/-- The loop will come to an entry of the client. -/
def Due (cutoff : Int) (watched : List Active) (clientId : ClientId) : Prop :=
  ∃ due, due <+: watched ∧ (∀ entry ∈ due, (entry.time : Int) ≤ cutoff) ∧
    ∃ entry ∈ due, entry.clientId = clientId

theorem Due.next {added : List Active} (due : Due cutoff (entry :: rest) clientId)
    (other : clientId ≠ entry.clientId) : Due cutoff (rest ++ added) clientId := by
  obtain ⟨first, isPrefix, expired, found, listed, owner⟩ := due
  cases first with
  | nil => cases listed
  | cons head due =>
      obtain ⟨rfl, shorter⟩ := List.cons_prefix_cons.mp isPrefix
      refine ⟨due, shorter.trans (List.prefix_append rest added),
        fun entry member => expired entry (List.mem_cons_of_mem _ member), found, ?_, owner⟩
      cases listed with
      | head => exact absurd owner.symm other
      | tail _ listed => exact listed

theorem Due.next_timedOut {count : Nat} (due : Due cutoff (manager.active.drop count) clientId)
    (fresh : ∀ entry ∈ manager.active[count]?, cutoff < entry.time) : False := by
  obtain ⟨first, isPrefix, expired, entry, listed, _⟩ := due
  cases first with
  | nil => cases listed
  | cons head rest =>
      obtain ⟨others, split⟩ := isPrefix
      have next : manager.active[count]? = some head := by
        rw [← List.head?_drop, ← split]
        rfl
      have late := fresh head next
      have timedOut := expired head List.mem_cons_self
      omega

/-- The pending clients after all these responses were given. -/
def settleAll (pending : Finset ClientId) (responses : List (ClientId × Response α)) :
    Finset ClientId :=
  responses.foldl (fun pending response => pending.erase response.1) pending

theorem settleAll_cons (pending : Finset ClientId) (response : Option (ClientId × Response α))
    (responses : List (ClientId × Response α)) :
    settleAll pending (response.toList ++ responses) =
      settleAll (settle pending response) responses := by
  cases response <;> rfl

theorem mem_settle {response : Option (ClientId × Response α)} (member : clientId ∈ pending)
    (silent : ∀ page, response ≠ some (clientId, page)) : clientId ∈ settle pending response := by
  cases response with
  | none => exact member
  | some response =>
      obtain ⟨client, page⟩ := response
      refine Finset.mem_erase.mpr ⟨?_, member⟩
      intro same
      subst same
      exact silent page rfl

/-- The loop of `cleanup` loses no lookup, and attends to every client it comes to. -/
theorem cleanupLoop_kept (clock : Nat → Nat) (fuel count : Nat)
    {responses : List (ClientId × Response α)}
    (consistent : Consistent (manager.active.drop count) pending manager)
    (apart : manager.Apart cutoff (manager.active.drop count))
    (ended : manager.cleanupLoop clock cutoff fuel count = some (after, responses)) :
    Consistent after.active (settleAll pending responses) after ∧
      ∀ clientId ∈ pending, Due cutoff (manager.active.drop count) clientId ∨
          (∃ clidata, manager.clients.lookup clientId = some clidata ∧
            ∃ count, clidata.activeTime = clock count) →
        Attended clock clientId after responses := by
  induction fuel generalizing count manager pending responses with
  | zero => simp only [cleanupLoop, reduceCtorEq] at ended
  | succ fuel ih =>
      rcases cleanupLoop_cases ended with ⟨rfl, rfl, fresh⟩ | ⟨entry, later, next, timedOut, rest, rfl⟩
      · refine ⟨⟨⟨consistent.keyed, consistent.held, consistent.watched⟩,
          ⟨consistent.resolving, consistent.sending⟩, consistent.waiting, consistent.pending⟩, ?_⟩
        rintro client _ (due | kept)
        · exact (due.next_timedOut fresh).elim
        · exact .inr kept
      · rw [drop_next next] at consistent apart ⊢
        have turn := consistent.expire apart timedOut (clock count)
        obtain ⟨added, active, kept, narrows⟩ := turn.kept
        have left := drop_added next active
        obtain ⟨consistent', attended⟩ := ih (count + 1) (left ▸ kept) (left ▸ apart.narrows narrows) rest
        refine ⟨by rw [settleAll_cons]; exact consistent', fun client member reached => ?_⟩
        by_cases answered : ∃ page, (manager.expire (clock count) entry).2 = some (client, page)
        · obtain ⟨page, answered⟩ := answered
          exact .inl ⟨page, by rw [answered]; exact List.mem_cons_self⟩
        · refine (attended client (mem_settle member (not_exists.mp answered)) ?_).mono
          rw [left]
          by_cases own : client = entry.clientId
          · subst own
            obtain answer | ⟨clidata, known, again⟩ := turn.dealt member
            · exact absurd answer answered
            · exact .inr ⟨clidata, known, count, again⟩
          · rw [turn.others client own]
            exact reached.imp_left fun due => due.next own

end ResolverManager

end ExaProxy.Resolver
