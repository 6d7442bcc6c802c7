import ExaProxy.Resolver.Counts

namespace ExaProxy.Resolver

open ExaProxy.Data

/-- The manager, how often `startResolving` was called, and the follow-up queries made on
behalf of each call. -/
structure Calls (α : Type) where
  manager : ResolverManager (Nat × α)
  calls : Nat := 0
  asked : Nat → Nat := fun _ => 0

namespace Calls

open ResolverManager

variable {α : Type} {session before after : Calls α} {event : Event α} {configuration : DNSClient.Configuration}

/-- The decision of the next call, under its number. -/
def numbered (session : Calls α) (decision : Decision α) : Decision (Nat × α) :=
  ⟨decision.hostname, (session.calls, decision.args)⟩

/-- The session after an operation; `none` where the code raises or has not ended. -/
def next (fuel : Nat) (session : Calls α) : Event α → Option (Calls α)
  | .start now clientId command decision => some { session with
      manager := (session.manager.startResolving now clientId command (session.numbered decision) 1 none).1
      calls := session.calls + 1 }
  | .respond now allSent sock result =>
      if session.manager.unpacksNone sock result then none
      else some { session with
        manager := (session.manager.getResponse now allSent sock result).1
        asked := noted session.asked (session.manager.followed sock result) }
  | .send sock => (session.manager.continueSending sock).map fun manager => { session with manager }
  | .cleanup now clock => (session.manager.cleanup now clock fuel).map fun (manager, _) => { session with manager }
  | .expireCache now => some { session with manager := session.manager.expireCache now }

/-- An operation of the session, with a result that the worker can have made. -/
def Step (configuration : DNSClient.Configuration) (before : Calls α) (event : Event α) (after : Calls α) : Prop :=
  (∀ now allSent sock result, event = .respond now allSent sock result →
    Reads configuration before.manager sock result) ∧ ∃ fuel, before.next fuel event = some after

def Start (session : Calls α) : Prop := ∃ configuration, session = { manager := { configuration } }

/-- No call has more than ten follow-ups, and an answer to a query finds the count of its own
lookup. -/
structure Budgeted (session : Calls α) : Prop where
  bounded : ∀ call, session.asked call ≤ 10
  counted : ∀ key lookup, session.manager.resolving.lookup key = some lookup →
    session.manager.count key.2 = session.asked lookup.call

/-- The condition under which an operation keeps the counts. -/
def CountKept (session : Calls α) : Event α → Prop
  | .start _ _ command decision => ∀ hostname, extractHostname command (session.numbered decision) = some hostname →
      session.manager.shortcut hostname command (session.numbered decision) true = none →
      session.manager.count (nextIdentifier session.manager.worker.drawn) = 0
  | .respond _ _ sock result => ∀ worker, session.manager.workerOf sock = some worker →
      session.manager.AnswerCounted sock worker result
  | .send sock => ∀ lookup clidata, session.manager.sending.lookup sock = some lookup →
      session.manager.clients.lookup lookup.clientId = some clidata →
      ∃ filed, session.manager.resolving.lookup (clidata.wId, clidata.identifier) = some filed ∧
        filed.call = lookup.call
  | .cleanup .. | .expireCache .. => True

theorem Step.accounted (accounted : Accounted before.asked before.calls before.manager)
    (kept : before.CountKept event) (stepped : Step configuration before event after) :
    Accounted after.asked after.calls after.manager := by
  obtain ⟨reads, fuel, stepped⟩ := stepped
  cases event with
  | start now clientId command decision =>
      cases stepped
      have more : Accounted before.asked (before.calls + 1) before.manager := { accounted with
        known := fun command decision known => Nat.lt_succ_of_lt (accounted.known command decision known)
        fresh := fun call late => accounted.fresh call (Nat.le_of_succ_le late) }
      have unused : before.manager.Loose before.calls := by
        refine ⟨fun key lookup found same => ?_, fun waiter listed same => ?_⟩
        · exact Nat.ne_of_lt (accounted.known _ _ (.resolving found)) same
        · exact Nat.ne_of_lt (accounted.known _ _ (.waiting listed)) same
      refine more.startResolving unused (Nat.lt_succ_self _) (fun hostname extracted shortcut => ?_) clientId 1
      exact (kept hostname extracted shortcut).trans (accounted.fresh _ (Nat.le_refl _)).symm
  | respond now allSent sock result =>
      simp only [next] at stepped
      split at stepped
      · cases stepped
      · cases stepped
        exact accounted.getResponse (reads now allSent sock result rfl) kept
  | send sock =>
      obtain ⟨manager, sent, rfl⟩ := Option.map_eq_some_iff.mp stepped
      exact accounted.continueSending kept sent
  | cleanup now clock =>
      obtain ⟨⟨manager, responses⟩, ended, rfl⟩ := Option.map_eq_some_iff.mp stepped
      exact accounted.cleanup ended
  | expireCache now =>
      cases stepped
      exact accounted.expireCache now

theorem Start.accounted (started : Start session) : Accounted session.asked session.calls session.manager := by
  obtain ⟨configuration, rfl⟩ := started
  exact {
    udp := Nat.zero_lt_one
    own := fun _ _ found => nomatch found
    bounded := fun _ => Nat.zero_le 10
    counted := fun _ _ found => nomatch found
    single := fun _ _ _ _ found => nomatch found
    patient := fun _ listed => nomatch listed
    distinct := List.nodup_nil
    known := fun _ _ known => by
      cases known with
      | resolving found => cases found
      | sending found => cases found
      | waiting listed => cases listed
    fresh := fun _ _ => rfl
    unsent := AList.notMem_empty _ }

/-- A step that meets the condition. -/
def KeptStep (configuration : DNSClient.Configuration) (before after : Calls α) : Prop :=
  ∃ event, before.CountKept event ∧ Step configuration before event after

/-- The follow-ups of a lookup stay within its budget in every run whose steps keep the
counts. -/
theorem budget_kept (reached : Reachable Start (KeptStep configuration) session) : session.Budgeted := by
  have accounted : Accounted session.asked session.calls session.manager := by
    refine reached.invariant (fun session => Accounted session.asked session.calls session.manager)
      (fun _ started => started.accounted) ?_
    intro before after _ accounted ⟨event, kept, stepped⟩
    exact stepped.accounted accounted kept
  exact ⟨accounted.bounded, accounted.counted⟩

def atStart : Calls Unit := { manager := { configuration := ⟨2, 10, 900, true, 100⟩ } }

theorem atStart_start : Start atStart := ⟨_, rfl⟩

def lookupStart : Event Unit := .start 0 1 (ascii "download") ⟨ascii "a.b", ()⟩

theorem lookupStart_step {after : Calls Unit} (started : atStart.next 1 lookupStart = some after) :
    Step configuration atStart lookupStart after := by
  refine ⟨fun now allSent sock result same => ?_, 1, started⟩
  cases same

theorem budget_kept_first : ∃ session ∈ atStart.next 1 lookupStart, session.calls = 1 ∧ session.Budgeted := by
  have kept : ∀ {after : Calls Unit}, atStart.next 1 lookupStart = some after →
      KeptStep ⟨true, false⟩ atStart after :=
    fun started => ⟨lookupStart, fun _ _ _ => rfl, lookupStart_step started⟩
  exact ⟨_, rfl, rfl, budget_kept ((Reachable.start atStart_start).next (kept rfl))⟩

/-- The answer to the query under an identifier: `name` is an alias of `other`. -/
def aliasAnswer (identifier : Nat) (name other : Str) (complete : Bool) : Dns.DNSResponseType where
  identifier := identifier
  complete := complete
  queries := [{ querytype := some (ascii "A"), question := name }]
  responses := [{
    querytype := some (ascii "CNAME")
    question := name
    response := some other
    ttl := 60 }]
  authorities := []
  additionals := []

/-- A worker reads a response, and sends what it asks for. -/
def read (session : Calls α) (reply : Sock × Dns.DNSResponseType) : Option (Calls α) :=
  (DNSClient.find ⟨true, false⟩ (session.manager.count reply.2.identifier) (fun _ => 0) id 3 reply.2).bind fun found =>
    session.next 1 (.respond 0 (fun _ => true) reply.1 (some (found.result reply.2 true)))

theorem read_step {reply : Sock × Dns.DNSResponseType} (ended : before.read reply = some after) :
    ∃ event, Step ⟨true, false⟩ before event after := by
  obtain ⟨found, looked, next⟩ := Option.bind_eq_some_iff.mp ended
  refine ⟨_, fun now allSent sock result same => ?_, 1, next⟩
  cases same
  exact .response _ _ _ _ found true looked fun _ => rfl

/-- `a.b` and `c.d` are aliases of each other.  The answer after the tenth follow-up is
truncated, and the count starts again over TCP. -/
def aliasLoop : List (Sock × Dns.DNSResponseType) :=
  (List.range 10).map (fun turn => (0,
    if turn % 2 = 0 then aliasAnswer (turn + 1) (ascii "a.b") (ascii "c.d") true
    else aliasAnswer (turn + 1) (ascii "c.d") (ascii "a.b") true)) ++
  [(0, aliasAnswer 11 (ascii "a.b") (ascii "c.d") false), (1, aliasAnswer 1 (ascii "a.b") (ascii "c.d") true)]

theorem budget_exceeded : ¬ ∀ session : Calls Unit,
    Reachable Start (fun before after => ∃ event, Step ⟨true, false⟩ before event after) session →
    ∀ call, session.asked call ≤ 10 := by
  intro bounded
  have eleven : ∃ session ∈ (atStart.next 1 lookupStart).bind (aliasLoop.foldlM read), session.asked 0 = 11 := by
    decide +kernel
  obtain ⟨session, ended, many⟩ := eleven
  obtain ⟨first, started, ended⟩ := Option.bind_eq_some_iff.mp ended
  have asked : Reachable Start (fun before after => ∃ event, Step ⟨true, false⟩ before event after) first :=
    (Reachable.start atStart_start).next ⟨lookupStart, lookupStart_step started⟩
  have reached := asked.foldlM (fun _ _ _ ended => read_step ended) ended
  have few := bounded session reached 0
  omega

end Calls

end ExaProxy.Resolver
