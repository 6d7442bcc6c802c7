import ExaProxy.Resolver.Retries

namespace ExaProxy.Resolver

open ExaProxy.Data Relation

/-- The session, the record of what was done, and the time; `named` are the queries
that had an answer which names their host. -/
structure Journal (α : Type) extends Session α where
  log : Log ClientId (Response α) := {}
  time : Nat := 0
  named : List Nat := []

namespace Journal

variable {α : Type} {journal before after : Journal α} {event : Event α}

open ResolverManager

/-- The query whose host an answer names. -/
def names (manager : ResolverManager α) : Event α → List Nat
  | .respond _ _ _ (some result) =>
      match manager.answered manager.worker result with
      | some (identifier, lookup) => if result.forhost = some lookup.hostname then [identifier] else []
      | none => []
  | _ => []

/-- The clock does not go back from a time on. -/
def Timed (fuel time : Nat) : Event α → Prop
  | .start now _ _ _ | .respond now _ _ _ | .expireCache now => time ≤ now
  | .cleanup now clock => time ≤ now ∧ now ≤ clock 0 ∧ ∀ index < fuel, clock index ≤ clock (index + 1)
  | .send _ => True

def passed (fuel time : Nat) : Event α → Nat
  | .start now _ _ _ | .respond now _ _ _ | .expireCache now => now
  | .cleanup _ clock => clock fuel
  | .send _ => time

instance (manager : ResolverManager α) (event : Event α) : Decidable (manager.Udp event) :=
  match event with
  | .respond _ _ sock result => inferInstanceAs (Decidable (sock = manager.worker.socket ∧
      ∀ parsed ∈ result, parsed.completed = true ∧ ∀ query ∈ parsed.followUp, query.2 = true))
  | .send _ => isFalse id
  | .start .. | .cleanup .. | .expireCache .. => isTrue trivial

instance (fuel time : Nat) (event : Event α) : Decidable (Timed fuel time event) :=
  match event with
  | .start now _ _ _ | .respond now _ _ _ | .expireCache now => inferInstanceAs (Decidable (time ≤ now))
  | .cleanup now clock => inferInstanceAs (Decidable
      (time ≤ now ∧ now ≤ clock 0 ∧ ∀ index < fuel, clock index ≤ clock (index + 1)))
  | .send _ => isTrue trivial

/-- The journal after an event over UDP, as long as fewer than 65534 numbers were drawn. -/
def next (fuel : Nat) (journal : Journal α) (event : Event α) : Option (Journal α) :=
  if journal.manager.Udp event ∧ Timed fuel journal.time event then
    (journal.toSession.next fuel event).bind fun session =>
      if session.manager.worker.drawn < 0xfffe then
        some ⟨session, journal.log ++ journal.manager.record fuel event, passed fuel journal.time event,
          journal.named ++ names journal.manager event⟩
      else none
  else none

def Start (journal : Journal α) : Prop :=
  ∃ configuration time, journal = ⟨⟨{ configuration }, ∅⟩, {}, time, []⟩

/-- A step that meets the condition. -/
def Step (meets : Journal α → Event α → Prop) (before after : Journal α) : Prop :=
  ∃ fuel event, meets before event ∧ before.next fuel event = some after

/-- What is waited for, with the record of what was done. -/
def queries (journal : Journal α) : Queries ClientId (Response α) := ⟨journal.log, journal.manager.awaits⟩

/-- The lookups are filed, and no number beyond those that were drawn was sent. -/
structure Sane (journal : Journal α) : Prop where
  consistent : Consistent journal.manager.active journal.pending journal.manager
  steady : Steady journal.time journal.manager.active journal.manager
  few : journal.manager.worker.drawn < 0xfffe
  sent : ∀ number ∈ journal.log.sent, number ≤ journal.manager.worker.drawn

theorem Start.sane (started : Start journal) : Sane journal := by
  obtain ⟨configuration, time, rfl⟩ := started
  refine ⟨(Session.Start.consistent ⟨configuration, rfl⟩), ⟨?_, ?_, ?_, ?_, .nil, ?_⟩, ?_, ?_⟩
  · exact fun _ member => absurd member List.not_mem_nil
  · exact fun _ _ known => nomatch known
  · exact fun _ _ known => nomatch known
  · exact fun _ _ known => nomatch known
  · exact fun _ member => absurd member List.not_mem_nil
  · exact Nat.zero_lt_succ _
  · exact fun _ member => absurd member List.not_mem_nil

theorem Sane.keeps (sane : Sane journal) (udp : journal.manager.Udp event) : journal.toSession.Keeps event := by
  obtain ⟨consistent, steady, few, _⟩ := sane
  cases event with
  | start now clientId command decision => exact steady.free consistent.toFiled few clientId
  | respond now allSent sock result =>
      obtain ⟨rfl, whole⟩ := udp
      intro worker known parsed given found _
      simp only [workerOf, if_true, Option.mem_some_iff] at known
      subst known
      simp only [AnswerKept, (whole parsed given).1, if_true]
      exact fun _ => steady.free consistent.toFiled few _
  | send sock => exact udp.elim
  | cleanup now clock => exact steady.apart consistent.toFiled _ _
  | expireCache now => trivial

theorem expireCache_worker (manager : ResolverManager α) (now : Nat) :
    (manager.expireCache now).worker = manager.worker := by
  unfold expireCache
  split
  · rfl
  · split <;> rfl

theorem Sane.moves {fuel : Nat} {session : Session α} (sane : Sane journal) (udp : journal.manager.Udp event)
    (timed : Timed fuel journal.time event) (went : journal.toSession.next fuel event = some session) :
    Steady (passed fuel journal.time event) session.manager.active session.manager ∧
      Moves journal.manager session.manager (journal.manager.record fuel event) := by
  obtain ⟨consistent, steady, few, _⟩ := sane
  cases event with
  | start now clientId command decision =>
      simp only [Session.next] at went
      split at went
      · cases went
      · next absent =>
          cases went
          have idle : clientId ∉ journal.manager.clients := fun member =>
            absent ((consistent.pending clientId).mpr member)
          exact ⟨steady.startResolving timed few clientId command decision,
            startResolving_moves few idle fuel now command decision⟩
  | respond now allSent sock result =>
      obtain ⟨rfl, whole⟩ := udp
      rcases ite_eq_iff.mp went with ⟨_, raised⟩ | ⟨_, went⟩
      · cases raised
      cases went
      cases result with
      | none =>
          simp only [workerOf, if_true]
          exact ⟨steady.same (same_refl _) (draws_refl _) timed, .idle (draws_refl _) rfl rfl⟩
      | some result =>
          obtain ⟨complete, whole⟩ := whole result rfl
          obtain ⟨responded, worker⟩ :=
            getResponse_responded consistent.toFiled now allSent result complete whole
          exact ⟨steady.responded timed few responded worker,
            getResponse_moves consistent.toFiled few fuel now allSent result complete whole⟩
  | send sock => exact udp.elim
  | cleanup now clock =>
      obtain ⟨⟨manager, responses⟩, ended, rfl⟩ := Option.map_eq_some_iff.mp went
      obtain ⟨started, begun, rising⟩ := timed
      exact cleanupLoop_moves fuel 0 consistent steady (started.trans begun) rising (by omega) ended
  | expireCache now =>
      cases went
      have same := expireCache_same journal.manager now
      have draws := draws_of_worker (expireCache_worker journal.manager now)
      refine ⟨?_, .idle draws same.configuration same.clients⟩
      rw [same.active]
      exact steady.same same draws timed

/-- What one step does: the tables stay sane, and the queries make the steps of the record. -/
theorem Sane.step {fuel : Nat} (sane : Sane before) (stepped : before.next fuel event = some after) :
    Sane after ∧ Moves before.manager after.manager (before.manager.record fuel event) ∧
      after.log = before.log ++ before.manager.record fuel event ∧
      after.named = before.named ++ names before.manager event := by
  simp only [next] at stepped
  split at stepped
  · next allowed =>
      obtain ⟨udp, timed⟩ := allowed
      obtain ⟨session, went, stepped⟩ := Option.bind_eq_some_iff.mp stepped
      split at stepped
      · next few =>
          cases stepped
          have consistent := Session.Step.consistent sane.consistent (sane.keeps udp) ⟨fuel, went⟩
          have moved := sane.moves udp timed went
          refine ⟨⟨consistent, moved.1, few, ?_⟩, moved.2, rfl, rfl⟩
          intro number member
          rcases List.mem_append.mp member with own | own
          · exact (sane.sent number own).trans moved.2.draws.drawn
          · exact moved.2.sent number own
      · cases stepped
  · cases stepped

variable {meets : Journal α → Event α → Prop}

theorem reachable_sane (reached : Reachable Start (Step meets) journal) : Sane journal := by
  refine reached.invariant Sane (fun _ started => started.sane) ?_
  intro before after _ sane given
  obtain ⟨_, _, _, stepped⟩ := given
  exact (sane.step stepped).1

theorem Start.sound (started : Start journal) :
    journal.queries.Sound journal.manager.configuration.retries GivesUp := by
  obtain ⟨configuration, time, rfl⟩ := started
  exact .start

theorem reachable_sound (reached : Reachable Start (Step meets) journal) :
    journal.queries.Sound journal.manager.configuration.retries GivesUp := by
  refine reached.invariant (fun journal => journal.queries.Sound journal.manager.configuration.retries GivesUp)
    (fun _ started => started.sound) ?_
  intro before after earlier sound given
  obtain ⟨fuel, event, _, stepped⟩ := given
  have sane := reachable_sane earlier
  obtain ⟨_, moved, log, _⟩ := sane.step stepped
  rw [moved.configuration]
  have steps := moved.steps before.log sane.sent
  rw [← log] at steps
  exact sound.steps steps

/-- The client waits for the query, which has timed out. -/
def Overdue (journal : Journal α) (clientId : ClientId) (number now : Nat) : Prop :=
  ∃ clidata, journal.manager.clients.lookup clientId = some clidata ∧ clidata.identifier = number ∧
    clidata.activeTime + journal.manager.configuration.timeout ≤ now

/-- A run, in which so many calls of `cleanup` find that the query has timed out. -/
inductive Follows (meets : Journal α → Event α → Prop) (clientId : ClientId) (number : Nat) :
    Nat → Journal α → Journal α → Prop where
  | refl (journal : Journal α) : Follows meets clientId number 0 journal journal
  | next (count : Nat) (first between after : Journal α) (run : Follows meets clientId number count first between)
      (stepped : Step meets between after) : Follows meets clientId number count first after
  | overdue (count fuel now : Nat) (clock : Nat → Nat) (first between after : Journal α)
      (run : Follows meets clientId number count first between) (overdue : between.Overdue clientId number now)
      (met : meets between (.cleanup now clock)) (stepped : between.next fuel (.cleanup now clock) = some after) :
      Follows meets clientId number (count + 1) first after

theorem Follows.reached {clientId : ClientId} {number count : Nat} {first : Journal α}
    (run : Follows meets clientId number count first after) (reached : Reachable Start (Step meets) first) :
    Reachable Start (Step meets) after := by
  induction run with
  | refl => exact reached
  | next count first between after run stepped ih => exact (ih reached).next stepped
  | overdue count fuel now clock first between after run overdue met stepped ih =>
      exact (ih reached).next ⟨fuel, _, met, stepped⟩

theorem Sane.due (sane : Sane journal) {clientId : ClientId} {number now : Nat}
    (overdue : journal.Overdue clientId number now) :
    Due ((now : Int) - journal.manager.configuration.timeout) journal.manager.active clientId := by
  obtain ⟨clidata, known, _, late⟩ := overdue
  obtain ⟨entry, listed, own, stamped⟩ := sane.steady.timed _ _ known
  have ordered := sane.steady.ordered
  obtain ⟨first, rest, split⟩ := List.append_of_mem listed
  rw [split] at ordered ⊢
  refine ⟨first ++ [entry], ⟨rest, by simp⟩, ?_, entry, by simp, own⟩
  intro other member
  rcases List.mem_append.mp member with earlier | same
  · have before := (List.pairwise_append.mp ordered).2.2 other earlier entry List.mem_cons_self
    omega
  · rw [List.mem_singleton.mp same]
    omega

theorem Sane.dealt (sane : Sane before) {clientId : ClientId} {fuel number now : Nat} {clock : Nat → Nat}
    (overdue : before.Overdue clientId number now)
    (stepped : before.next fuel (.cleanup now clock) = some after) :
    number ∈ (before.manager.record fuel (.cleanup now clock)).sent ∨
      (before.manager.record fuel (.cleanup now clock)).Settled number := by
  have due := sane.due overdue
  obtain ⟨clidata, known, rfl, _⟩ := overdue
  simp only [next] at stepped
  split at stepped
  · next allowed =>
      obtain ⟨_, started, begun, rising⟩ := allowed
      obtain ⟨session, went, _⟩ := Option.bind_eq_some_iff.mp stepped
      obtain ⟨⟨manager, responses⟩, ended, _⟩ := Option.map_eq_some_iff.mp went
      exact cleanupLoop_dealt fuel 0 sane.consistent sane.steady (started.trans begun) rising (by omega)
        ended known due
  · cases stepped

theorem Follows.sent {clientId : ClientId} {number count : Nat} {first : Journal α}
    (run : Follows meets clientId number count first after) (reached : Reachable Start (Step meets) first) :
    after.log.Settled number ∨ first.log.sent.count number + count ≤ after.log.sent.count number := by
  induction run with
  | refl => exact .inr le_rfl
  | next count first between after run stepped ih =>
      obtain ⟨fuel, event, _, stepped⟩ := stepped
      obtain ⟨_, _, log, _⟩ := (reachable_sane (run.reached reached)).step stepped
      rw [log]
      rcases ih reached with settled | often
      · exact .inl (settled.append _)
      · refine .inr (often.trans ?_)
        simp only [Log.append_eq, List.count_append]
        omega
  | overdue count fuel now clock first between after run overdue met stepped ih =>
      have sane := reachable_sane (run.reached reached)
      obtain ⟨_, _, log, _⟩ := sane.step stepped
      rw [log]
      rcases ih reached with settled | often
      · exact .inl (settled.append _)
      · rcases sane.dealt overdue stepped with sent | settled
        · have more := List.count_pos_iff.mpr sent
          refine .inr ?_
          simp only [Log.append_eq, List.count_append]
          omega
        · exact .inl (settled.prepend _)

/-- The query was sent so often, and then its client got a last decision, once. -/
def GivenUp (journal : Journal α) (limit : Nat) (clientId : ClientId) (number : Nat) : Prop :=
  journal.log.sent.count number = limit ∧
    ∃ last, GivesUp last ∧ journal.log.expired.filter (·.1 = number) = [(number, clientId, last)]

theorem Follows.configuration {clientId : ClientId} {number count : Nat} {first : Journal α}
    (run : Follows meets clientId number count first after) (reached : Reachable Start (Step meets) first) :
    after.manager.configuration = first.manager.configuration := by
  induction run with
  | refl => rfl
  | next count first between after run stepped ih =>
      obtain ⟨fuel, event, _, stepped⟩ := stepped
      obtain ⟨_, moved, _⟩ := (reachable_sane (run.reached reached)).step stepped
      exact moved.configuration.trans (ih reached)
  | overdue count fuel now clock first between after run overdue met stepped ih =>
      obtain ⟨_, moved, _⟩ := (reachable_sane (run.reached reached)).step stepped
      exact moved.configuration.trans (ih reached)

theorem Follows.owned {clientId : ClientId} {number count : Nat} {first : Journal α}
    (run : Follows meets clientId number count first after) (reached : Reachable Start (Step meets) first)
    {pair : Nat × ClientId} (owned : pair ∈ first.log.owned) : pair ∈ after.log.owned := by
  induction run with
  | refl => exact owned
  | next count first between after run stepped ih =>
      obtain ⟨fuel, event, _, stepped⟩ := stepped
      obtain ⟨_, _, log, _⟩ := (reachable_sane (run.reached reached)).step stepped
      rw [log]
      exact List.mem_append_left _ (ih reached owned)
  | overdue count fuel now clock first between after run overdue met stepped ih =>
      obtain ⟨_, _, log, _⟩ := (reachable_sane (run.reached reached)).step stepped
      rw [log]
      exact List.mem_append_left _ (ih reached owned)

/-- The journal after a list of events. -/
def run (fuel : Nat) (journal : Journal α) (events : List (Event α)) : Option (Journal α) :=
  events.foldlM (next fuel) journal

theorem run_reached {fuel : Nat} {events : List (Event α)} (ended : run fuel before events = some after)
    (met : ∀ event ∈ events, ∀ journal, meets journal event) (reached : Reachable Start (Step meets) before) :
    Reachable Start (Step meets) after := by
  induction events generalizing before with
  | nil =>
      cases ended
      exact reached
  | cons event rest ih =>
      obtain ⟨middle, moved, ended⟩ := Option.bind_eq_some_iff.mp ended
      obtain ⟨first, others⟩ := List.forall_mem_cons.mp met
      exact ih ended others (reached.next ⟨fuel, event, first before, moved⟩)

end Journal

end ExaProxy.Resolver
