import ExaProxy.Resolver.Client

namespace ExaProxy.Resolver

open Data Dns DNSClient

variable {α : Type} {manager after : ResolverManager α} {now : Nat} {allSent : Sock → Bool} {sock : Sock}
  {worker : Worker} {result : Result} {clientId : ClientId} {command ip : Str} {args : α}

theorem answer_resolved {identifier : Nat} {lookup : Lookup α} {clidata : Option ClientData}
    (answered : manager.answer now allSent worker result identifier (ResolverManager.followUp worker result)
      lookup clidata = (after, some (.resolved command ip args))) :
    result.completed = true ∧ result.followUp = none ∧ result.ip = some ip ∧
      after = manager.cacheDestination now lookup.original ip := by
  obtain ⟨answeredId, forhost, value, completed, followUp⟩ := result
  unfold ResolverManager.answer at answered
  cases completed with
  | false => cases answered
  | true =>
      cases followUp with
      | some query =>
          obtain ⟨newhost, newcomplete⟩ := query
          simp only [if_true, ResolverManager.followUp, Option.map_some] at answered
          split at answered <;> cases answered
      | none =>
          simp only [if_true, ResolverManager.followUp, Option.map_none] at answered
          split at answered
          · split at answered <;> cases answered
          · split at answered
            · cases answered
              exact ⟨rfl, rfl, rfl, rfl⟩
            · cases answered

theorem getResponse_resolved (answered : manager.getResponse now allSent sock (some result) =
      (after, some (clientId, .resolved command ip args))) :
    result.completed = true ∧ result.followUp = none ∧ result.ip = some ip := by
  rw [ResolverManager.getResponse] at answered
  split at answered
  · cases answered
  · next worker _ =>
      simp only at answered
      split at answered
      · cases answered
      · next identifier lookup _ =>
          split at answered
          · cases answered
          · next response replied =>
              have same : response = .resolved command ip args := by
                split at answered <;> cases answered <;> rfl
              subst same
              obtain ⟨completed, last, value, -⟩ := answer_resolved (Prod.ext rfl replied)
              exact ⟨completed, last, value⟩

/-- For every manager and lookup, the value that is substituted for the name and stored is
the one of a record of a type for addresses. -/
def AddressesOnly (response : DNSResponseType) (count : Nat) : Prop :=
  ∀ (α : Type) (manager after : ResolverManager α) (now : Nat) (allSent : Sock → Bool) (sock : Sock)
    (configuration : DNSClient.Configuration) (random turns : Nat → Nat) (fuel : Nat) (sent : Bool)
    (found : Found) (clientId : ClientId) (command ip : Str) (args : α),
    (manager.chained.lookup response.identifier).getD 0 = count →
    find configuration count random turns fuel response = some found →
    manager.getResponse now allSent sock (some (found.result response sent)) =
        (after, some (clientId, .resolved command ip args)) →
    (found.qtype = some (ascii "A") ∨ found.qtype = some (ascii "AAAA")) ∧
      ∃ name, response.Gives name found.qtype (some ip)

/-- The response is about an address, or about an alias that may still be followed, or it
has nothing to say. -/
def AboutAddress (response : DNSResponseType) (count : Nat) : Prop :=
  response.qtype = some (ascii "A") ∨ response.qtype = some (ascii "AAAA") ∨
    response.qtype = some (ascii "CNAME") ∧ count < 10 ∨ response.complete = false ∨ ¬ response.Answers

/-- A manager that waits for an answer to one query. -/
def waitingFor (response : DNSResponseType) (hostname : Str) (count : Nat) : ResolverManager Unit where
  configuration := ⟨2, 10, 900, true, 100⟩
  resolving := (∅ : AList _).insert (0, response.identifier) ⟨0, hostname, hostname, ascii "connect", ⟨hostname, ()⟩⟩
  chained := (∅ : AList _).insert response.identifier count

theorem waitingFor_resolved {response : DNSResponseType} {hostname : Str} (host : response.qhost = some hostname)
    (complete : response.complete = true) (count : Nat) (qtype : Option Str) (ip : Str) : ∃ after,
    (waitingFor response hostname count).getResponse 0 (fun _ => true) 0
        (some (Found.result ⟨qtype, some ip, none⟩ response true)) =
      (after, some (0, .resolved (ascii "connect") ip ())) := by
  have pending : (waitingFor response hostname count).resolving.lookup (0, response.identifier) =
      some ⟨0, hostname, hostname, ascii "connect", ⟨hostname, ()⟩⟩ := AList.lookup_insert _
  have answered : (waitingFor response hostname count).answered { wId := 0, socket := 0 }
      (Found.result ⟨qtype, some ip, none⟩ response true) =
      some (response.identifier, ⟨0, hostname, hostname, ascii "connect", ⟨hostname, ()⟩⟩) := by
    simp only [ResolverManager.answered, Found.result, Option.bind_some, pending, Option.map_some]
  have worker : (waitingFor response hostname count).workerOf 0 = some { wId := 0, socket := 0 } := rfl
  refine ⟨_, Prod.ext rfl ?_⟩
  unfold ResolverManager.getResponse
  simp only [worker, answered]
  simp [ResolverManager.answer, Found.result, host, complete, ResolverManager.followUp, waitingFor]

/-- Names are resolved to addresses exactly where the response is about one. -/
theorem addresses_only (response : DNSResponseType) (count : Nat) :
    AddressesOnly response count ↔ AboutAddress response count := by
  constructor
  · intro only
    by_contra other
    simp only [AboutAddress, not_or, not_not, Bool.not_eq_false] at other
    obtain ⟨notA, notAAAA, notFollowed, complete, answers⟩ := other
    obtain ⟨hostname, _, _, host, _⟩ := id answers
    obtain ⟨random, turns, fuel, ip, first⟩ := exists_firstValue answers
    obtain ⟨after, resolved⟩ := waitingFor_resolved host complete count response.qtype ip
    have looked : find ⟨true, true⟩ count random turns fuel response = some ⟨response.qtype, some ip, none⟩ := by
      simp only [find, first, Option.bind_eq_bind, Option.bind_some]
      by_cases few : count < 10
      · have other : response.qtype ≠ some (ascii "CNAME") := fun same => notFollowed ⟨same, few⟩
        rw [if_pos few, if_neg other]
        rfl
      · rw [if_neg few]
        rfl
    have chained : ((waitingFor response hostname count).chained.lookup response.identifier).getD 0 = count := by
      rw [waitingFor, AList.lookup_insert]
      rfl
    obtain ⟨address, -⟩ := only Unit _ _ _ _ _ _ _ _ _ _ _ _ _ _ _ chained looked resolved
    exact address.elim notA notAAAA
  · intro about α manager after now allSent sock configuration random turns fuel sent found clientId command ip args
      _ looked answered
    obtain ⟨complete, _, value⟩ := getResponse_resolved answered
    obtain ⟨gives, ⟨own, answers, unfollowed⟩ | address⟩ := find_value looked value
    · refine ⟨?_, gives⟩
      rw [own]
      rcases about with a | aaaa | alias' | incomplete | silent
      · exact .inl a
      · exact .inr aaaa
      · exact absurd alias' unfollowed
      · rw [Found.result, incomplete] at complete
        cases complete
      · exact absurd answers silent
    · exact ⟨.inr address, gives⟩

/-- A response to the question for an alias: `a` is one of `b`. -/
def aliasPacket : Str :=
  [0, 1, 129, 128, 0, 1, 0, 1, 0, 0, 0, 0] ++ [1, 97, 0, 0, 5, 0, 1] ++
    [192, 12, 0, 5, 0, 1, 0, 0, 0, 60, 0, 3, 1, 98, 0]

def aliasResponse : DNSResponseType where
  identifier := 1
  complete := true
  queries := [{ querytype := some (ascii "CNAME"), question := ascii "a" }]
  responses := [{
    querytype := some (ascii "CNAME")
    question := ascii "a"
    response := some (ascii "b")
    ttl := 60 }]
  authorities := []
  additionals := []

/-- After ten follow-ups the name `b` is taken for the address of `a`. -/
theorem alias_taken : normalizeResponse [⟨ascii "A", 1, .ipv4⟩, ⟨ascii "CNAME", 5, .string⟩] aliasPacket false 9 =
      .ok (true, some aliasResponse) ∧
    ¬ AddressesOnly aliasResponse 10 := by
  refine ⟨by decide +kernel, fun only => ?_⟩
  obtain ⟨after, resolved⟩ := waitingFor_resolved (show aliasResponse.qhost = some (ascii "a") from rfl) rfl 10
    (some (ascii "CNAME")) (ascii "b")
  have chained : ((waitingFor aliasResponse (ascii "a") 10).chained.lookup aliasResponse.identifier).getD 0 = 10 := by
    rw [waitingFor, AList.lookup_insert]
    rfl
  have looked : find ⟨true, true⟩ 10 (fun _ => 0) id 0 aliasResponse =
      some ⟨some (ascii "CNAME"), some (ascii "b"), none⟩ := by decide +kernel
  obtain ⟨address, -⟩ := only Unit _ _ _ _ _ _ _ _ _ _ _ _ _ _ _ chained looked resolved
  exact absurd address (by decide)

end ExaProxy.Resolver
