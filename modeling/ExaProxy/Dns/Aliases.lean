import ExaProxy.Data.Loop
import ExaProxy.Dns.Encoding
import Mathlib.Data.Set.Finite.List
import Mathlib.Order.WellFounded

namespace ExaProxy.Dns

open Data Relation

namespace DNSResponseType

variable {response : DNSResponseType} {host name : Str} {turns : Nat → Nat}

theorem reached_finite (response : DNSResponseType) (host : Str) :
    {name | ReflTransGen response.Follows host name}.Finite := by
  refine (List.finite_toSet (host :: response.resources.filterMap DNSResourceType.response)).subset ?_
  intro name reached
  rcases ReflTransGen.cases_tail reached with rfl | ⟨last, _, resource, member, _, _, same⟩
  · exact List.mem_cons_self
  · exact List.mem_cons_of_mem _ (List.mem_filterMap.mpr ⟨resource, member, same⟩)

theorem chase_ends (ends : Acc (flip response.Follows) host) (turns : Nat → Nat) :
    ∃ fuel, (response.chase turns fuel host).isSome := by
  induction ends generalizing turns with
  | intro name _ ih =>
      cases taken : (response.getValue (turns 0) (some name) (some (ascii "CNAME"))).2 with
      | none => exact ⟨1, by rw [chase, taken]; rfl⟩
      | some question =>
          obtain ⟨fuel, ended⟩ := ih question (extract_gives taken) fun turn => turns (turn + 1)
          exact ⟨fuel + 1, by rw [chase, taken]; exact ended⟩

theorem exists_chase_endless {path : Nat → Str} (follows : ∀ turn, response.Follows (path turn) (path (turn + 1))) :
    ∃ turns, ∀ fuel, response.chase turns fuel (path 0) = none := by
  choose turns taken using fun turn => exists_extract (follows turn)
  refine ⟨turns, fun fuel => ?_⟩
  -- at each turn the rest of the path is still to come
  have rest : ∀ turn, response.chase (fun later => turns (turn + later)) fuel (path turn) = none := by
    induction fuel with
    | zero => exact fun _ => rfl
    | succ fuel ih =>
        intro turn
        have first : (response.getValue (turns turn) (some (path turn)) (some (ascii "CNAME"))).2 =
            some (path (turn + 1)) := taken turn
        rw [chase, Nat.add_zero, first]
        simpa only [Nat.add_assoc, Nat.add_comm 1] using ih (turn + 1)
  simpa only [Nat.zero_add] using rest 0

theorem chase_ends_iff : (∀ turns, ∃ fuel, (response.chase turns fuel host).isSome) ↔
    ∀ name, ReflTransGen response.Follows host name → ¬ TransGen response.Follows name name := by
  rw [← acc_iff_no_cycle (reached_finite response host)]
  constructor
  · intro ends
    by_contra endless
    obtain ⟨path, rfl, follows⟩ := not_acc_iff_exists_descending_chain.mp endless
    obtain ⟨turns, never⟩ := exists_chase_endless follows
    obtain ⟨fuel, ended⟩ := ends turns
    rw [never fuel] at ended
    cases ended
  · exact chase_ends

theorem getChainedValue_isSome {random fuel : Nat} (asked : response.qhost = some host) :
    (response.getChainedValue random turns fuel).isSome = (response.chase turns fuel host).isSome := by
  rw [getChainedValue, asked, Option.isSome_map]

/-- `getChainedValue` returns for every choice of records if and only if no name that the name of
the question is an alias of is an alias of itself. -/
theorem getChainedValue_returns_iff (response : DNSResponseType) :
    (∀ random turns, ∃ fuel, (response.getChainedValue random turns fuel).isSome) ↔
      ∀ host, response.qhost = some host → ∀ name, ReflTransGen response.Follows host name →
        ¬ TransGen response.Follows name name := by
  cases asked : response.qhost with
  | none =>
      refine iff_of_true (fun random turns => ⟨0, ?_⟩) nofun
      rw [getChainedValue, asked]
      rfl
  | some host =>
      simp only [getChainedValue_isSome asked, forall_const, Option.some.injEq, forall_eq']
      exact chase_ends_iff

/-- A response whose one record makes `a` an alias of `a`. -/
def selfPacket : Str :=
  [0, 7, 129, 128, 0, 1, 0, 1, 0, 0, 0, 0] ++ [1, 97, 0, 0, 1, 0, 1] ++
    [192, 12, 0, 5, 0, 1, 0, 0, 0, 60, 0, 2, 192, 12]

theorem getChainedValue_endless : ¬ ∀ packet response, Returns (decodeResponse types packet) response →
    ∀ random turns, ∃ fuel, (response.getChainedValue random turns fuel).isSome := by
  intro always
  let question : DNSQueryType := { querytype := some (ascii "A"), question := ascii "a" }
  let alone : DNSResourceType :=
    { querytype := some (ascii "CNAME"), question := ascii "a", response := some (ascii "a"), ttl := 60 }
  let response : DNSResponseType :=
    { identifier := 7, complete := true, queries := [question], responses := [alone], authorities := [],
      additionals := [] }
  have decoded : Returns (decodeResponse types selfPacket) response := ⟨3, by decide +kernel⟩
  have ends := always selfPacket response decoded
  have follows : response.Follows (ascii "a") (ascii "a") := ⟨alone, by decide, rfl, rfl, rfl⟩
  obtain ⟨turns, never⟩ := @exists_chase_endless response (fun _ => ascii "a") fun _ => follows
  obtain ⟨fuel, ended⟩ := ends 0 turns
  have asked : response.qhost = some (ascii "a") := rfl
  rw [getChainedValue_isSome asked, never] at ended
  cases ended

end DNSResponseType

end ExaProxy.Dns
