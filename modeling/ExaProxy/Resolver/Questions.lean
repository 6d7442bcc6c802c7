import ExaProxy.Dns.Requests
import ExaProxy.Resolver.Manager

namespace ExaProxy.Resolver

open ExaProxy.Data
open ExaProxy.Dns

/-- The host names that `startResolving` sends on. -/
structure Sendable (hostname : Str) : Prop where
  filled : hostname ≠ []
  parts : ∀ part ∈ ResolverManager.parts hostname, part.length ≤ 255

/-- The packet is read as a request with this identifier for this one name, but
for dots at its end. -/
def Asks (packet : Str) (identifier : Nat) (querytype hostname : Str) : Prop :=
  ∃ request question, Returns (decodeRequest types packet) (some request) ∧ request.identifier = identifier ∧
    request.queries = [{ querytype := some querytype, question }] ∧ undotted question = undotted hostname

/-- The packet asks for the name as RFC 1035 writes it. -/
def Carries (packet : Str) (identifier value : Nat) (hostname : Str) : Prop :=
  ∃ name labels, packet = requestPacket identifier value name ∧ Spells packet 12 name labels ∧ labels ≠ [] ∧
    wireLength labels < 255 ∧ joinDots labels = undotted hostname

variable {α : Type} {manager : ResolverManager α} {hostname command packet name rest text : Str}
  {decision : Decision α} {identifier value fuel : Nat} {labels : List Str} {definition : Definition}

theorem startResolving_sendable {now clientId resolveCount : Nat} {given : Option Nat}
    (sent : (manager.startResolving now clientId command decision resolveCount given).2 = (some identifier, none)) :
    Sendable decision.hostname := by
  simp only [ResolverManager.startResolving, ResolverManager.extractHostname] at sent
  by_cases host : ResolverManager.isHostCommand command = true ∧ decision.hostname ≠ []
  · simp only [if_pos host] at sent
    refine ⟨host.2, ?_⟩
    cases answered : manager.shortcut decision.hostname command decision given.isNone with
    | some response =>
        rw [answered] at sent
        cases sent
    | none =>
        have unrefused : manager.refusal decision.hostname = none := by
          simp only [ResolverManager.shortcut] at answered
          split at answered
          · cases answered
          · cases answered
          · exact answered
        simp only [ResolverManager.refusal] at unrefused
        split at unrefused
        · cases unrefused
        · split at unrefused
          · cases unrefused
          · next small => exact fun part member => Nat.not_lt.mp fun long => small ⟨part, member, long⟩
  · rw [if_neg host] at sent
    cases sent

theorem undotted_undotted (text : Str) : undotted (undotted text) = undotted text :=
  List.rdropWhile_idempotent _ _

theorem undotted_length (text : Str) : (undotted text).length ≤ text.length :=
  (List.rdropWhile_prefix _ _).length_le

theorem Spells.short (spelled : Spells packet value name labels) : ∀ label ∈ labels, label.length ≤ 63 := by
  induction spelled with
  | root => simp
  | label _ short _ ih => exact List.forall_mem_cons.mpr ⟨short, ih⟩
  | pointer _ _ _ _ ih => exact ih

/-- Where the name that was encoded is read again, no part of it is empty or
taken for a pointer. -/
theorem legible_of_read {count : Option Nat}
    (read : dnsToStringInfo fuel (plain (dotParts (undotted hostname)) ++ rest) packet = .ok (count, some text))
    (filled : text ≠ []) (same : undotted text = undotted hostname) : Legible (dotParts (undotted hostname)) := by
  have short : Short 192 (undotted hostname) := same ▸ (dnsToStringInfo_short read).undotted
  refine fun part member => ⟨?_, short part member⟩
  intro given
  subst given
  obtain ⟨labels, more, split, first⟩ := List.eq_append_cons_of_mem member
  have legible : Legible labels := fun label among =>
    ⟨fun empty => first (empty ▸ among), short label (split ▸ List.mem_append_left _ among)⟩
  rw [split, plain_empty, List.append_assoc, dnsToStringInfo_plain legible] at read
  cases read
  have whole := joinDots_length (dotParts_ne_nil (undotted hostname))
  have some : labels ≠ [] := by
    intro given
    subst given
    exact filled rfl
  have shorter := joinDots_length some
  have cut := undotted_length (joinDots labels)
  rw [joinDots_dotParts, split, wireLength_append, wireLength_cons] at whole
  rw [same] at cut
  omega

theorem types_small : ∀ definition ∈ types, definition.value < 2 ^ 16 := by decide +kernel

theorem asks_iff (listed : definition ∈ types) (identified : identifier < 2 ^ 16) :
    Asks (requestPacket identifier definition.value (plain (dotParts (undotted hostname)))) identifier
      definition.name hostname ↔ Legible (dotParts (undotted hostname)) := by
  have typed := types_small definition listed
  constructor
  · intro given
    obtain ⟨request, question, ⟨fuel, decoded⟩, _, asked, same⟩ := given
    rw [decodeRequest_packet identified] at decoded
    obtain ⟨query, read, shown⟩ := map_ok decoded
    cases query with
    | none => cases shown
    | some query =>
        cases shown
        obtain ⟨count, named, filled⟩ := query_read_ok read
        have asked : query.question = question := congrArg DNSQueryType.question (List.cons.inj asked).1
        exact legible_of_read named filled (asked ▸ same)
  · intro legible
    have filled : undotted hostname ≠ [] := by
      intro empty
      rw [empty] at legible
      exact (legible [] (List.mem_singleton_self _)).1 rfl
    let packet := requestPacket identifier definition.value (plain (dotParts (undotted hostname)))
    let tail := be16 definition.value ++ be16 1
    have named := dnsToStringInfo_plain legible tail packet 0
    rw [joinDots_dotParts] at named
    have fields : DNSQuery.readFields (plain (dotParts (undotted hostname)) ++ tail)
        (some (plain (dotParts (undotted hostname))).length, some (undotted hostname)) =
          .ok (some ⟨undotted hostname, definition.value, 1, _⟩) :=
      query_readFields filled typed (by decide) []
    have read : DNSQuery.read packet (plain (dotParts (undotted hostname)) ++ tail) 0 = _ :=
      bind_eq_ok.mpr ⟨_, named, fields⟩
    have found : byvalue types definition.value = some definition := find_line types_standard.values listed
    refine ⟨{ identifier, queries := [{ querytype := some definition.name, question := undotted hostname }] },
      undotted hostname, ⟨0, ?_⟩, rfl, rfl, undotted_undotted hostname⟩
    rw [decodeRequest_packet identified, read]
    simp only [Except.map, Option.map_some, decodeQuery, found]

/-- A label of a name that RFC 1035 allows is at most 63 bytes, and all of them
with their lengths and the root at most 255. -/
theorem carries_iff : Carries (requestPacket identifier value (plain (dotParts (undotted hostname)))) identifier
    value hostname ↔ (∀ part ∈ dotParts (undotted hostname), part ≠ [] ∧ part.length ≤ 63) ∧
      (undotted hostname).length ≤ 253 := by
  have whole := joinDots_length (dotParts_ne_nil (undotted hostname))
  rw [joinDots_dotParts] at whole
  constructor
  · intro given
    obtain ⟨name, labels, same, spelled, filled, bounded, joined⟩ := given
    have encoded : plain (dotParts (undotted hostname)) = name := by
      simp only [requestPacket] at same
      exact List.append_cancel_right (List.append_cancel_left same)
    subst encoded
    have sized := joinDots_length filled
    rw [joined] at sized
    have short : Short 64 (undotted hostname) := by
      rw [← joined]
      exact short_joinDots (by decide) fun label member =>
        .of_length (Nat.lt_succ_of_le (Spells.short spelled label member))
    have nonempty : undotted hostname ≠ [] := by
      rw [← joined]
      exact mt (joinDots_eq_nil spelled.nonempty).mp filled
    obtain ⟨fuel, read⟩ := spelled.returns (by rw [joined]; omega) []
    rw [joined] at read
    have legible := legible_of_read read nonempty (undotted_undotted hostname)
    exact ⟨fun part member => ⟨(legible part member).1, Nat.le_of_lt_succ (short part member)⟩, by omega⟩
  · intro given
    obtain ⟨sized, bounded⟩ := given
    exact ⟨_, dotParts (undotted hostname), rfl, spells_plain sized, dotParts_ne_nil _, by omega,
      joinDots_dotParts _⟩

/-- A host name that is sent on is always encoded.  It is the name that is asked
for if none of its parts is empty or as long as 192 bytes, and well formed on the
wire if they and the whole have the lengths of RFC 1035. -/
theorem createRequestString_asks_iff (listed : definition ∈ types) (identified : identifier < 2 ^ 16)
    (sendable : Sendable hostname) :
    ∃ packet, createRequestString types identifier definition.name hostname false = some packet ∧
      (Asks packet identifier definition.name hostname ↔
        ∀ part ∈ dotParts (undotted hostname), part ≠ [] ∧ part.length < 192) ∧
      (Asks packet identifier definition.name hostname ∧ Carries packet identifier definition.value hostname ↔
        (∀ part ∈ dotParts (undotted hostname), part ≠ [] ∧ part.length ≤ 63) ∧
          (undotted hostname).length ≤ 253) := by
  have typed := types_small definition listed
  have small : ∀ part ∈ dotParts (undotted hostname), part.length < 256 := fun part member =>
    Nat.lt_succ_of_le (sendable.parts part (undotted_parts member))
  refine ⟨_, createRequestString_eq types_standard.names listed identified typed small,
    asks_iff listed identified, ?_⟩
  rw [asks_iff listed identified, carries_iff, and_iff_right_iff_imp]
  rintro ⟨sized, -⟩ part member
  obtain ⟨filled, short⟩ := sized part member
  exact ⟨filled, by omega⟩

def addressType : Definition := ⟨ascii "A", 1, .ipv4⟩

theorem createRequestString_asks_host :
    ∃ packet, createRequestString types 7 (ascii "A") (ascii "a.b.") false = some packet ∧
      (Asks packet 7 (ascii "A") (ascii "a.b.") ↔
        ∀ part ∈ dotParts (undotted (ascii "a.b.")), part ≠ [] ∧ part.length < 192) ∧
      (Asks packet 7 (ascii "A") (ascii "a.b.") ∧ Carries packet 7 1 (ascii "a.b.") ↔
        (∀ part ∈ dotParts (undotted (ascii "a.b.")), part ≠ [] ∧ part.length ≤ 63) ∧
          (undotted (ascii "a.b.")).length ≤ 253) :=
  createRequestString_asks_iff (show addressType ∈ types by decide +kernel) (by decide)
    ⟨by decide, by decide +kernel⟩

/-- For the name `a..b` the name `a` is asked for, with a type that is not known. -/
theorem createRequestString_empty_part :
    Sendable (ascii "a..b") ∧ ∃ packet, createRequestString types 7 (ascii "A") (ascii "a..b") false = some packet ∧
      decodeRequest types packet 0 =
        .ok (some { identifier := 7, queries := [{ querytype := none, question := ascii "a" }] }) ∧
      ¬ Asks packet 7 (ascii "A") (ascii "a..b") := by
  refine ⟨⟨by decide, by decide +kernel⟩, requestPacket 7 1 (plain (dotParts (undotted (ascii "a..b")))),
    by decide +kernel, by decide +kernel, ?_⟩
  intro asks
  have legible := (asks_iff (show addressType ∈ types by decide +kernel) (by decide)).mp asks
  exact (legible [] (by decide +kernel)).1 rfl

end ExaProxy.Resolver
