import ExaProxy.Dns.Lookup
import ExaProxy.Resolver.Manager

namespace ExaProxy.Resolver

open Data Dns Relation

namespace DNSClient

structure Configuration where
  tcp4Out : Bool
  tcp6Out : Bool
deriving DecidableEq, Repr

/-- What is found in a response: a value with its type, and the host and type of a new
query. -/
structure Found where
  qtype : Option Str
  value : Option Str
  newquery : Option (Str × Str)
deriving DecidableEq, Repr

/-- The type that `resolveHost` asks for where it is given none. -/
def Configuration.qtype (configuration : Configuration) : Str :=
  if configuration.tcp4Out then ascii "A" else ascii "AAAA"

/-- What is done about a response without a value: another name is asked for, or another
type. -/
def askAgain (configuration : Configuration) (random : Nat) (response : DNSResponseType)
    (qtype : Option Str) : Found :=
  if response.qtype = some (ascii "A") then
    match response.getRelated with
    | some related => ⟨qtype, none, some (related, configuration.qtype)⟩
    | none =>
        if configuration.tcp6Out then
          let (qtype, value) := response.getValue random none (some (ascii "AAAA"))
          match value with
          | some value => ⟨qtype, some value, none⟩
          | none => ⟨qtype, none, response.qhost.map (·, ascii "AAAA")⟩
        else ⟨qtype, none, none⟩
  else if response.qtype = some (ascii "AAAA") then
    let (qtype, cname) := response.getValue random none (some (ascii "CNAME"))
    match cname with
    | some cname => ⟨qtype, none, some (cname, configuration.qtype)⟩
    | none => ⟨qtype, none, response.qhost.map (·, ascii "CNAME")⟩
  else ⟨qtype, none, none⟩

/-- The value that `getResponse` starts from, with `none` where a chain has no end.  The
calls of `random.choice` take the numbers of `random` and `turns`. -/
def firstValue (random turns : Nat → Nat) (fuel : Nat) (response : DNSResponseType) :
    Option (Option Str × Option Str) :=
  match response.getValue (random 0) none none with
  | (_, none) => response.getChainedValue (random 1) turns fuel
  | found => some found

/-- `getResponse`, for a response that was decoded. -/
def find (configuration : Configuration) (chainCount : Nat) (random turns : Nat → Nat) (fuel : Nat)
    (response : DNSResponseType) : Option Found := do
  let (qtype, value) ← firstValue random turns fuel response
  -- watch out for loops
  if chainCount < 10 then
    match value with
    | none => return askAgain configuration (random 2) response qtype
    | some value =>
        if response.qtype = some (ascii "CNAME") then
          return ⟨qtype, none, some (value, configuration.qtype)⟩
        else return ⟨qtype, some value, none⟩
  else return ⟨qtype, value, none⟩

/-- What `getResponse` returns; `sent` tells whether the whole of the new query was sent. -/
def Found.result (found : Found) (response : DNSResponseType) (sent : Bool) : Result where
  identifier := some response.identifier
  forhost := response.qhost
  ip := found.value
  completed := response.complete
  followUp := found.newquery.map fun (newhost, _) => (newhost, sent)

variable {configuration : Configuration} {count random' fuel : Nat} {random turns : Nat → Nat}
  {response : DNSResponseType} {found : Found} {qtype : Option Str} {ip : Str}

theorem getValue_own (number : Nat) (response : DNSResponseType) :
    response.getValue number none none = (response.qtype, response.extract number response.qhost response.qtype) :=
  rfl

theorem getValue_named (number : Nat) (response : DNSResponseType) (name : Str) :
    response.getValue number (some name) none =
      (response.qtype, response.extract number (some name) response.qtype) := rfl

theorem firstValue_answers (first : firstValue random turns fuel response = some (qtype, some ip)) :
    qtype = response.qtype ∧ response.Answers ∧
      ∃ name, response.Gives name response.qtype (some ip) := by
  rw [firstValue, getValue_own] at first
  cases host : response.qhost with
  | none =>
      rw [host] at first
      simp [DNSResponseType.extract, DNSResponseType.values_none, DNSResponseType.getChainedValue, host,
        DNSResponseType.getValue] at first
  | some own =>
      rw [host] at first
      cases extracted : response.extract (random 0) (some own) response.qtype with
      | some value =>
          rw [extracted] at first
          cases first
          have gives := DNSResponseType.extract_gives extracted
          exact ⟨rfl, ⟨own, own, _, host, gives, .inl rfl⟩, own, gives⟩
      | none =>
          rw [extracted] at first
          simp only [DNSResponseType.getChainedValue, host, Option.map_eq_some_iff] at first
          obtain ⟨cname, chased, value⟩ := first
          obtain ⟨same, value⟩ := Prod.mk.inj value
          have gives := DNSResponseType.extract_gives value
          have chain := DNSResponseType.chase_reaches chased
          exact ⟨same.symm, ⟨own, cname, ip, host, gives, .inr chain⟩, cname, gives⟩

theorem exists_firstValue (answers : response.Answers) :
    ∃ random turns fuel ip, firstValue random turns fuel response = some (response.qtype, some ip) := by
  obtain ⟨host, name, value, own, gives, chain⟩ := answers
  by_cases direct : ∃ ip, response.Gives host response.qtype (some ip)
  · obtain ⟨ip, gives⟩ := direct
    obtain ⟨number, extracted⟩ := DNSResponseType.exists_extract gives
    refine ⟨fun _ => number, id, 0, ip, ?_⟩
    rw [firstValue, getValue_own, own, extracted]
  · -- nothing is found for the name itself, so the chain is followed
    rw [not_exists] at direct
    obtain rfl | ⟨path, ends⟩ := chain
    · exact absurd gives (direct value)
    · obtain ⟨turns, fuel, chased⟩ := DNSResponseType.exists_chase path ends
      obtain ⟨number, extracted⟩ := DNSResponseType.exists_extract gives
      refine ⟨fun _ => number, turns, fuel, value, ?_⟩
      rw [firstValue, getValue_own, own, DNSResponseType.extract_none direct]
      simp only [DNSResponseType.getChainedValue, own, chased, Option.map_some, getValue_named, extracted]

theorem askAgain_value (value : (askAgain configuration random' response qtype).value = some ip) :
    (askAgain configuration random' response qtype).qtype = some (ascii "AAAA") ∧
      ∃ name, response.Gives name (askAgain configuration random' response qtype).qtype (some ip) := by
  revert value
  unfold askAgain
  split
  · cases response.getRelated with
    | some related => exact fun value => by cases value
    | none =>
        simp only
        split
        · have own : response.getValue random' none (some (ascii "AAAA")) =
              (some (ascii "AAAA"), response.extract random' response.qhost (some (ascii "AAAA"))) := rfl
          rw [own]
          cases extracted : response.extract random' response.qhost (some (ascii "AAAA")) with
          | none => exact fun value => by cases value
          | some address =>
              intro value
              cases value
              refine ⟨rfl, ?_⟩
              cases host : response.qhost with
              | none =>
                  rw [host] at extracted
                  simp [DNSResponseType.extract, DNSResponseType.values_none] at extracted
              | some own =>
                  rw [host] at extracted
                  exact ⟨own, DNSResponseType.extract_gives extracted⟩
        · exact fun value => by cases value
  · split
    · simp only
      cases (response.getValue random' none (some (ascii "CNAME"))).2 <;> exact fun value => by cases value
    · exact fun value => by cases value

theorem find_value (looked : find configuration count random turns fuel response = some found)
    (value : found.value = some ip) :
    (∃ name, response.Gives name found.qtype (some ip)) ∧
      (found.qtype = response.qtype ∧ response.Answers ∧
          ¬ (response.qtype = some (ascii "CNAME") ∧ count < 10) ∨
        found.qtype = some (ascii "AAAA")) := by
  obtain ⟨⟨qtype, first⟩, firstFound, looked⟩ := Option.bind_eq_some_iff.mp looked
  simp only at looked
  split at looked
  · next few =>
      split at looked
      · cases looked
        obtain ⟨same, gives⟩ := askAgain_value value
        exact ⟨gives, .inr same⟩
      · split at looked
        · cases looked
          cases value
        · next other =>
            cases looked
            cases value
            obtain ⟨rfl, answers, gives⟩ := firstValue_answers firstFound
            exact ⟨gives, .inl ⟨rfl, answers, fun both => other both.1⟩⟩
  · next many =>
      cases looked
      obtain rfl : first = some ip := value
      obtain ⟨rfl, answers, gives⟩ := firstValue_answers firstFound
      exact ⟨gives, .inl ⟨rfl, answers, fun both => many both.2⟩⟩

end DNSClient

end ExaProxy.Resolver
