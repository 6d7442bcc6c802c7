import ExaProxy.Dns.Codec
import Mathlib.Logic.Relation

namespace ExaProxy.Dns

open Data Relation

/-! What a response says about the name that was asked for.  `random.choice` takes the value
at a number that is given to it. -/

namespace DNSResponseType

variable (response : DNSResponseType)

def resources : List DNSResourceType :=
  response.responses ++ response.authorities ++ response.additionals

/-- `getResponse`, under a host and a type; empty where that has no entry. -/
def values (hostname rdtype : Option Str) : List (Option Str) :=
  (response.resources.filter fun resource =>
    some resource.question = hostname ∧ resource.querytype = rdtype).map DNSResourceType.response

/-- `extract` -/
def extract (random : Nat) (hostname rdtype : Option Str) : Option Str :=
  let data := response.values hostname rdtype
  data[random % data.length]?.join

/-- `getValue`, with the type that the value is of. -/
def getValue (random : Nat) (question qtype : Option Str) : Option Str × Option Str :=
  let question := question.or response.qhost
  let qtype := qtype.or response.qtype
  (qtype, response.extract random question qtype)

/-- The loop of `getChainedValue`: the name that it ends with. -/
def chase (random : Nat → Nat) : Nat → Str → Option Str
  | 0, _ => none
  | fuel + 1, cname =>
      match (response.getValue (random 0) (some cname) (some (ascii "CNAME"))).2 with
      | none => some cname
      | some question => chase (fun turn => random (turn + 1)) fuel question

/-- `getChainedValue`, with `none` where the loop goes on. -/
def getChainedValue (random : Nat) (turns : Nat → Nat) (fuel : Nat) : Option (Option Str × Option Str) :=
  match response.qhost with
  | none => some (response.getValue random none none)
  | some question => (response.chase turns fuel question).map fun cname => response.getValue random (some cname) none

/-- `getRelated` -/
def getRelated : Option Str :=
  (response.responses.find? (·.querytype = some (ascii "CNAME"))).bind DNSResourceType.response

/-- A record of the host and the type has the value. -/
def Gives (hostname : Str) (rdtype : Option Str) (value : Option Str) : Prop :=
  ∃ resource ∈ response.resources,
    resource.question = hostname ∧ resource.querytype = rdtype ∧ resource.response = value

/-- One name is an alias of another. -/
def Follows (hostname other : Str) : Prop := response.Gives hostname (some (ascii "CNAME")) (some other)

/-- The name may be taken for one that is not an alias. -/
def EndsAt (hostname : Str) : Prop :=
  (∀ value, ¬ response.Gives hostname (some (ascii "CNAME")) value) ∨
    response.Gives hostname (some (ascii "CNAME")) none

/-- The response has a value of the type of its question, for the name of its question or
for one that this is an alias of. -/
def Answers : Prop :=
  ∃ host name value, response.qhost = some host ∧ response.Gives name response.qtype (some value) ∧
    (name = host ∨ ReflTransGen response.Follows host name ∧ response.EndsAt name)

variable {response} {hostname host name value : Str} {question rdtype qtype found : Option Str} {random fuel : Nat}
  {turns : Nat → Nat}

theorem mem_values {value : Option Str} :
    value ∈ response.values (some hostname) rdtype ↔ response.Gives hostname rdtype value := by
  simp only [values, Gives, List.mem_map, List.mem_filter, decide_eq_true_eq, Option.some.injEq]
  grind

theorem values_none : response.values none rdtype = [] := by
  simp [values]

theorem extract_gives (extracted : response.extract random (some hostname) rdtype = some value) :
    response.Gives hostname rdtype (some value) := by
  exact mem_values.mp (List.mem_of_getElem? (Option.join_eq_some_iff.mp extracted))

theorem exists_extract {value : Option Str} (gives : response.Gives hostname rdtype value) :
    ∃ random, response.extract random (some hostname) rdtype = value := by
  obtain ⟨index, inside, same⟩ := List.getElem_of_mem (mem_values.mpr gives)
  refine ⟨index, ?_⟩
  simp only [extract, Nat.mod_eq_of_lt inside]
  rw [List.getElem?_eq_getElem inside, same]
  rfl

theorem extract_none (never : ∀ value, ¬ response.Gives hostname rdtype (some value)) :
    response.extract random (some hostname) rdtype = none := by
  cases extracted : response.extract random (some hostname) rdtype with
  | none => rfl
  | some value => exact absurd (extract_gives extracted) (never value)

/-- Nothing is extracted where there is no record, or one whose value was not decoded. -/
theorem extract_eq_none (extracted : response.extract random (some hostname) rdtype = none) :
    (∀ value, ¬ response.Gives hostname rdtype value) ∨ response.Gives hostname rdtype none := by
  cases data : response.values (some hostname) rdtype with
  | nil =>
      refine .inl fun value gives => ?_
      have member := mem_values.mpr gives
      rw [data] at member
      cases member
  | cons first rest =>
      refine .inr (mem_values.mp ?_)
      simp only [extract, data] at extracted
      have inside : random % (first :: rest).length < (first :: rest).length := Nat.mod_lt _ (by simp)
      rw [List.getElem?_eq_getElem inside, Option.join_some] at extracted
      rw [data, ← extracted]
      exact List.getElem_mem inside

theorem exists_extract_none (absent : (∀ value, ¬ response.Gives hostname rdtype value) ∨
    response.Gives hostname rdtype none) : ∃ random, response.extract random (some hostname) rdtype = none := by
  obtain never | gives := absent
  · exact ⟨0, extract_none fun value => never (some value)⟩
  · exact exists_extract gives

theorem getValue_snd (random : Nat) (qtype : Option Str) :
    (response.getValue random (some name) qtype).2 = response.extract random (some name) (qtype.or response.qtype) := rfl

theorem chase_reaches (chased : response.chase turns fuel host = some name) :
    ReflTransGen response.Follows host name ∧ response.EndsAt name := by
  induction fuel generalizing turns host with
  | zero => cases chased
  | succ fuel ih =>
      rw [chase] at chased
      split at chased
      · next ended =>
          cases chased
          exact ⟨.refl, extract_eq_none ended⟩
      · next question follows =>
          obtain ⟨path, ends⟩ := ih chased
          exact ⟨.head (extract_gives follows) path, ends⟩

theorem exists_chase (path : ReflTransGen response.Follows host name) (ends : response.EndsAt name) :
    ∃ turns fuel, response.chase turns fuel host = some name := by
  induction path using ReflTransGen.head_induction_on with
  | refl =>
      obtain ⟨random, extracted⟩ := exists_extract_none ends
      refine ⟨fun _ => random, 1, ?_⟩
      rw [chase, getValue_snd, Option.some_or, extracted]
  | head follows _ ih =>
      obtain ⟨turns, fuel, chased⟩ := ih
      obtain ⟨random, extracted⟩ := exists_extract follows
      refine ⟨fun turn => turn.casesOn random turns, fuel + 1, ?_⟩
      have first : (response.getValue random (some _) (some (ascii "CNAME"))).2 = some _ := extracted
      rw [chase]
      change (match (response.getValue random (some _) (some (ascii "CNAME"))).2 with
        | none => some _
        | some question => response.chase turns fuel question) = some name
      rw [first]
      exact chased

end DNSResponseType

end ExaProxy.Dns
