import ExaProxy.Http.Heads
import ExaProxy.Http.Printed

namespace ExaProxy.Http

open ExaProxy.Data
open ExaProxy.Data.Grouping

namespace Headers

/-- The lines up to the empty one, each with the name of its header. -/
def fields : Str → Bool → List Str → List (Str × Str)
  | _, _, [] => []
  | key, quoted, line :: rest =>
      match owner key quoted line with
      | some name => (name, line) :: fields name (opens quoted line) rest
      | none => []

/-- What is asked for by a line of a header that is passed on for some values only. -/
def asked (line : Str) : Option Str := (Str.splitOnce (ascii ":") line).map fun (_, value) => Str.lower (Str.strip value)

/-- An upgrade line that stays. -/
def upgrades (line : Str) : Bool := (asked line).any passedOn

/-- A connection line that stays, next to these upgrade lines. -/
def lasts (offered : List Str) (line : Str) : Bool :=
  asked line = some (ascii "close") ∨ asked line = some (ascii "upgrade") ∧ offered.any upgrades

variable {headers before after : Headers} {key name last line : Str} {quoted final : Bool}
  {pairs : List (Str × Str)} {lines copy offered connections result : List Str} {httpVersion text : Str}
  {expect : Bool}

theorem asked_ok {value : Str} (ok : afterColon line = .ok value) : asked line = some (Str.lower value) := by
  unfold afterColon at ok
  cases found : Str.splitOnce (ascii ":") line with
  | none =>
      rw [found] at ok
      cases ok
  | some parts =>
      rw [found] at ok
      cases ok
      rw [asked, found]
      rfl

/-- An upgrade of this name is not passed on. -/
theorem upgraded_iff : Upgraded offered name ↔
    offered.any (fun line => asked line = some name ∧ passedOn name = false) = true := by
  rw [List.any_eq_true]
  constructor
  · intro given
    obtain ⟨line, member, value, colon, stops, rfl⟩ := given
    exact ⟨line, member, decide_eq_true ⟨asked_ok colon, stops⟩⟩
  · intro given
    obtain ⟨line, member, tells⟩ := given
    obtain ⟨said, stops⟩ := of_decide_eq_true tells
    obtain ⟨⟨key, value⟩, found, rfl⟩ := Option.map_eq_some_iff.mp said
    exact ⟨line, member, Str.strip value, by rw [afterColon, found]; rfl, stops, rfl⟩

instance : Decidable (Upgraded offered name) := decidable_of_iff _ upgraded_iff.symm

end Headers

variable {configuration : Configuration} {transparent : Bool} {remoteIp raw : Str} {message : Message}
  {request : Request} {name line : Str}

/-- The header lines of a request. -/
def Request.fields (request : Request) : List (Str × Str) :=
  Headers.fields [] false (Headers.linesOf request.remaining)

/-- The lines of one header. -/
def Request.lines (request : Request) (name : Str) : List Str := (group name request.fields).map Prod.snd

/-- The header that names the client, and that a proxy may hide. -/
def Masked (configuration : Configuration) (name : Str) : Prop :=
  configuration.forward ≠ [] ∧ configuration.mask = true ∧ name = configuration.forward

/-- A header that goes as a whole: it has the name of an upgrade that is not passed on,
or is for the connection alone, or names the client to a proxy that hides it. -/
def Removed (configuration : Configuration) (transparent : Bool) (request : Request) (name : Str) : Prop :=
  transparent = false ∧ request.version = ascii "1.1" ∧ Headers.Upgraded (request.lines (ascii "upgrade")) name ∨
    transparent = false ∧ request.version = ascii "1.0" ∧ name = ascii "keep-alive" ∨
    Masked configuration name

instance : Decidable (Masked configuration name) := inferInstanceAs (Decidable (_ ∧ _ ∧ _))

instance : Decidable (Removed configuration transparent request name) := inferInstanceAs (Decidable (_ ∨ _ ∨ _))

/-- A line that goes, of one of the two headers that lose some of their lines. -/
def Withheld (transparent : Bool) (request : Request) (name line : Str) : Prop :=
  transparent = false ∧ request.version = ascii "1.1" ∧
    (name = ascii "upgrade" ∧ Headers.upgrades line = false ∨
      name = ascii "connection" ∧ Headers.lasts (request.lines (ascii "upgrade")) line = false)

/-- A line that the request has under this name, and that it is printed with. -/
def Kept (configuration : Configuration) (transparent : Bool) (request : Request) (name line : Str) : Prop :=
  (name, line) ∈ request.fields ∧ name ≠ xProxyVersion ∧ ¬ Removed configuration transparent request name ∧
    ¬ Withheld transparent request name line

end ExaProxy.Http
