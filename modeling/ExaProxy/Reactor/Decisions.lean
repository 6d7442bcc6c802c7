import ExaProxy.Client.Manager
import ExaProxy.Network.Functions
import ExaProxy.Resolver.Manager

namespace ExaProxy.Resolver

open ExaProxy.Data ExaProxy.Network

namespace ResolverManager

/-- `resolves`: the host of a decision is a name. -/
def resolves {α : Type} (command : Str) (decision : Decision α) : Except Raised Bool :=
  if isHostCommand command then (isip decision.hostname).map (! ·) else .ok false

variable {α : Type} {manager : ResolverManager α} {now : Nat} {client : ClientId} {command : Str}
  {decision : Decision α}

/-- The lookup that is pending under a key was the only one to be made. -/
structure Started (before after : ResolverManager α) (now : Nat) (key : Nat × Nat) (lookup : Lookup α) :
    Prop where
  resolving : after.resolving = before.resolving.insert key lookup
  clients : after.clients = before.clients.insert lookup.clientId ⟨key.1, key.2, now, 1⟩
  active : after.active = before.active ++ [⟨now, lookup.clientId, before.worker.socket⟩]

/-- A first query for a host is answered at once, and nothing changes, or its
lookup is started. -/
theorem startResolving_cases (manager : ResolverManager α) (now : Nat) (client : ClientId)
    (asked : isHostCommand command = true) (named : decision.hostname ≠ []) :
    (∃ response, manager.startResolving now client command decision 1 none = (manager, none, some response)) ∨
      ∃ after key, manager.startResolving now client command decision 1 none = (after, some key.2, none) ∧
        Started manager after now key ⟨client, decision.hostname, decision.hostname, command, decision⟩ := by
  have hostname : extractHostname command decision = some decision.hostname := if_pos ⟨asked, named⟩
  simp only [startResolving, hostname]
  cases manager.shortcut decision.hostname command decision (none : Option Nat).isNone with
  | some response => exact .inl ⟨response, rfl⟩
  | none => exact .inr ⟨_, (manager.worker.wId, nextIdentifier manager.worker.drawn), rfl, ⟨rfl, rfl, rfl⟩⟩

theorem startResolving_empty (empty : decision.hostname = []) :
    manager.startResolving now client command decision 1 none = (manager, none, none) := by
  have missing : extractHostname command decision = none := if_neg fun named => named.2 empty
  simp only [startResolving, missing]

end ResolverManager

end ExaProxy.Resolver

namespace ExaProxy.Reactor

open ExaProxy.Data ExaProxy.Network
open ExaProxy.Client (ClientManager)
open ExaProxy.Resolver (ResolverManager Response)
open ExaProxy.Resolver.ResolverManager (Started isHostCommand startResolving_cases startResolving_empty)

/-! The messages of the redirector that name a command.  A decision is enacted at
once, or is enacted when the name of its host is resolved. -/

variable {ρ α : Type}

/-- What `getDecision` returns.  A decision about a host names it first, and what
other decisions hold is not looked at. -/
structure Message (α : Type) where
  name : Nat
  command : Str
  decision : Resolver.Decision α
deriving DecidableEq

/-- What is yielded for a client: its decision, or what the resolver has made of it. -/
inductive Decided (α : Type) where
  | decision (command : Str) (decision : Resolver.Decision α)
  | response (response : Response α)
deriving DecidableEq

/-- `RedirectorDispatcher.showInternalError`: the dispatcher has no such method. -/
def showInternalError : Except Raised (Decided α) := .error .attributeError

/-- `readRedirector`, for a message with a command: the resolver afterwards, and
what is yielded for which client. -/
def readRedirector (clients : ClientManager ρ) (resolver : ResolverManager α) (now : Nat)
    (message : Message α) : Except Raised (ResolverManager α × List (Sock × Decided α)) :=
  match clients.lookupSocket message.name with
  | none => .ok (resolver, [])
  | some client => do
      if ← ResolverManager.resolves message.command message.decision then
        match resolver.startResolving now client message.command message.decision 1 none with
        | (resolver, _, some response) => return (resolver, [(client, .response response)])
        | (resolver, none, none) => return (resolver, [(client, ← showInternalError)])
        | (resolver, some _, none) => return (resolver, [])
      else return (resolver, [(client, .decision message.command message.decision)])

/-- A message of a client that is still connected leads to one decision and no
lookup, or to one lookup and no decision. -/
inductive Handled (resolver : ResolverManager α) (now : Nat) (client : Sock) (message : Message α) :
    ResolverManager α × List (Sock × Decided α) → Prop
  | yielded (decided : Decided α) : Handled resolver now client message (resolver, [(client, decided)])
  | pending (after : ResolverManager α) (key : Nat × Nat)
      (started : Started resolver after now key ⟨client, message.decision.hostname,
        message.decision.hostname, message.command, message.decision⟩) :
      Handled resolver now client message (after, [])

variable {clients : ClientManager ρ} {resolver : ResolverManager α} {now : Nat} {client : Sock}
  {message : Message α}

/-- The host of a message can be looked at. -/
def Message.Named (message : Message α) : Prop :=
  isHostCommand message.command = true → message.decision.hostname ≠ [] ∧ 0 ∉ message.decision.hostname

theorem readRedirector_named (resolver : ResolverManager α) (now : Nat)
    (connected : clients.lookupSocket message.name = some client)
    (named : message.Named) :
    ∃ result, readRedirector clients resolver now message = .ok result ∧
      Handled resolver now client message result := by
  simp only [readRedirector, connected, ResolverManager.resolves]
  by_cases asked : isHostCommand message.command = true
  · obtain ⟨nonempty, plain⟩ := named asked
    simp only [if_pos asked, isip, if_neg plain, Except.map, bind, Except.bind, pure, Except.pure]
    split
    · rcases startResolving_cases resolver now client asked nonempty with ⟨response, answered⟩ | ⟨after, key, waits, started⟩
      · rw [answered]
        exact ⟨_, rfl, .yielded (.response response)⟩
      · rw [waits]
        exact ⟨_, rfl, .pending after key started⟩
    · exact ⟨_, rfl, .yielded (.decision message.command message.decision)⟩
  · simp only [if_neg asked, bind, Except.bind, Bool.false_eq_true, if_false]
    exact ⟨_, rfl, .yielded (.decision message.command message.decision)⟩

theorem readRedirector_unnamed (resolver : ResolverManager α) (now : Nat)
    (connected : clients.lookupSocket message.name = some client)
    (unnamed : ¬ message.Named) : ∃ raised, readRedirector clients resolver now message = .error raised := by
  obtain ⟨asked, missing⟩ := Classical.not_imp.mp unnamed
  simp only [readRedirector, connected, ResolverManager.resolves, if_pos asked]
  by_cases null : 0 ∈ message.decision.hostname
  · exact ⟨.typeError, by rw [isip, if_pos null]; rfl⟩
  · have empty : message.decision.hostname = [] := by
      by_contra nonempty
      exact missing ⟨nonempty, null⟩
    rw [empty, isip_empty]
    simp only [Except.map, Bool.not_false, bind, Except.bind, if_true]
    rw [startResolving_empty empty]
    exact ⟨.attributeError, rfl⟩

/-- Every message is handled but those of a connected client that name no host
where they have to, or one with a null byte. -/
theorem readRedirector_handled_iff (clients : ClientManager ρ) (resolver : ResolverManager α) (now : Nat)
    (message : Message α) :
    (∃ result, readRedirector clients resolver now message = .ok result ∧
      ∀ client, clients.lookupSocket message.name = some client →
        Handled resolver now client message result) ↔
      (clients.lookupSocket message.name ≠ none → message.Named) := by
  cases connected : clients.lookupSocket message.name with
  | none =>
      apply iff_of_true
      · exact ⟨(resolver, []), by simp only [readRedirector, connected], by simp⟩
      · simp
  | some client =>
      by_cases named : message.Named
      · obtain ⟨result, ok, handled⟩ := readRedirector_named resolver now connected named
        exact iff_of_true ⟨result, ok, fun _ same => Option.some.inj same ▸ handled⟩ fun _ => named
      · obtain ⟨raised, error⟩ := readRedirector_unnamed resolver now connected named
        apply iff_of_false
        · intro given
          obtain ⟨result, ok, _⟩ := given
          rw [error] at ok
          cases ok
        · exact fun known => named (known (by simp))

/-- The first client of a proxy is connected, and its decision is a download from
a host without a name. -/
theorem readRedirector_raises : ∃ (clients : ClientManager Unit) (resolver : ResolverManager Str)
    (message : Message Str), clients.lookupSocket message.name = some 0 ∧
      message.decision.hostname = [] ∧
        readRedirector clients resolver 0 message = .error .attributeError :=
  ⟨ClientManager.connection ⟨fun _ => (), fun _ _ => (.nothing, ()), fun _ _ _ _ => (.nothing, ())⟩ {}
      .proxy,
    { configuration := ⟨2, 10, 900, true, 100⟩ }, ⟨1, ascii "download", ⟨[], ascii "80"⟩⟩, rfl, rfl, rfl⟩

end ExaProxy.Reactor
