import ExaProxy.Network.Server
import ExaProxy.Reactor.Accounts

namespace ExaProxy

open ExaProxy.Data ExaProxy.Network
open ExaProxy.Client (Source Recv Readers)
open ExaProxy.Content (Send Site Decision)

namespace Reactor

variable {ρ : Type} {readers : Readers ρ} {reactor before after : Reactor ρ} {client fetcher : Sock}
  {source : Source} {send : Send} {recv : List Recv}

/-- At most one server was told, of one client. -/
def Tells (before after : Reactor ρ) : Prop :=
  after.clientCount = before.clientCount ∨ ∃ source,
    after.clientCount = Function.update before.clientCount source (before.clientCount source - 1)

theorem Tells.of_same {middle : Reactor ρ} (tells : Tells middle after)
    (same : middle.clientCount = before.clientCount) : Tells before after := by
  rwa [Tells, same] at tells

theorem closeClient_tells (reactor : Reactor ρ) (source : Option Source) :
    Tells reactor (reactor.closeClient source) := by
  cases source with
  | none => exact .inl rfl
  | some source => exact .inr ⟨source, rfl⟩

theorem closeServed_tells (reactor : Reactor ρ) (source : Option Source) :
    Tells reactor (reactor.closeServed source) := by
  unfold closeServed
  split
  · exact .inr ⟨.proxy, rfl⟩
  · exact .inr ⟨.tls, rfl⟩
  · exact .inr ⟨.passthrough, rfl⟩
  · exact .inl rfl
  · exact .inl rfl
  · exact .inl rfl

theorem relay_clientCount (reactor : Reactor ρ) (client : Sock) (data : Str) (send : Send) :
    (reactor.relay client data send).clientCount = reactor.clientCount :=
  noteUpload_clientCount { reactor with content := (reactor.content.sendClientData send client data).1 } ..

theorem incomingRequest_tells (ok : reactor.incomingRequest readers client recv = .ok after) :
    Tells reactor after := by
  unfold Reactor.incomingRequest at ok
  generalize reactor.client.readRequest readers client recv = result at ok
  obtain ⟨manager, read⟩ := result
  dsimp only at ok
  split at ok
  · cases ok
  · cases ok
    exact .inl rfl
  · cases ok
    exact .inr ⟨_, rfl⟩
  all_goals
    cases ok
    exact .inl rfl

theorem incomingClientData_tells (ok : reactor.incomingClientData readers client recv send = .ok after) :
    Tells reactor after := by
  unfold Reactor.incomingClientData at ok
  generalize reactor.client.readData readers client recv = result at ok
  obtain ⟨manager, read⟩ := result
  dsimp only at ok
  split at ok
  · cases ok
  · cases ok
    exact .inl rfl
  · cases ok
    split
    · exact .inl rfl
    · exact .inl (relay_clientCount { reactor with client := manager } ..)
  · cases ok
    exact .inr ⟨_, rfl⟩
  all_goals
    cases ok
    exact .inl rfl

theorem flushClientOutput_tells (ok : reactor.flushClientOutput client send = .ok after) : Tells reactor after := by
  obtain ⟨⟨manager, sent⟩, _, rfl⟩ := map_ok ok
  have told : Tells reactor (if sent.status = none ∧ sent.name ≠ none then
      (({ reactor with client := manager } : Reactor ρ).endDownload client).closeClient sent.source
      else { reactor with client := manager }) := by
    split
    · exact closeClient_tells (({ reactor with client := manager } : Reactor ρ).endDownload client) sent.source
    · exact .inl rfl
  dsimp only at told ⊢
  generalize (if sent.status = none ∧ sent.name ≠ none then _ else _) = middle at told ⊢
  split
  · split <;> exact told
  · exact told

theorem answerClient_tells {response : Str} (ok : reactor.answerClient client response send = .ok after) :
    Tells reactor after := by
  obtain ⟨⟨manager, sent⟩, _, rfl⟩ := map_ok ok
  have closes := closeServed_tells { reactor with client := manager } sent.source
  dsimp only
  split
  · exact closes
  · split
    · split <;> exact .inl rfl
    · exact .inl rfl

theorem completeWebConnection_tells {site : Site} {clientSend : Send}
    (ok : reactor.completeWebConnection fetcher site send clientSend = .ok after) : Tells reactor after := by
  obtain ⟨_, rfl⟩ | ⟨client, _, rest⟩ := completeWebConnection_ok ok
  · exact .inl rfl
  · have noted := noteUpload_clientCount
      { reactor with content := (reactor.content.startDownload site send fetcher).1 } client none
        (reactor.content.startDownload site send fetcher).2.2.2
    obtain rfl | ⟨response, _, _, answers⟩ := rest
    · exact .inl noted
    · exact (answerClient_tells answers).of_same noted

theorem incomingWebData_tells {recv : Recv} (ok : reactor.incomingWebData fetcher recv send = .ok after) :
    Tells reactor after := by
  unfold Reactor.incomingWebData at ok
  generalize reactor.content.readData fetcher recv = result at ok
  obtain ⟨content, owner, pageData⟩ := result
  cases owner with
  | none =>
      cases ok
      exact .inl rfl
  | some client =>
      obtain ⟨⟨manager, sent⟩, _, rfl⟩ := map_ok ok
      have closes := closeServed_tells { reactor with client := manager, content } sent.source
      dsimp only
      split
      · split
        · exact closes
        · exact closes
      · split <;> exact .inl rfl

theorem flushWebOutput_tells : Tells reactor (reactor.flushWebOutput fetcher send) := by
  unfold Reactor.flushWebOutput
  generalize reactor.content.sendSocketData send fetcher [] = result
  obtain ⟨content, status, bufferChange, owner⟩ := result
  cases owner with
  | none => exact .inl rfl
  | some owner => exact .inl (noteUpload_clientCount { reactor with content } owner status bufferChange)

theorem enactDecision_tells {decision : Decision} {outside : Outside}
    (ok : reactor.enactDecision readers client decision outside = .ok after) : Tells reactor after := by
  obtain ⟨⟨content, answer⟩, _, ok⟩ := bind_ok ok
  obtain ⟨⟨manager, data, source⟩, _, ok⟩ := bind_ok ok
  have noted := noteUpload_clientCount { reactor with content } client answer.buffered answer.bufferChange
  cases data with
  | none =>
      cases ok
      exact (closeClient_tells _ source).of_same noted
  | some data =>
      cases data with
      | nil =>
          cases ok
          exact .inl noted
      | cons byte rest =>
          cases ok
          exact .inl ((relay_clientCount _ client (byte :: rest) outside.upload).trans noted)

theorem expire_tells : Tells reactor (reactor.expire client) :=
  closeClient_tells { reactor with client := (reactor.client.expireOne client).1 } _

/-- But for a connection that is accepted, no count grows. -/
theorem take_tells {turn : Turn} (settled : ∀ source, turn ≠ .acceptConnection source)
    (ok : before.take readers turn = .ok after) : Tells before after := by
  cases turn with
  | acceptConnection source => exact absurd rfl (settled source)
  | incomingRequest client recv => exact incomingRequest_tells ok
  | incomingClientData client recv send => exact incomingClientData_tells ok
  | flushClientOutput client send => exact flushClientOutput_tells ok
  | completeWebConnection fetcher site send clientSend => exact completeWebConnection_tells ok
  | incomingWebData fetcher recv send => exact incomingWebData_tells ok
  | flushWebOutput fetcher send =>
      cases ok
      exact flushWebOutput_tells
  | enactDecision client decision outside => exact enactDecision_tells ok
  | expire client =>
      cases ok
      exact expire_tells

end Reactor

/-- The reactor with its servers.  `polled` are the listening sockets that the last `poll`
has reported, as long as `accept` was not called for them. -/
structure Gateway (ρ : Type) where
  reactor : Reactor ρ := {}
  servers : Source → Server Unit
  polled : Source → List Sock := fun _ => []

namespace Gateway

variable {ρ : Type} (readers : Readers ρ) (most : Source → Nat) (limit : Source → Int)
  (gateway : Gateway ρ)

/-- `accept` is called for the next listening socket, and may fail. -/
def accept (source : Source) (rest : List Sock) (connected : Bool) : Gateway ρ where
  reactor := if connected then gateway.reactor.acceptConnection readers source else gateway.reactor
  servers := Function.update gateway.servers source ((gateway.servers source).accept connected)
  polled := Function.update gateway.polled source rest

/-- The servers are told of the clients that were closed in a turn. -/
def notified (after : Reactor ρ) (source : Source) : Server Unit :=
  if after.clientCount source < gateway.reactor.clientCount source then (gateway.servers source).notifyClose 1
  else gateway.servers source

/-- The supervisor has changed a server, between the reactor's runs. -/
def managed (source : Source) (server : Server Unit) : Gateway ρ where
  reactor := gateway.reactor
  servers := Function.update gateway.servers source server

/-- What the reactor does, and what the supervisor does to a server between its runs, where
`most` is how many sockets each server listens on. -/
inductive Step : Gateway ρ → Gateway ρ → Prop where
  | poll {gateway : Gateway ρ} (polled : Source → List Sock)
      (watched : ∀ source, (polled source).Nodup ∧
        ∀ sock ∈ polled source, (gateway.servers source).Watches sock) :
      Step gateway { gateway with polled }
  | accept {gateway : Gateway ρ} (source : Source) (sock : Sock) (rest : List Sock) (connected : Bool)
      (next : gateway.polled source = sock :: rest) : Step gateway (gateway.accept readers source rest connected)
  | turn {gateway : Gateway ρ} (turn : Reactor.Turn) (after : Reactor ρ)
      (settled : ∀ source, turn ≠ .acceptConnection source) (proper : gateway.reactor.Proper turn)
      (ok : gateway.reactor.take readers turn = .ok after) :
      Step gateway { gateway with reactor := after, servers := gateway.notified after }
  | manage {gateway : Gateway ρ} (source : Source) (server : Server Unit)
      (step : Server.Step (gateway.servers source) server)
      (uncounted : server.clientCount = (gateway.servers source).clientCount)
      (bounded : server.socks.keys.length ≤ most source) :
      Step gateway (gateway.managed source server)

/-- The servers listen nowhere yet, and `limit` says how many clients each may have. -/
def Start (gateway : Gateway ρ) : Prop :=
  ∃ servers : Source → Server Unit, gateway = { servers } ∧
    ∀ source, (servers source).Start ∧ (servers source).maxClients = limit source

abbrev Run : Gateway ρ → Prop := Reachable (Start limit) (Step readers most)

/-- What holds of each server. -/
structure Bounded (source : Source) : Prop where
  configured : (gateway.servers source).maxClients = limit source
  gated : (gateway.servers source).Gated
  counted : (gateway.servers source).clientCount = gateway.reactor.clientCount source
  listens : (gateway.servers source).socks.keys.length ≤ most source
  limited : (gateway.servers source).clientCount + (gateway.polled source).length + 1 ≤
    limit source + most source

variable {readers most limit gateway} {after : Gateway ρ} {source : Source}

theorem Bounded.poll (bounded : gateway.Bounded most limit source) {polled : Source → List Sock}
    (distinct : (polled source).Nodup) (watched : ∀ sock ∈ polled source, (gateway.servers source).Watches sock) :
    Bounded most limit { gateway with polled } source where
  configured := bounded.configured
  gated := bounded.gated
  counted := bounded.counted
  listens := bounded.listens
  limited := by
    have limited := bounded.limited
    cases reported : polled source with
    | nil =>
        simp only [reported, List.length_nil]
        omega
    | cons sock rest =>
        -- a socket that is watched says that there is room for a client
        have gates (sock : Sock) (member : sock ∈ polled source) :
            sock ∈ (gateway.servers source).socks ∧
              (gateway.servers source).clientCount < (gateway.servers source).maxClients := by
          have watches := watched sock member
          rw [Server.Watches, bounded.gated sock] at watches
          by_contra shut
          rw [if_neg shut] at watches
          cases watches
        have room := (gates sock (by rw [reported]; exact List.mem_cons_self ..)).2
        have fewer : (polled source).length ≤ (gateway.servers source).socks.keys.length := by
          apply (distinct.subperm _).length_le
          intro member held
          exact AList.mem_keys.mpr (gates member held).1
        have listens := bounded.listens
        have configured := bounded.configured
        dsimp only
        omega

theorem Bounded.congr (bounded : gateway.Bounded most limit source)
    (servers : after.servers source = gateway.servers source)
    (polled : (after.polled source).length ≤ (gateway.polled source).length)
    (counts : after.reactor.clientCount source = gateway.reactor.clientCount source) :
    after.Bounded most limit source where
  configured := servers ▸ bounded.configured
  gated := servers ▸ bounded.gated
  counted := by rw [servers, counts, bounded.counted]
  listens := servers ▸ bounded.listens
  limited := by
    have limited := bounded.limited
    rw [servers]
    omega

theorem accept_same (server : Server Unit) (connected : Bool) :
    (server.accept connected).maxClients = server.maxClients ∧ (server.accept connected).socks = server.socks ∧
    (server.accept connected).clientCount = server.clientCount + (if connected then 1 else 0) := by
  unfold Server.accept Server.saturate
  cases connected <;> simp only [Bool.false_eq_true, if_true, if_false, Int.add_zero] <;> split <;>
    exact ⟨rfl, rfl, rfl⟩

theorem acceptConnection_count (reactor : Reactor ρ) (source : Source) :
    (reactor.acceptConnection readers source).clientCount =
      Function.update reactor.clientCount source (reactor.clientCount source + 1) := by
  cases source <;> rfl

theorem Bounded.accept (bounded : gateway.Bounded most limit source) {sock : Sock} {rest : List Sock} (connected : Bool)
    (next : gateway.polled source = sock :: rest) :
    (gateway.accept readers source rest connected).Bounded most limit source := by
  obtain ⟨limits, socks, count⟩ := accept_same (gateway.servers source) connected
  have counted : (gateway.accept readers source rest connected).reactor.clientCount source =
      gateway.reactor.clientCount source + (if connected then 1 else 0) := by
    cases connected with
    | true => simp [Gateway.accept, acceptConnection_count]
    | false => simp [Gateway.accept]
  refine ⟨?_, ?_, ?_, ?_, ?_⟩
  · simp only [Gateway.accept, Function.update_self, limits]
    exact bounded.configured
  · simp only [Gateway.accept, Function.update_self]
    exact bounded.gated.accept connected
  · rw [counted, ← bounded.counted]
    simp only [Gateway.accept, Function.update_self, count]
  · simp only [Gateway.accept, Function.update_self, socks]
    exact bounded.listens
  · have limited := bounded.limited
    rw [next, List.length_cons] at limited
    simp only [Gateway.accept, Function.update_self, count]
    split <;> omega

theorem Bounded.turn (bounded : gateway.Bounded most limit source) {reactor : Reactor ρ}
    (tells : Reactor.Tells gateway.reactor reactor) :
    Bounded most limit { gateway with reactor, servers := gateway.notified reactor } source := by
  have counted := bounded.counted
  have limited := bounded.limited
  by_cases told : reactor.clientCount source < gateway.reactor.clientCount source
  · have one : reactor.clientCount source = gateway.reactor.clientCount source - 1 := by
      obtain same | ⟨other, same⟩ := tells
      · exact absurd told (by rw [same]; exact Int.lt_irrefl _)
      · rw [same, Function.update_apply] at told ⊢
        split at told <;> grind
    refine ⟨?_, ?_, ?_, ?_, ?_⟩ <;> simp only [notified, if_pos told]
    · exact bounded.configured
    · exact bounded.gated.notifyClose 1
    · simp only [Server.notifyClose]
      omega
    · exact bounded.listens
    · simp only [Server.notifyClose]
      omega
  · have same : reactor.clientCount source = gateway.reactor.clientCount source := by
      obtain same | ⟨other, same⟩ := tells
      · rw [same]
      · rw [same, Function.update_apply] at told ⊢
        split at told <;> grind
    exact bounded.congr (if_neg told) (Nat.le_refl _) same

theorem listen_limit (server : Server Unit) (binding : Binding) (listened : Listened) :
    (server.listen binding listened).maxClients = server.maxClients := by
  cases listened <;> rfl

theorem relisten_limit (server : Server Unit) (attempts : List (Binding × Listened)) :
    (server.relisten attempts).1.maxClients = server.maxClients := by
  induction attempts generalizing server with
  | nil => rfl
  | cons attempt attempts ih =>
      obtain ⟨binding, listened⟩ := attempt
      cases listened with
      | failed => rfl
      | nothing => exact ih server
      | socket sock => exact (ih _).trans (listen_limit server binding (.socket sock))

theorem step_limit {before after : Server Unit} (step : Server.Step before after) :
    after.maxClients = before.maxClients := by
  cases step with
  | listen binding listened fresh => exact listen_limit before binding listened
  | accept accepted => exact (accept_same before accepted).1
  | notifyClose count => rfl
  | rejecting =>
      unfold Server.rejecting
      split <;> rfl
  | accepting attempts bindings fresh =>
      unfold Server.accepting
      split
      · rfl
      · exact relisten_limit before attempts
  | elsewhere poller same => rfl

theorem Bounded.manage (bounded : gateway.Bounded most limit source) {server : Server Unit}
    (step : Server.Step (gateway.servers source) server)
    (uncounted : server.clientCount = (gateway.servers source).clientCount)
    (listens : server.socks.keys.length ≤ most source) :
    (gateway.managed source server).Bounded most limit source := by
  have limited := bounded.limited
  refine ⟨?_, ?_, ?_, ?_, ?_⟩ <;> simp only [managed, Function.update_self]
  · exact (step_limit step).trans bounded.configured
  · exact step.gated bounded.gated
  · exact uncounted.trans bounded.counted
  · exact listens
  · rw [uncounted, List.length_nil]
    omega

/-- What holds after every step. -/
structure Sound (most : Source → Nat) (limit : Source → Int) (gateway : Gateway ρ) : Prop where
  accounts : gateway.reactor.Accounts
  bounded : ∀ source, gateway.Bounded most limit source

theorem Sound.start (start : Start limit gateway) (positive : ∀ source, 1 ≤ limit source) :
    gateway.Sound most limit := by
  obtain ⟨servers, rfl, started⟩ := start
  refine ⟨.initial, fun source => ?_⟩
  obtain ⟨starts, configured⟩ := started source
  have gated := starts.gated
  obtain ⟨readName, maxClients, serving, fresh⟩ := starts
  have room := positive source
  refine ⟨configured, gated, ?_, ?_, ?_⟩ <;> simp only [fresh]
  · exact Nat.zero_le _
  · simp only [List.length_nil]
    omega

theorem Sound.next (sound : gateway.Sound most limit) (step : Step readers most gateway after) :
    after.Sound most limit := by
  cases step with
  | poll polled watched =>
      exact ⟨sound.accounts, fun source => (sound.bounded source).poll (watched source).1 (watched source).2⟩
  | accept source sock rest connected next =>
      refine ⟨?_, fun other => ?_⟩
      · cases connected with
        | true => exact sound.accounts.acceptConnection
        | false => exact sound.accounts
      · by_cases same : other = source
        · subst same
          exact (sound.bounded other).accept connected next
        · apply (sound.bounded other).congr
          · simp [Gateway.accept, same]
          · simp [Gateway.accept, same]
          · cases connected <;> simp [Gateway.accept, acceptConnection_count, same]
  | turn turn after settled proper ok =>
      have tells := Reactor.take_tells settled ok
      exact ⟨sound.accounts.take proper ok, fun source => (sound.bounded source).turn tells⟩
  | manage source server step uncounted listens =>
      refine ⟨sound.accounts, fun other => ?_⟩
      by_cases same : other = source
      · subst same
        exact (sound.bounded other).manage step uncounted listens
      · apply (sound.bounded other).congr
        · simp [managed, same]
        · simp [managed]
        · rfl

/-- In every run, each server has fewer clients than its limit and the sockets that it
listens on together: between a poll and the next one it accepts one client for each of
those sockets at most. -/
theorem connections_limited (positive : ∀ source, 1 ≤ limit source) (run : Run readers most limit gateway)
    (source : Source) :
    ((gateway.reactor.client.held source).card : Int) < limit source + most source := by
  have sound : gateway.Sound most limit := Reachable.invariant run (Sound most limit)
    (fun _ start => .start start positive) fun _ _ _ sound step => sound.next step
  have bounded := sound.bounded source
  have limited := bounded.limited
  rw [← sound.accounts.balanced source, ← bounded.counted]
  omega

/-- Servers for one client each. -/
def small : Gateway (Client.AnyReader Unit) where
  servers _ := { readName := (), maxClients := 1, serving := true }

/-- The proxy listens on two sockets. -/
def opened : Gateway (Client.AnyReader Unit) :=
  let first := small.managed .proxy ((small.servers .proxy).listen ⟨[], 80, 5, 200⟩ (.socket 3))
  first.managed .proxy ((first.servers .proxy).listen ⟨[], 81, 5, 200⟩ (.socket 4))

/-- A client connects to each of them at once. -/
def crowded : Gateway (Client.AnyReader Unit) :=
  let polled : Source → List Sock := fun source => if source = .proxy then [3, 4] else []
  ({ opened with polled }.accept Reactor.plainReaders .proxy [4] true).accept Reactor.plainReaders .proxy [] true

theorem crowded_run : Run Reactor.plainReaders (fun _ => 2) (fun _ => 1) crowded := by
  have start : Run Reactor.plainReaders (fun _ => 2) (fun _ => 1) small :=
    .start ⟨small.servers, rfl, fun _ => ⟨⟨(), 1, true, rfl⟩, rfl⟩⟩
  have first := start.next (.manage .proxy _
    (.listen ⟨[], 80, 5, 200⟩ (.socket 3) fun _ _ => AList.notMem_empty _) rfl (by decide))
  have second : Run Reactor.plainReaders (fun _ => 2) (fun _ => 1) opened := first.next (.manage .proxy _
    (.listen ⟨[], 81, 5, 200⟩ (.socket 4) fun _ same => by cases same; decide) rfl (by decide))
  have polled := second.next (.poll (fun source => if source = .proxy then [3, 4] else []) (by
    intro source
    cases source with
    | proxy =>
        refine ⟨by decide, fun sock member => ?_⟩
        obtain rfl | rfl : sock = 3 ∨ sock = 4 := by simpa using member
        · rfl
        · rfl
    | web | icap | tls | passthrough => exact ⟨List.nodup_nil, by simp⟩))
  exact (polled.next (.accept .proxy 3 [4] true rfl)).next (.accept .proxy 4 [] true rfl)

theorem connections_limited_crowded : crowded.reactor.client.held .proxy = {0, 1} ∧
    ((crowded.reactor.client.held .proxy).card : Int) < 1 + 2 :=
  ⟨by decide +kernel, connections_limited (fun _ => Int.le_refl 1) crowded_run .proxy⟩

end Gateway

end ExaProxy
