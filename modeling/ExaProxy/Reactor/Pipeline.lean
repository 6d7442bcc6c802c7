import ExaProxy.Reactor.Conversation

namespace ExaProxy.Conversation

open ExaProxy.Data ExaProxy.Network ExaProxy.Client
open ExaProxy.Content (Send Decision ContentManager)
open Reactor

variable {ι : Type} {settings : Settings} {icap : Readers ι} {sock : Sock} {name : Nat} {asked : List Nat}
  {texts pieces : List Str} {received piece pending : Str} {conversation : Conversation (AnyReader ι)}

/-- What comes next completes one request at most, and what it leaves of the one behind
is not too long. -/
def Admits (size : Nat) (texts : List Str) (before after : Nat) : Prop :=
  (progress texts after).1 ≤ (progress texts before).1 + 1 ∧ (size = 0 ∨ (progress texts after).2 ≤ size)

instance (size : Nat) (texts : List Str) (before after : Nat) : Decidable (Admits size texts before after) :=
  inferInstanceAs (Decidable (_ ∧ (_ ∨ _)))

/-- Every request that has come whole was passed on and answered, and the client is waited
for. -/
inductive Orderly (sock : Sock) (name : Nat) (asked : List Nat) (texts : List Str) (received : Str)
    (conversation : Conversation (AnyReader ι)) : Prop
  | intro (others : List Str) (pending : Str) (split : texts = conversation.sent ++ others)
      (came : received = conversation.sent.flatten ++ pending) (part : Part pending others)
      (listening : Listening conversation.reactor sock name pending)
      (passed : conversation.reactor.asked = asked ++ conversation.sent.map fun _ => name)

theorem Orderly.next (orderly : Orderly sock name asked texts received conversation) (streaming : Streaming sock)
    (bodyless : ∀ text ∈ texts, Bodyless text) (even : ∀ text ∈ texts, Http.countQuotes text % 2 = 0)
    (nonempty : piece ≠ []) (comes : received ++ piece <+: texts.flatten) :
    ∃ after, conversation.next (readers settings icap) streaming piece = .ok after ∧
      (Admits settings.httpMaxBuffer texts received.length (received ++ piece).length →
        Orderly sock name asked texts (received ++ piece) after) ∧
      (¬ Admits settings.httpMaxBuffer texts received.length (received ++ piece).length →
        after.sent ≠ texts ∧ ¬ after.reactor.Holds sock) := by
  obtain ⟨others, pending, rfl, rfl, part, listening, passed⟩ := orderly
  have bodyless' : ∀ text ∈ others, Bodyless text := fun text member => bodyless text (List.mem_append_right _ member)
  have before : progress (conversation.sent ++ others) (conversation.sent.flatten ++ pending).length =
      (conversation.sent.length, pending.length) := by
    rw [List.length_append, progress_append, part.progress]
    rfl
  have after : progress (conversation.sent ++ others) (conversation.sent.flatten ++ pending ++ piece).length =
      (conversation.sent.length + (progress others (pending ++ piece).length).1,
        (progress others (pending ++ piece).length).2) := by
    rw [List.append_assoc, List.length_append, progress_append]
  have buffered : pending ++ piece <+: others.flatten := by
    rw [List.flatten_append, List.append_assoc, List.prefix_append_right_inj] at comes
    exact comes
  simp only [Admits, before, after]
  obtain whole | ⟨text, later, rest, rfl, same, more⟩ := part_or_whole buffered
  · rw [whole.progress]
    by_cases fits : Fits (pending ++ piece) settings.httpMaxBuffer
    · obtain ⟨reactor, ok, kept, asked'⟩ := Conversation.next_kept icap listening streaming nonempty (whole.readHttp bodyless' fits)
      refine ⟨_, ok, fun _ => ?_, fun refused => absurd ⟨by omega, fits⟩ refused⟩
      exact .intro others (pending ++ piece) rfl (List.append_assoc ..) whole kept (asked'.trans passed)
    · obtain ⟨closed, ok, gone⟩ := Conversation.next_closed icap listening streaming nonempty
        (by rw [whole.readHttp_long bodyless' fits])
      refine ⟨_, ok, fun admitted => absurd admitted.2 fits, fun _ => ⟨?_, gone⟩⟩
      obtain ⟨text, later, rfl⟩ := whole.exists_next fits
      simp
  · have bodyless'' : ∀ text ∈ later, Bodyless text := fun text member => bodyless' text (List.mem_cons_of_mem _ member)
    have read := (bodyless' text List.mem_cons_self).readHttp_whole
      (even text (List.mem_append_right _ List.mem_cons_self)) settings.httpMaxBuffer rest
    rw [← same] at read
    rw [same, List.length_append, progress_whole]
    obtain whole | ⟨other, later, remains, rfl, rfl, _⟩ := part_or_whole more
    · rw [whole.progress]
      by_cases fits : Fits rest settings.httpMaxBuffer
      · obtain ⟨reactor, ok, listening', passed'⟩ := Conversation.next_answered icap listening streaming nonempty read
          (whole.readHttp bodyless'' fits)
        refine ⟨_, ok, fun _ => ?_, fun refused => absurd ⟨by omega, fits⟩ refused⟩
        refine .intro later rest (by rw [List.append_assoc]; rfl) ?_ whole listening' ?_
        · rw [List.append_assoc, same, List.flatten_append, List.flatten_singleton, List.append_assoc]
        · rw [passed', passed, List.append_assoc, List.map_append]
          rfl
      · obtain ⟨closed, ok, gone⟩ := Conversation.next_overrun icap listening streaming nonempty read
          (.inl (by rw [whole.readHttp_long bodyless'' fits]))
        refine ⟨_, ok, fun admitted => absurd admitted.2 fits, fun _ => ⟨?_, gone⟩⟩
        obtain ⟨other, later, rfl⟩ := whole.exists_next fits
        simp
    · have read' := (bodyless'' other List.mem_cons_self).readHttp_whole
        (even other (List.mem_append_right _ (List.mem_cons_of_mem _ List.mem_cons_self))) settings.httpMaxBuffer remains
      obtain ⟨closed, ok, gone⟩ := Conversation.next_overrun icap listening streaming nonempty read
        (.inr ⟨other, by rw [read']⟩)
      refine ⟨_, ok, fun admitted => absurd admitted.1 ?_, fun _ => ⟨by simp, gone⟩⟩
      rw [List.length_append, progress_whole]
      omega

section Quotes

/-- The client, if it is held, is one of HTTP that does not come through a proxy. -/
def Direct (manager : ClientManager (AnyReader ι)) (sock : Sock) : Prop :=
  ∀ client, manager.norequest.lookup sock = some client ∨ manager.bysock.lookup sock = some client →
    ∃ reader, client.reader = .http ⟨false, reader⟩

variable {manager before after : ClientManager (AnyReader ι)} {client : Connected (AnyReader ι)}
  {reader other : AnyReader ι} {yielded : Yielded} {text : Str} {recv : List Recv}

theorem readData_direct (read : (readers settings icap).readData reader recv = (yielded, other))
    (direct : ∃ http, reader = .http ⟨false, http⟩) : (∃ http, other = .http ⟨false, http⟩) ∧
      ∀ text, yielded = .request text → Http.countQuotes text % 2 = 0 := by
  obtain ⟨http, rfl⟩ := direct
  simp only [readers, resume_direct] at read
  cases read
  exact ⟨⟨_, rfl⟩, fun text asked => Reader.resume_even asked⟩

theorem readRelated_direct {mode : Mode} {remaining : Nat}
    (read : (readers settings icap).readRelated reader mode remaining recv = (yielded, other))
    (direct : ∃ http, reader = .http ⟨false, http⟩) : ∃ http, other = .http ⟨false, http⟩ := by
  obtain ⟨http, rfl⟩ := direct
  simp only [readers, resume_direct] at read
  cases read
  exact ⟨_, rfl⟩

theorem Direct.congr (direct : Direct before sock) (norequest : after.norequest = before.norequest)
    (bysock : after.bysock = before.bysock) : Direct after sock := by
  unfold Direct
  rw [norequest, bysock]
  exact direct

theorem cleanup_direct (manager : ClientManager (AnyReader ι)) (sock : Sock) (name : Nat) :
    Direct (manager.cleanup sock name) sock := by
  have gone := cleanup_absent manager sock name
  intro client found
  rcases found with found | found
  · exact absurd (lookup_mem found) gone.1
  · exact absurd (lookup_mem found) gone.2

theorem Direct.put (direct : Direct manager sock) (reads : ∃ http, client.reader = .http ⟨false, http⟩) :
    Direct (manager.put sock client) sock := by
  intro other found
  rcases found with found | found
  · exact direct other (.inl found)
  · cases (AList.lookup_insert _).symm.trans found
    exact reads

theorem Direct.opening {result : ClientManager (AnyReader ι) × Option (Nat × Source × Yielded)}
    (direct : Direct manager sock)
    (opening : ClientManager.Opening (readers settings icap) manager sock recv result) :
    Direct result.1 sock ∧ ∀ text, requestOf result.2 = some text → Http.countQuotes text % 2 = 0 := by
  cases opening with
  | absent | raised => exact ⟨direct, fun text asked => nomatch asked⟩
  | asked client found request reader read =>
      obtain ⟨reads, even⟩ := readData_direct read (direct client (.inl found))
      refine ⟨fun other found => ?_, fun text asked => ?_⟩
      · rcases found with found | found
        · exact absurd (lookup_mem found) fun held => (AList.mem_erase.mp held).1 rfl
        · cases (AList.lookup_insert _).symm.trans found
          exact reads
      · cases asked
        exact even _ rfl
  | closed client found => exact ⟨cleanup_direct manager sock client.name, fun text asked => nomatch asked⟩
  | kept client found yielded reader read quiet =>
      obtain ⟨reads, _⟩ := readData_direct read (direct client (.inl found))
      refine ⟨fun other found => ?_, fun text asked => ?_⟩
      · rcases found with found | found
        · cases (AList.lookup_insert _).symm.trans found
          exact reads
        · exact direct other (.inr found)
      · rcases quiet with rfl | ⟨data, rfl⟩ <;> cases asked

theorem Direct.reading {result : ClientManager (AnyReader ι) × Option (Nat × Source × Yielded)}
    (direct : Direct manager sock)
    (reading : ClientManager.Reading (readers settings icap) manager sock recv result) :
    Direct result.1 sock ∧ ∀ text, requestOf result.2 = some text → Http.countQuotes text % 2 = 0 := by
  cases reading with
  | absent | raised => exact ⟨direct, fun text asked => nomatch asked⟩
  | asked client found request reader read =>
      obtain ⟨reads, even⟩ := readData_direct read (direct client (.inr found))
      refine ⟨(direct.put reads).congr rfl rfl, fun text asked => ?_⟩
      cases asked
      exact even _ rfl
  | closed client found => exact ⟨cleanup_direct manager sock client.name, fun text asked => nomatch asked⟩
  | kept client found yielded reader read quiet =>
      obtain ⟨reads, _⟩ := readData_direct read (direct client (.inr found))
      refine ⟨direct.put reads, fun text asked => ?_⟩
      rcases quiet with rfl | ⟨data, rfl⟩ <;> cases asked

theorem startBuffer_held {buffered hadBuffer : Bool} (ok : before.startBuffer sock buffered hadBuffer = .ok after) :
    after.norequest = before.norequest ∧ after.bysock = before.bysock := by
  unfold ClientManager.startBuffer at ok
  split at ok
  · cases ok
    exact ⟨rfl, rfl⟩
  · split at ok
    · split at ok
      · cases ok
        exact ⟨rfl, rfl⟩
      · cases ok
    · cases ok
      exact ⟨rfl, rfl⟩

theorem Direct.starting {reply : Option Content.Reply} {remaining : Content.Remaining} {send : Send} {file : Option Str}
    {result : ClientManager (AnyReader ι) × Option Str × Option Source} (direct : Direct manager sock)
    (starting : ClientManager.Starting (readers settings icap) manager sock reply remaining send file recv result) :
    Direct result.1 sock := by
  cases starting with
  | absent => exact direct
  | unanswered => exact direct
  | closed client found => exact cleanup_direct manager sock client.name
  | kept client found content valid writer buffered hadBuffer answered yielded reader data read yields started noted =>
      have reads := readRelated_direct read (direct client (.inr found))
      obtain ⟨norequest, bysock⟩ := startBuffer_held noted
      have put : Direct (manager.put sock { client with writer, reader }) sock := direct.put reads
      exact put.congr norequest bysock

theorem noteUpload_held (reactor : Reactor (AnyReader ι)) (sock : Sock) (status bufferChange : Option Bool) :
    (reactor.noteUpload sock status bufferChange).client.norequest = reactor.client.norequest ∧
      (reactor.noteUpload sock status bufferChange).client.bysock = reactor.client.bysock := by
  unfold Reactor.noteUpload
  split
  · split
    · unfold ClientManager.corkUpload
      split <;> exact ⟨rfl, rfl⟩
    · unfold ClientManager.uncorkUpload
      split <;> exact ⟨rfl, rfl⟩
  · exact ⟨rfl, rfl⟩

theorem Direct.relay {reactor : Reactor (AnyReader ι)} (direct : Direct reactor.client sock) (data : Str) (send : Send) :
    Direct (reactor.relay sock data send).client sock := by
  unfold Reactor.relay
  obtain ⟨norequest, bysock⟩ := noteUpload_held
    { reactor with content := (reactor.content.sendClientData send sock data).1 } sock
    (reactor.content.sendClientData send sock data).2.1 (reactor.content.sendClientData send sock data).2.2
  exact direct.congr norequest bysock

theorem Direct.receive {reactor after : Reactor (AnyReader ι)} (direct : Direct reactor.client sock)
    {recv : List Recv} {send : Send} {request : Option Str}
    (ok : reactor.receive (readers settings icap) sock recv send = .ok (after, request)) :
    Direct after.client sock ∧ ∀ text, request = some text → Http.countQuotes text % 2 = 0 := by
  unfold Reactor.receive at ok
  split at ok
  · obtain ⟨kept, even⟩ := direct.opening (ClientManager.readRequest_opening recv)
    obtain ⟨reactor, handled, same⟩ := map_ok ok
    cases same
    refine ⟨?_, even⟩
    unfold Reactor.incomingRequest at handled
    generalize reactor.client.readRequest (readers settings icap) sock recv = result at kept handled
    dsimp only at handled
    split at handled <;> cases handled <;> exact kept
  · split at ok
    · obtain ⟨kept, even⟩ := direct.reading (ClientManager.readData_reading recv)
      obtain ⟨reactor, handled, same⟩ := map_ok ok
      cases same
      refine ⟨?_, even⟩
      unfold Reactor.incomingClientData at handled
      generalize reactor.client.readData (readers settings icap) sock recv = result at kept handled
      dsimp only at handled
      split at handled
      · cases handled
      · cases handled
        exact kept
      · next data _ =>
          cases handled
          split
          · exact kept
          · exact Direct.relay kept data send
      all_goals
        cases handled
        exact kept
    · cases ok
      exact ⟨direct, fun text asked => nomatch asked⟩

theorem Direct.enactDecision {reactor after : Reactor (AnyReader ι)} (direct : Direct reactor.client sock)
    {decision : Decision} {outside : Outside}
    (ok : reactor.enactDecision (readers settings icap) sock decision outside = .ok after) : Direct after.client sock := by
  obtain ⟨⟨content, answer⟩, _, ok⟩ := bind_ok ok
  obtain ⟨⟨manager, data, source⟩, starts, ok⟩ := bind_ok ok
  obtain ⟨norequest, bysock⟩ := noteUpload_held { reactor with content } sock answer.buffered answer.bufferChange
  have kept := (direct.congr norequest bysock).starting (ClientManager.startData_starting starts)
  cases data with
  | none =>
      cases ok
      rw [Reactor.closeClient_client]
      exact kept
  | some data =>
      cases data with
      | nil =>
          cases ok
          exact kept
      | cons byte rest =>
          cases ok
          exact Direct.relay kept _ _

end Quotes

theorem next_even {after : Conversation (AnyReader ι)} {streaming : Streaming sock}
    (ok : conversation.next (readers settings icap) streaming piece = .ok after)
    (direct : Direct conversation.reactor.client sock) (even : ∀ text ∈ conversation.sent, Http.countQuotes text % 2 = 0) :
    Direct after.reactor.client sock ∧ ∀ text ∈ after.sent, Http.countQuotes text % 2 = 0 := by
  unfold Conversation.next at ok
  split at ok
  · cases ok
  · next reactor received =>
      cases ok
      exact ⟨(direct.receive received).1, even⟩
  · next reactor text received =>
      obtain ⟨kept, asked⟩ := direct.receive received
      obtain ⟨enacted, enacts, rfl⟩ := map_ok ok
      refine ⟨kept.enactDecision enacts, fun other member => ?_⟩
      rcases List.mem_append.mp member with earlier | last
      · exact even other earlier
      · rw [List.mem_singleton.mp last]
        exact asked text rfl

/-- A client has just connected, and speaks HTTP itself. -/
structure Opened (reactor : Reactor (AnyReader ι)) (sock : Sock) (name : Nat) : Prop where
  accepted : ∃ source, reactor.client.norequest.lookup sock = some { name, source, reader := .http ⟨false, {}⟩ }
  unserved : sock ∉ reactor.client.bysock
  watched : reactor.client.poller.interest .openingClient sock = .watched
  unread : reactor.client.poller.interest .readClient sock = .absent
  unbuffered : sock ∉ reactor.client.buffered

/-- All requests are passed on, each once and in their order, and the client is not closed
while one of them has not been answered. -/
def Decided (readers : Readers (AnyReader ι)) (streaming : Streaming sock) (reactor : Reactor (AnyReader ι)) (name : Nat)
    (texts pieces : List Str) : Prop :=
  (∃ after, Conversation.run readers streaming ⟨reactor, []⟩ pieces = .ok after ∧ after.sent = texts ∧
    after.reactor.asked = reactor.asked ++ texts.map fun _ => name) ∧
  ∀ count, ∃ after, Conversation.run readers streaming ⟨reactor, []⟩ (pieces.take count) = .ok after ∧
    (after.sent ≠ texts → after.reactor.Holds sock)

/-- No piece completes two requests, and what a piece leaves of an unfinished one is not
too long. -/
def Spaced (size : Nat) (texts pieces : List Str) : Prop :=
  ∀ count < pieces.length, Admits size texts (pieces.take count).flatten.length (pieces.take (count + 1)).flatten.length

instance (size : Nat) (texts pieces : List Str) : Decidable (Spaced size texts pieces) :=
  inferInstanceAs (Decidable (∀ count < pieces.length, Admits _ _ _ _))

theorem Opened.orderly {reactor : Reactor (AnyReader ι)} (opened : Opened reactor sock name)
    (bodyless : ∀ text ∈ texts, Bodyless text) : Orderly sock name reactor.asked texts [] ⟨reactor, []⟩ := by
  obtain ⟨source, accepted⟩ := opened.accepted
  have part : Part [] texts := by
    cases texts with
    | nil => exact .inl ⟨rfl, rfl⟩
    | cons text later =>
        have filled := (bodyless text List.mem_cons_self).ne_nil
        exact .inr ⟨text, later, 0, rfl, List.length_pos_of_ne_nil filled, rfl⟩
  refine .intro texts [] rfl rfl part (.opening _ accepted rfl rfl rfl opened.watched opened.unread ?_) (by simp)
  exact List.count_eq_zero_of_not_mem opened.unbuffered

theorem Opened.direct {reactor : Reactor (AnyReader ι)} (opened : Opened reactor sock name) : Direct reactor.client sock := by
  obtain ⟨source, accepted⟩ := opened.accepted
  intro client found
  rcases found with found | found
  · cases accepted.symm.trans found
    exact ⟨_, rfl⟩
  · exact absurd (lookup_mem found) opened.unserved

section Runs

variable {streaming : Streaming sock} {count : Nat} {after : Conversation (AnyReader ι)}

theorem run_take_succ {read : Readers (AnyReader ι)} (within : count < pieces.length)
    (ran : Conversation.run read streaming conversation (pieces.take count) = .ok after) :
    Conversation.run read streaming conversation (pieces.take (count + 1)) = after.next read streaming pieces[count] := by
  rw [Conversation.run] at ran
  rw [← List.take_append_getElem within, Conversation.run, List.foldlM_append, ran]
  exact bind_pure (after.next read streaming pieces[count])

theorem run_even (ran : Conversation.run (readers settings icap) streaming conversation pieces = .ok after)
    (direct : Direct conversation.reactor.client sock) (even : ∀ text ∈ conversation.sent, Http.countQuotes text % 2 = 0) :
    ∀ text ∈ after.sent, Http.countQuotes text % 2 = 0 := by
  induction pieces generalizing conversation with
  | nil =>
      cases ran
      exact even
  | cons piece pieces ih =>
      obtain ⟨middle, first, ran⟩ := bind_ok ran
      obtain ⟨direct, even⟩ := next_even first direct even
      exact ih ran direct even

theorem Orderly.whole (orderly : Orderly sock name asked texts texts.flatten conversation) :
    conversation.sent = texts := by
  obtain ⟨others, pending, split, came, part, _, _⟩ := orderly
  subst split
  rw [List.flatten_append, List.append_cancel_left_eq] at came
  obtain ⟨rfl, _⟩ | ⟨text, later, length, rfl, short, same⟩ := part
  · exact (List.append_nil _).symm
  · have shorter := congrArg List.length came
    rw [same, List.flatten_cons, List.length_append, List.length_take] at shorter
    omega

theorem Orderly.holds (orderly : Orderly sock name asked texts received conversation) :
    conversation.reactor.Holds sock := by
  obtain ⟨_, _, _, _, _, listening, _⟩ := orderly
  exact listening.holds

variable {reactor : Reactor (AnyReader ι)}

theorem Orderly.run_next (orderly : Orderly sock name asked texts (pieces.take count).flatten after)
    (ran : Conversation.run (readers settings icap) streaming conversation (pieces.take count) = .ok after)
    (bodyless : ∀ text ∈ texts, Bodyless text) (even : ∀ text ∈ texts, Http.countQuotes text % 2 = 0)
    (nonempty : ∀ piece ∈ pieces, piece ≠ []) (cut : pieces.flatten = texts.flatten) (within : count < pieces.length) :
    let before := (pieces.take count).flatten
    let received := (pieces.take (count + 1)).flatten
    ∃ next, Conversation.run (readers settings icap) streaming conversation (pieces.take (count + 1)) = .ok next ∧
      (Admits settings.httpMaxBuffer texts before.length received.length → Orderly sock name asked texts received next) ∧
      (¬ Admits settings.httpMaxBuffer texts before.length received.length →
        next.sent ≠ texts ∧ ¬ next.reactor.Holds sock) := by
  have grown : (pieces.take (count + 1)).flatten = (pieces.take count).flatten ++ pieces[count] := by
    rw [← List.take_append_getElem within, List.flatten_append, List.flatten_singleton]
  have comes : (pieces.take count).flatten ++ pieces[count] <+: texts.flatten := by
    rw [← grown, ← cut]
    exact ⟨(pieces.drop (count + 1)).flatten, by rw [← List.flatten_append, List.take_append_drop]⟩
  rw [run_take_succ within ran]
  simp only [grown]
  exact orderly.next streaming bodyless even (nonempty _ (List.getElem_mem within)) comes

variable (icap streaming) in
theorem Opened.run_orderly (opened : Opened reactor sock name)
    (bodyless : ∀ text ∈ texts, Bodyless text) (even : ∀ text ∈ texts, Http.countQuotes text % 2 = 0)
    (nonempty : ∀ piece ∈ pieces, piece ≠ []) (cut : pieces.flatten = texts.flatten) (within : count ≤ pieces.length)
    (admits : ∀ earlier < count, Admits settings.httpMaxBuffer texts (pieces.take earlier).flatten.length
      (pieces.take (earlier + 1)).flatten.length) :
    ∃ after, Conversation.run (readers settings icap) streaming ⟨reactor, []⟩ (pieces.take count) = .ok after ∧
      Orderly sock name reactor.asked texts (pieces.take count).flatten after := by
  induction count with
  | zero => exact ⟨_, rfl, opened.orderly bodyless⟩
  | succ count ih =>
      obtain ⟨middle, ran, orderly⟩ := ih (by omega) fun earlier before => admits earlier (by omega)
      obtain ⟨after, ran, kept, _⟩ := orderly.run_next ran bodyless even nonempty cut within
      exact ⟨after, ran, kept (admits count (Nat.lt_succ_self count))⟩

end Runs

/-- The requests that a client sends one behind the other are all decided just where their
quotes match, no piece completes two of them, and none grows too long before it is whole. -/
theorem pipeline_decided_iff {reactor : Reactor (AnyReader ι)} (opened : Opened reactor sock name)
    (streaming : Streaming sock) (bodyless : ∀ text ∈ texts, Bodyless text) (nonempty : ∀ piece ∈ pieces, piece ≠ [])
    (cut : pieces.flatten = texts.flatten) :
    Decided (readers settings icap) streaming reactor name texts pieces ↔
      (∀ text ∈ texts, Http.countQuotes text % 2 = 0) ∧ Spaced settings.httpMaxBuffer texts pieces := by
  constructor
  · intro given
    obtain ⟨⟨last, ran, rfl, _⟩, held⟩ := given
    have even := run_even ran opened.direct fun text member => nomatch member
    refine ⟨even, fun count => ?_⟩
    induction count using Nat.strong_induction_on with
    | _ count ih =>
        intro within
        obtain ⟨before, ran, orderly⟩ := opened.run_orderly icap streaming bodyless even nonempty cut within.le
          fun earlier before => ih earlier before (before.trans within)
        obtain ⟨after, ran, _, closes⟩ := orderly.run_next ran bodyless even nonempty cut within
        obtain ⟨other, again, holds⟩ := held (count + 1)
        cases ran.symm.trans again
        by_contra refused
        obtain ⟨unsent, gone⟩ := closes refused
        exact gone (holds unsent)
  · intro given
    obtain ⟨even, spaced⟩ := given
    have reaches : ∀ count ≤ pieces.length, ∃ after,
        Conversation.run (readers settings icap) streaming ⟨reactor, []⟩ (pieces.take count) = .ok after ∧
          Orderly sock name reactor.asked texts (pieces.take count).flatten after := fun count within =>
      opened.run_orderly icap streaming bodyless even nonempty cut within fun earlier before => spaced earlier (by omega)
    refine ⟨?_, fun count => ?_⟩
    · obtain ⟨after, ran, orderly⟩ := reaches pieces.length (Nat.le_refl _)
      rw [List.take_length] at ran orderly
      rw [cut] at orderly
      have sent := orderly.whole
      obtain ⟨_, _, _, _, _, _, passed⟩ := orderly
      exact ⟨after, ran, sent, by rw [passed, sent]⟩
    · obtain ⟨after, ran, orderly⟩ := reaches (min count pieces.length) (Nat.min_le_right ..)
      rw [List.take_eq_take_min]
      exact ⟨after, ran, fun _ => orderly.holds⟩

/-- Whatever connections there are, a page can be asked for. -/
theorem firstRequest_streams (content : ContentManager) (send : Send) (client : Sock) :
    ∃ after data buffered bufferChange, content.getContent ContentManager.anySite send client ContentManager.firstRequest =
      .ok (after, ⟨some (.stream data), .number 0, buffered, bufferChange⟩) := by
  have contacted : ∃ after sock new, content.prepare ContentManager.anySite client ContentManager.firstRequest =
      .ok ⟨after, some sock, new, some Reactor.request, some (.stream []), .number 0⟩ := by
    have port : ContentManager.portOf (ascii "80") = .ok 80 := rfl
    have address : ContentManager.isip ContentManager.anySite (ascii "10.0.0.1") = .ok true := rfl
    have length : Content.Remaining.decode (ascii "0") = .number 0 := rfl
    simp only [ContentManager.firstRequest, ContentManager.prepare, ContentManager.contact, bind, Except.bind, port,
      ContentManager.getDownloader, address, length]
    cases content.reuse client (ascii "10.0.0.1") 80 with
    | mk kept current =>
        cases current with
        | some sock => exact ⟨_, _, _, rfl⟩
        | none => exact ⟨_, _, _, rfl⟩
  obtain ⟨after, sock, new, prepared⟩ := contacted
  simp only [ContentManager.getContent, prepared, bind, Except.bind, ContentManager.conclude]
  cases new with
  | true => exact ⟨_, _, _, _, rfl⟩
  | false => exact ⟨_, _, _, _, rfl⟩

/-- Each request is for the same page. -/
def samePage : Streaming 0 where
  decide _ _ := (ContentManager.firstRequest, Reactor.calm)
  streams _ content := firstRequest_streams content Reactor.calm.request 0
  stays _ _ := by decide
  upload := .accepted 4

def connected : Reactor (AnyReader Unit) := ({} : Reactor (AnyReader Unit)).acceptConnection Reactor.plainReaders .proxy

theorem connected_opened : Opened connected 0 1 where
  accepted := ⟨.proxy, rfl⟩
  unserved := by decide
  watched := by decide
  unread := by decide
  unbuffered := by decide

def twice : List Str := [Reactor.request, Reactor.request]

theorem twice_bodyless : ∀ text ∈ twice, Bodyless text := by
  intro text member
  obtain rfl : text = Reactor.request := by simpa [twice] using member
  exact ⟨[ascii "GET / HTTP/1.1"], by decide, by decide, by decide⟩

theorem pipeline_decided_cut : Decided Reactor.plainReaders samePage connected 1 twice
    [Reactor.request ++ Reactor.request.take 5, Reactor.request.drop 5] :=
  (pipeline_decided_iff connected_opened samePage twice_bodyless (by decide) (by decide)).mpr ⟨by decide, by decide⟩

/-- The two requests come at once: the second one is not passed on. -/
theorem pipeline_closed : ¬ ∀ (settings : Settings) (icap : Readers Unit) (reactor : Reactor (AnyReader Unit)) (sock : Sock)
    (name : Nat) (streaming : Streaming sock) (texts pieces : List Str), Opened reactor sock name →
    (∀ text ∈ texts, Bodyless text) → (∀ piece ∈ pieces, piece ≠ []) → pieces.flatten = texts.flatten →
    Decided (readers settings icap) streaming reactor name texts pieces := by
  intro claimed
  have decided : Decided Reactor.plainReaders samePage connected 1 twice [Reactor.request ++ Reactor.request] :=
    claimed _ _ connected 0 1 samePage twice _ connected_opened twice_bodyless (by decide) (by decide)
  have once : (Conversation.run Reactor.plainReaders samePage ⟨connected, []⟩ [Reactor.request ++ Reactor.request]).toOption.map
      Conversation.sent = some [Reactor.request] := by decide +kernel
  obtain ⟨⟨after, ran, sent, _⟩, _⟩ := decided
  rw [ran] at once
  have both : some twice = some [Reactor.request] := by rw [← once, ← sent]; rfl
  exact absurd both (by decide)

end ExaProxy.Conversation
