import ExaProxy.Client.Chunked
import ExaProxy.Client.Readers

namespace ExaProxy.Client

open ExaProxy.Data ExaProxy.Http

/-- A connection whose reader is resumed with each of the values, until it is closed. -/
def Connection.run (maxBuffer : Nat) : List (Mode × Nat) → Connection → List Yielded × Connection
  | [], connection => ([], connection)
  | (mode, nbToSend) :: sent, connection =>
      let (yielded, after) := connection.resume maxBuffer mode nbToSend
      if yielded.goesOn then
        let (more, last) := after.run maxBuffer sent
        (yielded :: more, last)
      else ([yielded], after)

variable {connection after last : Connection} {yielded : Yielded} {more : List Yielded} {reader : Reader}
  {queue : List Recv} {bytes : Str} {sent : List (Mode × Nat)} {mode : Mode} {size nbToSend seek calls : Nat}

theorem run_nil (size : Nat) (connection : Connection) : connection.run size [] = ([], connection) := rfl

theorem run_cons (resumed : connection.resume size mode nbToSend = (yielded, after)) (opened : yielded.goesOn = true)
    (ran : after.run size sent = (more, last)) :
    connection.run size ((mode, nbToSend) :: sent) = (yielded :: more, last) := by
  rw [Connection.run, resumed]
  simp only [if_pos opened, ran]

theorem bytesOf_take_succ (queue : List Recv) (calls : Nat) :
    bytesOf (queue.take (calls + 1)) = bytesOf [queue.headD .wouldBlock] ++ bytesOf (queue.tail.take calls) := by
  cases queue with
  | nil => simp [bytesOf]
  | cons recv queue => simp [bytesOf]

/-- The reader while `nbToSend` bytes of a body are still to come. -/
def counting (nbToSend seek : Nat) : Reader := { mode := .transfer, nbToSend, seek }

/-- The reader when a body is behind it. -/
def handedOver (rBuffer : Str) : Reader := { mode := .newRequest, rBuffer }

/-- The reader when the bytes have come for a body. -/
def counted (nbToSend : Nat) (bytes : Str) : Reader :=
  if nbToSend ≤ bytes.length then handedOver (bytes.drop nbToSend) else counting (nbToSend - bytes.length) 0

theorem turn_counted (size : Nat) (filled : bytes ≠ []) (positive : 0 < nbToSend) :
    { mode := .transfer, rBuffer := bytes, nbToSend, seek : Reader }.turn size =
      (.content (bytes.take nbToSend), counted nbToSend bytes) := by
  have some : bytes.take (min bytes.length nbToSend) ≠ [] := by
    have length := List.length_pos_of_ne_nil filled
    simp only [ne_eq, List.take_eq_nil_iff, filled, or_false]
    omega
  simp only [Reader.turn, Reader.process, Reader.transfer, some, reduceCtorEq, if_false, ne_eq, not_false_eq_true,
    if_true, counted, handedOver, counting]
  by_cases whole : nbToSend ≤ bytes.length
  · simp [whole]
  · have short : bytes.length ≤ nbToSend := by omega
    have left : ¬ nbToSend - bytes.length = 0 := by omega
    simp [whole, short, left, List.take_of_length_le]

theorem resume_counting (size : Nat) (mode : Mode) (count : Nat) (healthy : Healthy queue) (positive : 0 < nbToSend) :
    (⟨counting nbToSend seek, queue⟩ : Connection).resume size mode count =
      if bytesOf [queue.headD .wouldBlock] = [] then (.nothing, ⟨counting nbToSend seek, queue.tail⟩)
      else (.content ((bytesOf [queue.headD .wouldBlock]).take nbToSend),
        ⟨counted nbToSend (bytesOf [queue.headD .wouldBlock]), queue.tail⟩) := by
  have receives : (counting nbToSend seek).receives = true := rfl
  have accepted : (counting nbToSend seek).accept mode count = counting nbToSend seek := rfl
  simp only [Connection.resume, accepted, Reader.resume, receives, if_true]
  cases queue with
  | nil => rfl
  | cons recv queue =>
      have fine := healthy recv List.mem_cons_self
      cases recv with
      | wouldBlock => rfl
      | error => exact absurd rfl fine.2
      | data bytes =>
          cases bytes with
          | nil => exact absurd rfl fine.1
          | cons byte bytes =>
              have turned : { mode := .transfer, rBuffer := byte :: bytes, nbToSend, seek : Reader }.turn size = _ :=
                turn_counted size (List.cons_ne_nil byte bytes) positive
              simp only [List.headD_cons, List.tail_cons, bytesOf, List.map_cons, List.map_nil, List.flatten_cons,
                List.flatten_nil, List.append_nil, reduceCtorEq, if_false]
              simp only [counting, List.nil_append, turned]

/-- What the reader has yielded for `nbToSend` bytes of a body when `arrived` has come for it,
and how it goes on. -/
structure Counted (size nbToSend : Nat) (arrived : Str) (yields : List Yielded) (after : Connection) : Prop where
  only : ∀ yielded ∈ yields, yielded = .nothing ∨ ∃ data, yielded = .content data
  sent : contents yields = arrived.take nbToSend
  kept : after.reader.rBuffer = arrived.drop nbToSend
  parsed : nbToSend ≤ arrived.length → ∀ mode count, after.resume size mode count =
    (((waiting (arrived.drop nbToSend) 0).turn size).1, ⟨((waiting (arrived.drop nbToSend) 0).turn size).2, after.queue⟩)

theorem resume_handedOver (rest : Str) (queue : List Recv) (size : Nat) (mode : Mode) (count : Nat) :
    (⟨handedOver rest, queue⟩ : Connection).resume size mode count =
      (((waiting rest 0).turn size).1, ⟨((waiting rest 0).turn size).2, queue⟩) := rfl

theorem Counted.whole (size nbToSend : Nat) (bytes : Str) (queue : List Recv) :
    Counted size nbToSend bytes [.content (bytes.take nbToSend)] ⟨handedOver (bytes.drop nbToSend), queue⟩ where
  only := by simp
  sent := by simp [contents]
  kept := rfl
  parsed := fun _ => resume_handedOver (bytes.drop nbToSend) queue size

theorem Counted.nil (positive : 0 < nbToSend) (seek : Nat) (queue : List Recv) :
    Counted size nbToSend [] [] ⟨counting nbToSend seek, queue⟩ where
  only := nofun
  sent := by simp [contents]
  kept := by simp [counting]
  parsed := fun enough => by
    rw [List.length_nil] at enough
    omega

theorem Counted.nothing {yields : List Yielded} (counted : Counted size nbToSend bytes yields after) :
    Counted size nbToSend bytes (.nothing :: yields) after where
  only := by simpa using counted.only
  sent := by rw [contents, counted.sent] <;> simp
  kept := counted.kept
  parsed := counted.parsed

theorem Counted.content {arrived : Str} {yields : List Yielded} (short : bytes.length < nbToSend)
    (counted : Counted size (nbToSend - bytes.length) arrived yields after) :
    Counted size nbToSend (bytes ++ arrived) (.content (bytes.take nbToSend) :: yields) after where
  only := by simpa using counted.only
  sent := by
    rw [contents, counted.sent, List.take_append, List.take_of_length_le short.le]
  kept := by rw [counted.kept, List.drop_append, List.drop_of_length_le short.le, List.nil_append]
  parsed := by
    intro enough
    rw [List.length_append] at enough
    rw [List.drop_append, List.drop_of_length_le short.le, List.nil_append]
    exact counted.parsed (by omega)

/-- What becomes of a body when the reader is resumed with values of `sent`, each time after a
`recv`, and has dealt with `before` already. -/
def Relays (size nbToSend : Nat) (before : Str) (already : List Yielded) (connection : Connection)
    (sent : List (Mode × Nat)) : Prop :=
  ∃ body later yields after, sent = body ++ later ∧
    let arrived := before ++ bytesOf (connection.queue.take body.length)
    connection.run size body = (yields, ⟨after, connection.queue.drop body.length⟩) ∧
      Counted size nbToSend arrived (already ++ yields) ⟨after, connection.queue.drop body.length⟩ ∧
      (later = [] ∨ nbToSend ≤ arrived.length)

theorem relays_counted (enough : ¬ nbToSend ≤ bytes.length →
      Relays size (nbToSend - bytes.length) [] [] ⟨counting (nbToSend - bytes.length) 0, queue⟩ sent) :
    Relays size nbToSend bytes [.content (bytes.take nbToSend)] ⟨counted nbToSend bytes, queue⟩ sent := by
  have none : bytesOf [] = [] := rfl
  rw [counted]
  split
  · next whole =>
      refine ⟨[], sent, [], _, rfl, run_nil size _, ?_⟩
      rw [List.length_nil, List.take_zero, none, List.append_nil, List.append_nil]
      exact ⟨.whole size nbToSend bytes queue, .inr whole⟩
  · next short =>
      obtain ⟨body, later, yields, after, split, ran, counted, ends⟩ := enough short
      refine ⟨body, later, yields, after, split, ran, counted.content (by omega), ends.imp_right fun all => ?_⟩
      rw [List.nil_append] at all
      rw [List.length_append]
      omega

theorem Relays.cons {before : Str} {already : List Yielded}
    (resumed : (⟨reader, queue⟩ : Connection).resume size mode nbToSend = (yielded, after)) (opened : yielded.goesOn = true)
    (consumed : after.queue = queue.tail) {total : Nat}
    (relays : Relays size total (before ++ bytesOf [queue.headD .wouldBlock]) (already ++ [yielded]) after sent) :
    Relays size total before already ⟨reader, queue⟩ ((mode, nbToSend) :: sent) := by
  obtain ⟨body, later, yields, last, rfl, ran, counted, ends⟩ := relays
  refine ⟨(mode, nbToSend) :: body, later, yielded :: yields, last, rfl, ?_⟩
  rw [List.length_cons, bytesOf_take_succ, ← List.drop_tail, ← List.append_assoc, ← consumed]
  refine ⟨run_cons resumed opened ran, ?_, ends⟩
  rwa [List.append_assoc already, List.singleton_append] at counted

theorem relays_counting (size : Nat) (sent : List (Mode × Nat)) (seek : Nat) (healthy : Healthy queue)
    (positive : 0 < nbToSend) : Relays size nbToSend [] [] ⟨counting nbToSend seek, queue⟩ sent := by
  induction sent generalizing queue nbToSend seek with
  | nil => exact ⟨[], [], [], counting nbToSend seek, rfl, rfl, .nil positive seek queue, .inl rfl⟩
  | cons value sent ih =>
      obtain ⟨mode, count⟩ := value
      have resumed : (⟨counting nbToSend seek, queue⟩ : Connection).resume size mode count = _ :=
        resume_counting size mode count healthy positive
      have healthy' : Healthy queue.tail := fun recv member => healthy recv (List.mem_of_mem_tail member)
      by_cases empty : bytesOf [queue.headD .wouldBlock] = []
      · rw [if_pos empty] at resumed
        refine .cons resumed rfl rfl ?_
        obtain ⟨body, later, yields, after, split, ran, counted, ends⟩ := ih seek healthy' positive
        rw [empty]
        exact ⟨body, later, yields, after, split, ran, counted.nothing, ends⟩
      · rw [if_neg empty] at resumed
        refine .cons resumed rfl rfl (relays_counted fun short => ih 0 healthy' (by omega))

/-- When the reader is resumed for a body of `nbToSend` bytes, `recv` is called only where
nothing is in the buffer, the bytes of the body are sent on as they are there, no others are,
and the next request is read from what is behind them. -/
theorem transfer_relays {reader : Reader} {queue : List Recv} {nbToSend : Nat} (size : Nat)
    (awaiting : reader.awaiting = true) (positive : 0 < nbToSend) (healthy : Healthy queue)
    (sent : List (Mode × Nat)) : ∃ body later yields after, sent = body ++ later ∧
      let calls := body.length + if reader.rBuffer = [] then 1 else 0
      let arrived := reader.rBuffer ++ bytesOf (queue.take calls)
      (⟨reader, queue⟩ : Connection).run size ((.transfer, nbToSend) :: body) = (yields, ⟨after, queue.drop calls⟩) ∧
        Counted size nbToSend arrived yields ⟨after, queue.drop calls⟩ ∧
        (later = [] ∨ nbToSend ≤ arrived.length) := by
  have accepted : reader.accept .transfer nbToSend =
      { mode := .transfer, rBuffer := reader.rBuffer, nbToSend, seek := reader.seek } := by
    rw [Reader.accept, if_pos awaiting]
  by_cases empty : reader.rBuffer = []
  · have same : (⟨reader, queue⟩ : Connection).resume size .transfer nbToSend =
        (⟨counting nbToSend reader.seek, queue⟩ : Connection).resume size .transfer nbToSend := by
      have started : reader.accept .transfer nbToSend = (counting nbToSend reader.seek).accept .transfer nbToSend := by
        rw [accepted, empty]
        rfl
      simp only [Connection.resume, Reader.resume, started]
    obtain ⟨body, later, yields, after, split, ran, counted, ends⟩ :=
      relays_counting size ((.transfer, nbToSend) :: sent) reader.seek healthy positive
    rw [List.nil_append] at ends counted
    cases body with
    | nil =>
        obtain rfl | enough := ends
        · cases split
        · exact absurd enough (by simpa [bytesOf] using positive.ne')
    | cons value body =>
        cases split
        refine ⟨body, later, yields, after, rfl, ?_⟩
        rw [if_pos empty, empty]
        rw [Connection.run, ← same] at ran
        exact ⟨ran, counted, ends⟩
  · have receives : (reader.accept .transfer nbToSend).receives = false := by
      simp [accepted, Reader.receives, empty]
    have resumed : (⟨reader, queue⟩ : Connection).resume size .transfer nbToSend =
        (.content (reader.rBuffer.take nbToSend), ⟨counted nbToSend reader.rBuffer, queue⟩) := by
      simp only [Connection.resume, Reader.resume, receives, Bool.false_eq_true, if_false]
      simp only [accepted, reduceCtorEq, if_false, turn_counted size empty positive]
    have relays : Relays size nbToSend reader.rBuffer [.content (reader.rBuffer.take nbToSend)]
        ⟨counted nbToSend reader.rBuffer, queue⟩ sent :=
      relays_counted fun short => relays_counting size sent 0 healthy (Nat.sub_pos_of_lt (Nat.lt_of_not_le short))
    obtain ⟨body, later, yields, after, split, ran, counted, ends⟩ := relays
    refine ⟨body, later, .content (reader.rBuffer.take nbToSend) :: yields, after, split, ?_⟩
    rw [if_neg empty, Nat.add_zero]
    exact ⟨run_cons resumed rfl ran, counted, ends⟩

/-- A body of which one byte came with the request. -/
theorem transfer_relays_split : ∃ body later yields after, [(Mode.newRequest, 0), (.newRequest, 0)] = body ++ later ∧
    let queue := [.wouldBlock, .data (ascii "bcGET")]
    let calls := body.length + if (answered (ascii "a")).rBuffer = [] then 1 else 0
    let arrived := (answered (ascii "a")).rBuffer ++ bytesOf (queue.take calls)
    (⟨answered (ascii "a"), queue⟩ : Connection).run 0 ((.transfer, 3) :: body) = (yields, ⟨after, queue.drop calls⟩) ∧
      Counted 0 3 arrived yields ⟨after, queue.drop calls⟩ ∧ (later = [] ∨ 3 ≤ arrived.length) :=
  transfer_relays 0 rfl (by decide) (by decide) [(.newRequest, 0), (.newRequest, 0)]

/-! A tunnel. -/

/-- Each time the reader yields, all that came behind the request has been sent on: what is
not, is still to be received. -/
def Tunnels (size nbToSend : Nat) (connection : Connection) : Prop :=
  ∀ sent, let (yields, after) := connection.run size ((.passthrough, nbToSend) :: sent)
    contents yields ++ bytesOf after.queue = connection.reader.rBuffer ++ bytesOf connection.queue

/-- The reader of a tunnel, with what it has not sent on. -/
def tunnel (rBuffer : Str) (nbToSend seek : Nat) : Reader := { mode := .passthrough, rBuffer, nbToSend, seek }

/-- What the reader of a tunnel does with what `recv` says. -/
def tunnelled (reader : Reader) : Recv → Yielded × Reader
  | .data [] | .error => (.closed, reader)
  | .data bytes => (.content (reader.rBuffer ++ bytes), tunnel [] 0 0)
  | .wouldBlock => (.nothing, reader)

theorem resume_tunnel (rBuffer : Str) (seek : Nat) (queue : List Recv) (count : Nat) :
    (⟨tunnel rBuffer nbToSend seek, queue⟩ : Connection).resume size mode count =
      ((tunnelled (tunnel rBuffer nbToSend seek) (queue.headD .wouldBlock)).1,
        ⟨(tunnelled (tunnel rBuffer nbToSend seek) (queue.headD .wouldBlock)).2, queue.tail⟩) := by
  have receives : (tunnel rBuffer nbToSend seek).receives = true := rfl
  have accepted : (tunnel rBuffer nbToSend seek).accept mode count = tunnel rBuffer nbToSend seek := rfl
  simp only [Connection.resume, accepted, Reader.resume, receives, if_true]
  cases queue.headD .wouldBlock with
  | wouldBlock | error => rfl
  | data bytes =>
      cases bytes with
      | nil => rfl
      | cons byte bytes => simp [tunnelled, tunnel, Reader.turn, Reader.process]

theorem bytesOf_headD (queue : List Recv) : bytesOf queue = bytesOf [queue.headD .wouldBlock] ++ bytesOf queue.tail := by
  cases queue with
  | nil => rfl
  | cons recv queue => simp [bytesOf]

theorem run_tunnel (size : Nat) (sent : List (Mode × Nat)) (nbToSend seek : Nat) (queue : List Recv) :
    let (yields, after) := (⟨tunnel [] nbToSend seek, queue⟩ : Connection).run size sent
    contents yields ++ bytesOf after.queue = bytesOf queue := by
  induction sent generalizing nbToSend seek queue with
  | nil => rfl
  | cons value sent ih =>
      rw [Connection.run, resume_tunnel, bytesOf_headD queue]
      cases queue.headD .wouldBlock with
      | wouldBlock => exact ih nbToSend seek queue.tail
      | error => rfl
      | data bytes =>
          cases bytes with
          | nil => rfl
          | cons byte bytes =>
              have later := ih 0 0 queue.tail
              simp only [tunnelled, Yielded.goesOn, if_true, contents, List.append_assoc] at later ⊢
              rw [later]
              simp [tunnel, bytesOf]

/-- A tunnel sends on all that it has at each time if and only if nothing came with the request
or `recv` returns more at once. -/
theorem tunnels_iff {reader : Reader} {queue : List Recv} (size nbToSend : Nat) (awaiting : reader.awaiting = true) :
    Tunnels size nbToSend ⟨reader, queue⟩ ↔
      reader.rBuffer = [] ∨ ∃ bytes, bytes ≠ [] ∧ queue.head? = some (.data bytes) := by
  have started : ∀ sent, (⟨reader, queue⟩ : Connection).run size ((.passthrough, nbToSend) :: sent) =
      (⟨tunnel reader.rBuffer nbToSend reader.seek, queue⟩ : Connection).run size ((.passthrough, nbToSend) :: sent) := by
    have accepted : reader.accept .passthrough nbToSend =
        (tunnel reader.rBuffer nbToSend reader.seek).accept .passthrough nbToSend := by
      rw [Reader.accept, if_pos awaiting]
      rfl
    intro sent
    simp only [Connection.run, Connection.resume, Reader.resume, accepted]
  simp only [Tunnels, started]
  constructor
  · intro all
    have first := all []
    rw [Connection.run, resume_tunnel, bytesOf_headD queue] at first
    cases queue with
    | nil => exact .inl (List.append_eq_nil_iff.mp first.symm).1
    | cons recv queue =>
        cases recv with
        | wouldBlock | error => exact .inl (List.self_eq_append_left.mp first)
        | data bytes =>
            cases bytes with
            | nil => exact .inl (List.self_eq_append_left.mp first)
            | cons byte bytes => exact .inr ⟨byte :: bytes, List.cons_ne_nil byte bytes, rfl⟩
  · rintro (empty | ⟨bytes, filled, first⟩) sent
    · rw [empty]
      exact run_tunnel size ((.passthrough, nbToSend) :: sent) nbToSend reader.seek queue
    · cases queue with
      | nil => cases first
      | cons recv queue =>
          cases first
          cases bytes with
          | nil => exact absurd rfl filled
          | cons byte bytes =>
              have later := run_tunnel size sent 0 0 queue
              rw [Connection.run, resume_tunnel]
              simp only [List.headD_cons, List.tail_cons, tunnelled, Yielded.goesOn, if_true, contents,
                List.append_assoc] at later ⊢
              rw [later]
              simp [tunnel, bytesOf]

/-- Bytes that came with a CONNECT request, whose answer is still to come. -/
theorem tunnels_held_back : ¬ ∀ size nbToSend reader queue, reader.awaiting = true →
    Tunnels size nbToSend ⟨reader, queue⟩ := by
  intro tunnels
  have all := tunnels 0 0 (answered (ascii "hello")) [.wouldBlock] rfl []
  exact absurd all (by decide)

theorem tunnels_iff_early : Tunnels 0 0 ⟨answered (ascii "hello"), [.data (ascii "x")]⟩ ↔
    (answered (ascii "hello")).rBuffer = [] ∨ ∃ bytes, bytes ≠ [] ∧ [Recv.data (ascii "x")].head? = some (.data bytes) :=
  tunnels_iff 0 0 rfl

/-- `TLSClient` sends on at once what came with the request. -/
theorem TlsReader.resume_buffered {client : TlsReader} (settings : Settings) (recvs : List Recv)
    (awaiting : client.awaiting = true) (filled : client.rBuffer ≠ []) :
    (client.accept .passthrough).resume settings recvs =
      (.content client.rBuffer, { client with
        mode := .passthrough
        awaiting := false
        rBuffer := [] }) := by
  have accepted : client.accept .passthrough = { client with
      mode := .passthrough
      awaiting := false } := by
    rw [TlsReader.accept, if_pos awaiting]
    rfl
  rw [accepted, TlsReader.resume.eq_def]
  simp only [filled, ne_eq, not_false_eq_true, and_self, if_true, TlsReader.turn]

end ExaProxy.Client
