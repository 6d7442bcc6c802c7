import ExaProxy.Client.Framing

namespace ExaProxy.Client

open ExaProxy.Data ExaProxy.Http

/-! The relay of a chunked body.  The reader sends on what it knows to be part of
the body only when more has come, and it leaves the mode for bodies without having
sent the end. -/

/-- A chunk that `checkChunkSize` takes, without extensions. -/
structure Chunk where
  size : Str
  data : Str
  hex : ishex size = true
  announced : hexValue size = data.length
  positive : 1 ≤ data.length
  small : data.length ≤ 0x100000

def Chunk.encode (chunk : Chunk) : Str := chunk.size ++ crlf ++ chunk.data ++ crlf

def encodeAll (chunks : List Chunk) : Str := (chunks.map Chunk.encode).flatten

def body (chunks : List Chunk) : Str := encodeAll chunks ++ ascii "0\r\n\r\n"

/-- What was received from the socket in these results. -/
def bytesOf (queue : List Recv) : Str :=
  (queue.map fun recv => match recv with | .data bytes => bytes | _ => []).flatten

/-- What the reader yields when it is given the mode `chunked` and is resumed
`count` times after that. -/
def relay (size count : Nat) (connection : Connection) : List Yielded :=
  match connection.resume size .chunked 0 with
  | (.closed, _) => [.closed]
  | (.raised error, _) => [.raised error]
  | (yielded, after) => yielded :: after.drive size count

/-- The contents that are yielded before the next request. -/
def contents : List Yielded → Str
  | [] => []
  | .request _ :: _ => []
  | .content data :: more => data ++ contents more
  | _ :: more => contents more

/-- The body was sent on as it is, and the next request is read from what follows it. -/
def Relayed (size : Nat) (chunks : List Chunk) (trailing : Str) (connection : Connection) : Prop :=
  ∃ count, contents (relay size count connection) = body chunks ∧
    ∀ text ∈ (requestsOf (relay size count connection)).head?, text <:+: trailing

variable {chunks : List Chunk} {trailing sent buffer header rest : Str} {reader : Reader}
  {queue : List Recv} {size total : Nat}

theorem encodeAll_append (first more : List Chunk) :
    encodeAll (first ++ more) = encodeAll first ++ encodeAll more := by
  simp only [encodeAll, List.map_append, List.flatten_append]

theorem splitLine_append (line : 10 ∉ header) : splitLine (header ++ 10 :: rest) = (header, rest) := by
  have before : ∀ byte ∈ header, decide (byte ≠ 10) = true := fun byte member =>
    decide_eq_true fun same => line (same ▸ member)
  simp only [splitLine, List.takeWhile_append_of_pos before, List.dropWhile_append_of_pos before]
  simp

theorem line_of_prefix (line : 10 ∉ header) (seen : 10 ∈ buffer)
    (begun : buffer <+: header ++ 10 :: rest) :
    ∃ more, buffer = header ++ 10 :: more ∧ more <+: rest := by
  induction header generalizing buffer with
  | nil =>
      cases buffer with
      | nil => cases seen
      | cons byte more =>
          obtain ⟨rfl, shorter⟩ := List.cons_prefix_cons.mp begun
          exact ⟨more, rfl, shorter⟩
  | cons first header ih =>
      cases buffer with
      | nil => cases seen
      | cons byte more =>
          obtain ⟨rfl, shorter⟩ := List.cons_prefix_cons.mp begun
          have later : 10 ∈ more := by
            rcases List.mem_cons.mp seen with here | later
            · exact absurd (here ▸ List.mem_cons_self) line
            · exact later
          obtain ⟨tail, rfl, begun'⟩ :=
            ih (fun member => line (List.mem_cons_of_mem _ member)) later shorter
          exact ⟨tail, rfl, begun'⟩

theorem hex_plain {byte : UInt8} (digit : isHexDigit byte = true) : byte ≠ 10 ∧ byte ≠ 59 := by
  constructor <;> rintro rfl <;> exact absurd digit (by decide)

theorem Chunk.digits (chunk : Chunk) : ∀ byte ∈ chunk.size, isHexDigit byte = true := by
  have hex := chunk.hex
  simp only [ishex, Bool.and_eq_true, List.all_eq_true] at hex
  exact hex.2

/-- No line feed is in a chunk header. -/
theorem Chunk.line (chunk : Chunk) : 10 ∉ chunk.size ++ [13] := by
  intro member
  rcases List.mem_append.mp member with digit | carriage
  · exact (hex_plain (chunk.digits 10 digit)).1 rfl
  · exact absurd carriage (by decide)

theorem chunkHeader_size (chunk : Chunk) :
    chunkHeader (chunk.size ++ [13]) = some (chunk.data.length, 2) := by
  have plain : chunk.size.takeWhile (· ≠ 59) = chunk.size :=
    List.takeWhile_eq_self_iff.mpr fun byte member =>
      decide_eq_true (hex_plain (chunk.digits byte member)).2
  have taken : ¬ (ishex chunk.size = false ∨ chunk.data.length > 0x100000) := by
    rw [chunk.hex]
    have small := chunk.small
    simp only [Bool.true_eq_false, false_or]
    omega
  simp only [chunkHeader, List.getLast?_concat, if_true, List.dropLast_concat, plain,
    chunk.announced, taken, if_false]

theorem Chunk.encode_length (chunk : Chunk) :
    chunk.encode.length = chunk.size.length + 2 + chunk.data.length + 2 := by
  simp only [Chunk.encode, crlf, List.length_append, List.length_cons, List.length_nil]

/-- What `checkChunkSize` can say about a prefix of the rest of a body: nothing
(it gives up), the end of one of the chunks, or the end of the last size. -/
inductive Measured (chunks : List Chunk) (total : Nat) (buffer : Str) : Bool × Option Nat → Prop
  | invalid : Measured chunks total buffer (true, none)
  | nothing : Measured chunks total buffer (true, some 0)
  | chunks (done more : List Chunk) (split : chunks = done ++ more) :
      Measured chunks total buffer (true, some (total + (encodeAll done).length))
  | last (whole : (encodeAll chunks).length + 3 ≤ buffer.length) :
      Measured chunks total buffer (false, some (total + (encodeAll chunks).length + 3))

theorem Measured.cons {chunk : Chunk} {later : Str} {answer : Bool × Option Nat}
    (longer : 0 < later.length → later.length + chunk.encode.length ≤ buffer.length)
    (measured : Measured chunks (total + chunk.encode.length) later answer) :
    Measured (chunk :: chunks) total buffer answer := by
  have whole : ∀ more, (encodeAll (chunk :: more)).length =
      chunk.encode.length + (encodeAll more).length := by
    intro more
    simp only [encodeAll, List.map_cons, List.flatten_cons, List.length_append]
  cases measured with
  | invalid => exact .invalid
  | nothing => exact .nothing
  | chunks done more split =>
      have ends : Measured (chunk :: chunks) total buffer
          (true, some (total + (encodeAll (chunk :: done)).length)) :=
        .chunks (chunk :: done) more (congrArg (chunk :: ·) split)
      rw [whole, ← Nat.add_assoc] at ends
      exact ends
  | last enough =>
      have ends : Measured (chunk :: chunks) total buffer
          (false, some (total + (encodeAll (chunk :: chunks)).length + 3)) := by
        refine .last ?_
        rw [whole]
        have longer := longer (by omega)
        omega
      rw [whole, ← Nat.add_assoc] at ends
      exact ends

theorem checkChunkSize_blind (line : 10 ∉ buffer) (total : Nat) :
    Measured chunks total buffer (checkChunkSizeFrom total buffer) := by
  rw [checkChunkSizeFrom]
  split
  · exact .chunks [] chunks rfl
  · split
    · exact .invalid
    · exact .nothing

theorem checkChunkSize_line (line : 10 ∉ header) (total : Nat) :
    checkChunkSizeFrom total (header ++ 10 :: rest) =
      match chunkHeader header with
      | none => (true, none)
      | some (lenChunk, lenEol) =>
          if lenChunk = 0 then (false, some (total + (header.length + 1)))
          else checkChunkSizeFrom (total + (lenChunk + lenEol + (header.length + 1)))
            (rest.drop (lenChunk + lenEol)) := by
  rewrite [checkChunkSizeFrom, if_neg (by simp), if_neg (by simp), splitLine_append line]
  rfl

theorem checkChunkSize_measured (begun : buffer <+: body chunks ++ trailing) (total : Nat) :
    Measured chunks total buffer (checkChunkSizeFrom total buffer) := by
  by_cases blind : 10 ∉ buffer
  · exact checkChunkSize_blind blind total
  · have line := not_not.mp blind
    induction chunks generalizing buffer total with
    | nil =>
        have last : body [] ++ trailing = [48, 13] ++ 10 :: (crlf ++ trailing) := rfl
        rw [last] at begun
        obtain ⟨more, rfl, _⟩ := line_of_prefix (by decide) line begun
        have header : chunkHeader [48, 13] = some (0, 2) := by decide
        rw [checkChunkSize_line (by decide), header]
        exact .last (by simp [encodeAll])
    | cons chunk chunks ih =>
        have first : body (chunk :: chunks) ++ trailing = (chunk.size ++ [13]) ++
            10 :: (chunk.data ++ crlf ++ (body chunks ++ trailing)) := by
          simp only [body, encodeAll, List.map_cons, List.flatten_cons, Chunk.encode, crlf,
            List.append_assoc, List.cons_append, List.nil_append]
        rw [first] at begun
        obtain ⟨more, rfl, shorter⟩ := line_of_prefix chunk.line line begun
        have positive := chunk.positive
        have encode := chunk.encode_length
        rw [checkChunkSize_line chunk.line, chunkHeader_size]
        simp only [List.length_append, List.length_singleton]
        rw [if_neg (by omega)]
        have next : more.drop (chunk.data.length + 2) <+: body chunks ++ trailing := by
          have past : (chunk.data ++ crlf).length = chunk.data.length + 2 := by simp [crlf]
          rw [List.prefix_iff_eq_take.mp shorter, List.drop_take, ← past, List.drop_left]
          exact List.take_prefix _ _
        have longer : 0 < (more.drop (chunk.data.length + 2)).length →
            (more.drop (chunk.data.length + 2)).length + chunk.encode.length ≤
              (chunk.size ++ [13] ++ 10 :: more).length := by
          simp only [List.length_drop, List.length_append, List.length_cons]
          omega
        have size : total + (chunk.data.length + 2 + (chunk.size.length + 1 + 1)) =
            total + chunk.encode.length := by omega
        rw [size]
        refine .cons longer ?_
        by_cases blind : 10 ∉ more.drop (chunk.data.length + 2)
        · exact checkChunkSize_blind blind _
        · exact ih next _ blind (not_not.mp blind)

/-- Where the reader is in the body, when `sent` was yielded and the socket still
has what is in the queue. -/
inductive Stage (chunks : List Chunk) (trailing sent : Str) (reader : Reader)
    (queue : List Recv) : Prop
  /-- The chunks `done` have been looked at. -/
  | chunks (done more : List Chunk) (split : chunks = done ++ more)
      (mode : reader.mode = .chunked)
      (seen : sent.length + reader.nbToSend = (encodeAll done).length)
      (whole : sent ++ reader.rBuffer ++ bytesOf queue = body chunks ++ trailing)
  /-- The size of the last chunk has been looked at, and is still in the buffer. -/
  | ending (mode : reader.mode = .endChunk) (held : 3 ≤ reader.nbToSend)
      (within : reader.nbToSend ≤ reader.rBuffer.length)
      (seen : sent.length + reader.nbToSend + 2 = (body chunks).length)
      (whole : sent ++ reader.rBuffer ++ bytesOf queue = body chunks ++ trailing)
  /-- The reader has left the body. -/
  | left (mode : reader.mode = .newRequest ∨ reader.mode = .http)
      (short : sent.length < (body chunks).length)

/-- What the socket can do while the client stays connected. -/
def Healthy (queue : List Recv) : Prop := ∀ recv ∈ queue, recv ≠ .data [] ∧ recv ≠ .error

instance (queue : List Recv) : Decidable (Healthy queue) :=
  inferInstanceAs (Decidable (∀ recv ∈ queue, _ ∧ _))

theorem body_length (chunks : List Chunk) : (body chunks).length = (encodeAll chunks).length + 5 := by
  rw [body, List.length_append]
  rfl

theorem Stage.short (stage : Stage chunks trailing sent reader queue) :
    sent.length < (body chunks).length := by
  cases stage with
  | chunks done more split mode seen whole =>
      have total := congrArg List.length (split ▸ encodeAll_append done more)
      rw [List.length_append] at total
      rw [body_length, total]
      omega
  | ending mode held within seen whole => omega
  | left mode short => exact short

theorem body_append (done more : List Chunk) : body (done ++ more) = encodeAll done ++ body more := by
  rw [body, body, encodeAll_append, List.append_assoc]

/-- The buffer behind the chunks that were looked at is a prefix of the rest. -/
theorem rest_prefix {done more : List Chunk}
    (seen : sent.length + reader.nbToSend = (encodeAll done).length)
    (within : reader.nbToSend ≤ reader.rBuffer.length)
    (whole : sent ++ reader.rBuffer ++ bytesOf queue = body (done ++ more) ++ trailing) :
    reader.rBuffer.drop reader.nbToSend ++ bytesOf queue = body more ++ trailing := by
  have left : (sent ++ reader.rBuffer ++ bytesOf queue).drop (sent.length + reader.nbToSend) =
      reader.rBuffer.drop reader.nbToSend ++ bytesOf queue := by
    rw [← List.drop_drop, List.append_assoc, List.drop_left,
      List.drop_append_of_le_length within]
  rw [← left, whole, seen, body_append, List.append_assoc, List.drop_left]

theorem chunked_stage {done more : List Chunk} (split : chunks = done ++ more)
    (mode : reader.mode = .chunked)
    (seen : sent.length + reader.nbToSend = (encodeAll done).length)
    (whole : sent ++ reader.rBuffer ++ bytesOf queue = body chunks ++ trailing) :
    ∀ data ∈ reader.chunked.1, Stage chunks trailing (sent ++ data) reader.chunked.2 queue := by
  intro data given
  by_cases short : reader.rBuffer.length < reader.nbToSend
  · have nothing : checkChunkSizeFrom 0 [] = (true, some 0) := by rw [checkChunkSizeFrom, if_pos rfl]
    have drained : reader.chunked = (some reader.rBuffer, { reader with
        rBuffer := [], nbToSend := reader.nbToSend - reader.rBuffer.length, seek := 0 }) := by
      simp only [Reader.chunked, checkChunkSize, Nat.min_eq_left (Nat.le_of_lt short),
        List.drop_length, List.drop_nil, nothing, List.take_length]
      rfl
    rw [drained] at given ⊢
    cases given
    refine .chunks done more split mode ?_ ?_
    · simp only [List.length_append]
      omega
    · simpa using whole
  · have within := Nat.le_of_not_lt short
    subst split
    have rest := rest_prefix seen within whole
    have measured := checkChunkSize_measured ⟨_, rest⟩ 0
    have answer : reader.chunked =
        ((checkChunkSizeFrom 0 (reader.rBuffer.drop reader.nbToSend)).2.map fun _ =>
            reader.rBuffer.take reader.nbToSend, { reader with
          rBuffer := reader.rBuffer.drop reader.nbToSend
          nbToSend := (checkChunkSizeFrom 0 (reader.rBuffer.drop reader.nbToSend)).2.getD 0
          mode := if (checkChunkSizeFrom 0 (reader.rBuffer.drop reader.nbToSend)).1 then .chunked
            else if (checkChunkSizeFrom 0 (reader.rBuffer.drop reader.nbToSend)).2.getD 0 > 0
              then .endChunk else .newRequest
          seek := 0 }) := by
      simp only [Reader.chunked, checkChunkSize, Nat.min_eq_right within, Nat.sub_self,
        List.drop_zero, Nat.zero_add, mode]
    have sent_on : (sent ++ reader.rBuffer.take reader.nbToSend).length =
        (encodeAll done).length := by
      rw [List.length_append, List.length_take, Nat.min_eq_left within, seen]
    have kept : sent ++ reader.rBuffer.take reader.nbToSend ++
        reader.rBuffer.drop reader.nbToSend ++ bytesOf queue = body (done ++ more) ++ trailing := by
      rw [List.append_assoc sent, List.take_append_drop]
      exact whole
    rw [answer] at given ⊢
    generalize checkChunkSizeFrom 0 (reader.rBuffer.drop reader.nbToSend) = result at measured given ⊢
    cases measured with
    | invalid => cases given
    | nothing =>
        cases given
        exact .chunks done more rfl rfl sent_on kept
    | chunks now later split =>
        cases given
        have count : (sent ++ reader.rBuffer.take reader.nbToSend).length +
            (0 + (encodeAll now).length) = (encodeAll (done ++ now)).length := by
          have joined := congrArg List.length (encodeAll_append done now)
          rw [List.length_append] at joined
          omega
        exact .chunks (done ++ now) later (by rw [split, List.append_assoc]) rfl count kept
    | last enough =>
        cases given
        have count : (sent ++ reader.rBuffer.take reader.nbToSend).length +
            (0 + (encodeAll more).length + 3) + 2 = (body (done ++ more)).length := by
          have joined := congrArg List.length (body_append done more)
          have tail := body_length more
          rw [List.length_append] at joined
          omega
        have held : 3 ≤ 0 + (encodeAll more).length + 3 := by omega
        have within' : 0 + (encodeAll more).length + 3 ≤
            (reader.rBuffer.drop reader.nbToSend).length := by omega
        refine .ending ?_ held within' count kept
        show (if 0 + (encodeAll more).length + 3 > 0 then Mode.endChunk else Mode.newRequest) = _
        exact if_pos (by omega)

/-- Where a turn leaves the reader, if it yields no request and goes on. -/
def Advances (chunks : List Chunk) (trailing sent : Str) (queue : List Recv) :
    Yielded × Reader → Prop
  | (.content data, after) =>
      Stage chunks trailing (sent ++ data) after queue ∧ after.awaiting = false
  | (.nothing, after) => Stage chunks trailing sent after queue ∧ after.awaiting = false
  | (.request _, _) | (.closed, _) | (.raised _, _) => True

/-- A line feed that has not come with its carriage return is not waited for. -/
theorem endChunk_stage (within : reader.nbToSend ≤ reader.rBuffer.length)
    (seen : sent.length + reader.nbToSend + 2 = (body chunks).length)
    (whole : sent ++ reader.rBuffer ++ bytesOf queue = body chunks ++ trailing) :
    (reader.endChunk = .error .unboundLocalError ∧
      (reader.rBuffer.drop reader.nbToSend = [] ∨ reader.rBuffer.drop reader.nbToSend = [13])) ∨
    ∃ after, reader.endChunk = .ok ([], after) ∧ after.awaiting = reader.awaiting ∧
      Stage chunks trailing sent after queue := by
  have short : sent.length < (body chunks).length := by omega
  have rest : reader.rBuffer.drop reader.nbToSend ++ bytesOf queue = crlf ++ trailing := by
    have left : (sent ++ reader.rBuffer ++ bytesOf queue).drop (sent.length + reader.nbToSend) =
        reader.rBuffer.drop reader.nbToSend ++ bytesOf queue := by
      rw [← List.drop_drop, List.append_assoc, List.drop_left,
        List.drop_append_of_le_length within]
    have end_of_body : body chunks = encodeAll chunks ++ [48, 13, 10] ++ crlf := by
      rw [body, List.append_assoc]
      rfl
    have position : sent.length + reader.nbToSend =
        (encodeAll chunks ++ [48, 13, 10]).length := by
      have length := congrArg List.length end_of_body
      have two : crlf.length = 2 := rfl
      rw [List.length_append, two] at length
      omega
    rw [← left, whole, position, end_of_body, List.append_assoc, List.drop_left]
  -- what follows the last size is CRLF, or a part of it
  have parts : reader.rBuffer.drop reader.nbToSend = [] ∨ reader.rBuffer.drop reader.nbToSend = [13] ∨
      crlf <+: reader.rBuffer.drop reader.nbToSend := by
    cases header : reader.rBuffer.drop reader.nbToSend with
    | nil => exact .inl rfl
    | cons first more =>
        rw [header] at rest
        obtain ⟨rfl, rest'⟩ := List.cons.inj rest
        cases more with
        | nil => exact .inr (.inl rfl)
        | cons second more =>
            obtain ⟨rfl, _⟩ := List.cons.inj rest'
            exact .inr (.inr ⟨more, rfl⟩)
  obtain empty | carriage | ended := parts
  · exact .inl ⟨by simp [Reader.endChunk, empty, crlf], .inl empty⟩
  · exact .inl ⟨by simp [Reader.endChunk, carriage, crlf], .inr carriage⟩
  · apply Or.inr
    refine ⟨{ reader with nbToSend := reader.nbToSend + 2, seek := 0, mode := .newRequest }, ?_, rfl,
      .left (.inl rfl) short⟩
    simp only [Reader.endChunk, if_pos ended]

theorem readHttp_advances (mode : reader.mode = .http) (idle : reader.awaiting = false)
    (short : sent.length < (body chunks).length) :
    Advances chunks trailing sent queue (reader.readHttp size) := by
  unfold Reader.readHttp
  dsimp only
  split
  · trivial
  · split
    · trivial
    · exact ⟨.left (.inr mode) short, idle⟩

/-- The turn after `recv`, wherever the reader is in the body. -/
theorem Stage.turn (stage : Stage chunks trailing sent reader queue)
    (idle : reader.awaiting = false) (received : reader.mode ≠ .newRequest) :
    Advances chunks trailing sent queue (reader.turn size) := by
  cases stage with
  | chunks done more split mode seen whole =>
      have advances := chunked_stage split mode seen whole
      have still : reader.chunked.2.awaiting = reader.awaiting := rfl
      simp only [Reader.turn, mode, reduceCtorEq, if_false, Reader.process]
      generalize reader.chunked = answer at advances still
      obtain ⟨data, after⟩ := answer
      cases data with
      | none => trivial
      | some data =>
          have advanced := advances data rfl
          by_cases empty : data = []
          · subst empty
            rw [List.append_nil] at advanced
            exact ⟨advanced, still.trans idle⟩
          · simp only [ne_eq, empty, not_false_eq_true, if_true]
            exact ⟨advanced, still.trans idle⟩
  | ending mode held within seen whole =>
      simp only [Reader.turn, mode, reduceCtorEq, if_false, Reader.process]
      obtain ⟨lost, -⟩ | ⟨after, ended, still, advanced⟩ := endChunk_stage within seen whole
      · rw [lost]
        trivial
      · rw [ended]
        exact ⟨advanced, still.trans idle⟩
  | left mode short =>
      have http : reader.mode = .http := mode.resolve_left received
      simp only [Reader.turn, http, if_true]
      exact readHttp_advances http idle short

theorem Stage.receive {bytes : Str}
    (stage : Stage chunks trailing sent reader (.data bytes :: queue)) :
    Stage chunks trailing sent { reader with rBuffer := reader.rBuffer ++ bytes } queue := by
  have joined : sent ++ (reader.rBuffer ++ bytes) ++ bytesOf queue =
      sent ++ reader.rBuffer ++ bytesOf (.data bytes :: queue) := by
    simp only [bytesOf, List.map_cons, List.flatten_cons, List.append_assoc]
  cases stage with
  | chunks done more split mode seen whole =>
      exact .chunks done more split mode seen (joined.trans whole)
  | ending mode held within seen whole =>
      refine .ending mode held ?_ seen (joined.trans whole)
      rw [List.length_append]
      exact Nat.le_add_right_of_le within
  | left mode short => exact .left mode short

theorem Stage.wait (stage : Stage chunks trailing sent reader (.wouldBlock :: queue)) :
    Stage chunks trailing sent reader queue := by
  cases stage with
  | chunks done more split mode seen whole => exact .chunks done more split mode seen whole
  | ending mode held within seen whole => exact .ending mode held within seen whole
  | left mode short => exact .left mode short

/-- A connection on which a body is relayed. -/
structure Relaying (chunks : List Chunk) (trailing sent : Str) (connection : Connection) :
    Prop where
  stage : Stage chunks trailing sent connection.reader connection.queue
  idle : connection.reader.awaiting = false
  healthy : Healthy connection.queue

theorem Relaying.resume (size : Nat) {connection : Connection}
    (relaying : Relaying chunks trailing sent connection) :
    match connection.resume size .newRequest 0 with
    | (.content data, after) => Relaying chunks trailing (sent ++ data) after
    | (.nothing, after) => Relaying chunks trailing sent after
    | (.request _, _) | (.closed, _) | (.raised _, _) => True := by
  obtain ⟨reader, queue⟩ := connection
  obtain ⟨stage, idle, healthy⟩ := relaying
  dsimp only at stage idle healthy
  have advance : ∀ {result : Yielded × Reader} {queue}, Healthy queue →
      Advances chunks trailing sent queue result →
      match ((result.1, ⟨result.2, queue⟩) : Yielded × Connection) with
      | (.content data, after) => Relaying chunks trailing (sent ++ data) after
      | (.nothing, after) => Relaying chunks trailing sent after
      | (.request _, _) | (.closed, _) | (.raised _, _) => True := by
    intro result queue healthy advances
    obtain ⟨yielded, after⟩ := result
    cases yielded with
    | content data => exact ⟨advances.1, advances.2, healthy⟩
    | nothing => exact ⟨advances.1, advances.2, healthy⟩
    | request | closed | raised => trivial
  have accepted : reader.accept .newRequest 0 = reader := by
    simp only [Reader.accept, idle, Bool.false_eq_true, if_false]
  by_cases fresh : reader.mode = .newRequest
  · have silent : reader.receives = false := by simp [Reader.receives, fresh]
    have short := stage.short
    simp only [Connection.resume, accepted, Reader.resume, silent, Bool.false_eq_true, if_false,
      fresh, if_true]
    exact advance healthy (readHttp_advances rfl idle short)
  · have receives : reader.receives = true := by
      cases stage with
      | chunks done more split mode => simp [Reader.receives, mode]
      | ending mode => simp [Reader.receives, mode]
      | left mode => simp [Reader.receives, mode.resolve_left fresh]
    simp only [Connection.resume, accepted, Reader.resume, receives, if_true]
    cases queue with
    | nil => exact ⟨stage, idle, healthy⟩
    | cons recv queue =>
        have healthy' : Healthy queue := fun later member =>
          healthy later (List.mem_cons_of_mem _ member)
        have fine := healthy recv List.mem_cons_self
        cases recv with
        | wouldBlock => exact ⟨stage.wait, idle, healthy'⟩
        | error => exact absurd rfl fine.2
        | data bytes =>
            cases bytes with
            | nil => exact absurd rfl fine.1
            | cons byte bytes => exact advance healthy' (stage.receive.turn idle fresh)

theorem Relaying.contents_short (size : Nat) {connection : Connection} (count : Nat)
    (relaying : Relaying chunks trailing sent connection) :
    sent.length + (contents (connection.drive size count)).length < (body chunks).length := by
  induction count generalizing connection sent with
  | zero => exact relaying.stage.short
  | succ count ih =>
      have short := relaying.stage.short
      have resumed := relaying.resume size
      rw [Connection.drive]
      generalize connection.resume size .newRequest 0 = result at resumed ⊢
      obtain ⟨yielded, after⟩ := result
      cases yielded with
      | content data =>
          have later := ih resumed
          simp only [contents, List.length_append] at later ⊢
          omega
      | nothing => exact ih resumed
      | request text => exact short
      | closed | raised => exact short

theorem relay_eq (size count : Nat) (buffer : Str) (queue : List Recv) :
    relay size count ⟨answered buffer, queue⟩ =
      Connection.drive size (count + 1) ⟨{ mode := .chunked, rBuffer := buffer }, queue⟩ := rfl

theorem relaying_start (healthy : Healthy queue)
    (whole : buffer ++ bytesOf queue = body chunks ++ trailing) :
    Relaying chunks trailing [] ⟨{ mode := .chunked, rBuffer := buffer }, queue⟩ :=
  ⟨.chunks [] chunks rfl rfl rfl whole, rfl, healthy⟩

/-- No body is relayed exactly, however it is received. -/
theorem chunked_not_relayed (size : Nat) (chunks : List Chunk) (trailing buffer : Str)
    (queue : List Recv) (healthy : Healthy queue)
    (whole : buffer ++ bytesOf queue = body chunks ++ trailing) :
    ¬ Relayed size chunks trailing ⟨answered buffer, queue⟩ := by
  intro given
  obtain ⟨count, complete, _⟩ := given
  have short := (relaying_start healthy whole).contents_short size (count + 1)
  rw [← relay_eq, complete] at short
  exact absurd short (by simp)

theorem chunked_not_relayed_cut :
    ¬ Relayed 0 [] [] ⟨answered [], [.data (ascii "0\r\n"), .wouldBlock, .data (ascii "\r\n")]⟩ :=
  chunked_not_relayed 0 [] [] [] _ (by decide) rfl

theorem checkChunkSize_last (chunks : List Chunk) (total : Nat) :
    checkChunkSizeFrom total (encodeAll chunks ++ ascii "0\r\n") =
      (false, some (total + (encodeAll chunks).length + 3)) := by
  induction chunks generalizing total with
  | nil =>
      have header : chunkHeader [48, 13] = some (0, 2) := by decide
      have last : encodeAll [] ++ ascii "0\r\n" = [48, 13] ++ 10 :: [] := rfl
      rw [last, checkChunkSize_line (by decide), header]
      rfl
  | cons chunk chunks ih =>
      have first : encodeAll (chunk :: chunks) ++ ascii "0\r\n" = (chunk.size ++ [13]) ++
          10 :: (chunk.data ++ crlf ++ (encodeAll chunks ++ ascii "0\r\n")) := by
        simp only [encodeAll, List.map_cons, List.flatten_cons, Chunk.encode, crlf, List.append_assoc,
          List.cons_append, List.nil_append]
      have whole : (encodeAll (chunk :: chunks)).length = chunk.encode.length + (encodeAll chunks).length := by
        simp only [encodeAll, List.map_cons, List.flatten_cons, List.length_append]
      have past : (chunk.data ++ crlf).length = chunk.data.length + 2 := by simp [crlf]
      have positive := chunk.positive
      have encode := chunk.encode_length
      rw [first, checkChunkSize_line chunk.line, chunkHeader_size]
      simp only [List.length_append, List.length_singleton]
      rw [if_neg (by omega), ← past, List.drop_left, ih, whole, past, encode]
      simp only [Prod.mk.injEq, Option.some.injEq, true_and]
      omega

/-- The reader when the chunks are looked at, and what ends them is to come. -/
def ending (rBuffer : Str) (nbToSend : Nat) : Reader := { mode := .endChunk, rBuffer, nbToSend }

/-- A body of which the carriage return at its end comes without the line feed: the
coroutine is left with an exception. -/
theorem chunked_cut_raises (size : Nat) (chunks : List Chunk) :
    relay size 1 ⟨answered [], [.data (encodeAll chunks ++ ascii "0\r\n"), .data [13]]⟩ =
      [.nothing, .raised .unboundLocalError] := by
  have checked := checkChunkSize_last chunks 0
  have last : (ascii "0\r\n").length = 3 := rfl
  have filled : encodeAll chunks ++ ascii "0\r\n" ≠ [] := by simp [ascii]
  have length : (encodeAll chunks ++ ascii "0\r\n").length = (encodeAll chunks).length + 3 := by
    rw [List.length_append, last]
  generalize encodeAll chunks ++ ascii "0\r\n" = bytes at checked filled length ⊢
  have looked : (⟨{ mode := .chunked }, [.data bytes, .data [13]]⟩ : Connection).resume size .newRequest 0 =
      (.nothing, ⟨ending bytes bytes.length, [.data [13]]⟩) := by
    cases bytes with
    | nil => exact absurd rfl filled
    | cons byte bytes =>
        simp [Connection.resume, Reader.resume, Reader.accept, Reader.receives, Reader.turn, Reader.process,
          Reader.chunked, checkChunkSize, checked, length, ending]
  have lost : (⟨ending bytes bytes.length, [.data [13]]⟩ : Connection).resume size .newRequest 0 =
      (.raised .unboundLocalError, ⟨ending (bytes ++ [13]) bytes.length, []⟩) := by
    simp [Connection.resume, Reader.resume, Reader.accept, Reader.receives, Reader.turn, Reader.process,
      Reader.endChunk, ending, crlf, Except.map]
  rw [relay_eq, drive_succ looked rfl, Connection.drive, lost]

/-- A body without chunks and the request after it: the reader yields the body as
the next request. -/
theorem chunked_end_withheld : ¬ ∀ size chunks trailing buffer queue, Healthy queue →
    buffer ++ bytesOf queue = body chunks ++ trailing →
    Relayed size chunks trailing ⟨answered buffer, queue⟩ := by
  intro relayed
  obtain ⟨count, complete, _⟩ := relayed 0 [] (ascii "GET http://a/ HTTP/1.0\r\n\r\n") []
    [.data (ascii "0\r\n\r\n"), .data (ascii "GET http://a/ HTTP/1.0\r\n\r\n")] (by decide) rfl
  have relaying : Relaying [] (ascii "GET http://a/ HTTP/1.0\r\n\r\n") []
      ⟨{ mode := .chunked, rBuffer := [] },
        [.data (ascii "0\r\n\r\n"), .data (ascii "GET http://a/ HTTP/1.0\r\n\r\n")]⟩ :=
    relaying_start (by decide) rfl
  have short := relaying.contents_short 0 (count + 1)
  rw [← relay_eq, complete] at short
  exact absurd short (by simp)

end ExaProxy.Client
