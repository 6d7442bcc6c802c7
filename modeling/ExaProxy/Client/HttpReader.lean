import ExaProxy.Data.Methods
import ExaProxy.Http.Quotes

namespace ExaProxy.Client

open ExaProxy.Data ExaProxy.Http

/-! The reader of `HTTPClient`, for a source that is not `proxied`.  `_read` is a
coroutine: its local variables are the fields of `Reader`, and `resume` runs it
from one `yield` to the next one. -/

inductive Mode where
  | http | newRequest | transfer | chunked | endChunk | extraHeaders | passthrough
deriving DecidableEq, Repr

/-- What `recv` does; data that is empty says that the client has closed. -/
inductive Recv where
  | data (bytes : Str)
  | wouldBlock
  | error
deriving DecidableEq, Repr

/-- What `send` gives: what the coroutine yields, or the exception that leaves it. -/
inductive Yielded where
  | request (text : Str)
  | content (data : Str)
  | nothing
  | closed
  | raised (error : Raised)
deriving DecidableEq, Repr

/-- The coroutine waits at a `yield`, and the client stays connected. -/
def Yielded.goesOn : Yielded → Bool
  | .request _ | .content _ | .nothing => true
  | .closed | .raised _ => false

/-- The look-ahead of the chunks, `nbToSend`, may be more than there is in the
buffer.  `awaiting` says that the coroutine waits where it has yielded a request:
only there it takes the mode that is sent to it. -/
structure Reader where
  mode : Mode := .http
  rBuffer : Str := []
  nbToSend : Nat := 0
  seek : Nat := 0
  awaiting : Bool := false
deriving DecidableEq, Repr

def crlf : Str := [13, 10]

def crlfcrlf : Str := [13, 10, 13, 10]

def lflf : Str := [10, 10]

@[simp] theorem crlfcrlf_length : crlfcrlf.length = 4 := rfl

@[simp] theorem lflf_length : lflf.length = 2 := rfl

/-- The outcome of a search for one end of a request, with the position from
which the next search goes on. -/
inductive Search where
  | found (request rest : Str) (seek : Nat)
  | missed (seek : Nat)
deriving DecidableEq, Repr

/-- One round of the loop in `checkRequest`. -/
def searchEnd (eor rBuffer : Str) (seek : Nat) : Search :=
  match Str.find eor (rBuffer.drop seek) with
  | none => .missed seek
  | some pos =>
      let buff := rBuffer.take (seek + pos)
      if buff = [] then .missed seek
      else if countQuotes buff % 2 = 0 then -- we have matching pairs
        .found (buff ++ eor) (rBuffer.drop (seek + pos + eor.length)) seek
      else .missed (seek + pos + eor.length)

/-- `checkRequest`, with `none` for a request that is too long. -/
def checkRequest (rBuffer : Str) (size seek : Nat) : Option (Str × Str × Nat) :=
  match searchEnd crlfcrlf rBuffer seek with
  | .found request rest seek => some (request, rest, seek)
  | .missed seek =>
      match searchEnd lflf rBuffer seek with
      | .found request rest seek => some (request, rest, seek)
      | .missed seek =>
          if size ≠ 0 ∧ rBuffer.length > size then none else some ([], rBuffer, seek)

def isHexDigit (byte : UInt8) : Bool :=
  48 ≤ byte ∧ byte ≤ 57 ∨ 97 ≤ byte ∧ byte ≤ 102 ∨ 65 ≤ byte ∧ byte ≤ 70

def ishex (s : Str) : Bool := s ≠ [] && s.all isHexDigit

def hexDigit (byte : UInt8) : Nat :=
  if byte ≤ 57 then byte.toNat - 48 else if byte ≤ 70 then byte.toNat - 55 else byte.toNat - 87

/-- `int(s, 16)`, for a text that `ishex` lets through. -/
def hexValue (s : Str) : Nat := s.foldl (fun value byte => 16 * value + hexDigit byte) 0

/-- `s.split('\n', 1)`, for a text with a line feed. -/
def splitLine (s : Str) : Str × Str :=
  (s.takeWhile (· ≠ 10), (s.dropWhile (· ≠ 10)).drop 1)

theorem splitLine_length (s : Str) : (splitLine s).2.length ≤ s.length - 1 := by
  have shorter := (List.dropWhile_suffix (l := s) fun byte => decide (byte ≠ 10)).length_le
  simp only [splitLine, List.length_drop]
  omega

/-- The size that a chunk header announces, with the length of its line end;
`none` for what is not a size or too much. -/
def chunkHeader (header : Str) : Option (Nat × Nat) :=
  let (header, lenEol) :=
    if header.getLast? = some 13 then (header.dropLast, 2) else (header, 1)
  let header := header.takeWhile (· ≠ 59)
  if ishex header = false ∨ hexValue header > 0x100000 then none
  else some (hexValue header, lenEol)

/-- `checkChunkSize` from the point where chunks of `totalLen` bytes were seen:
whether more chunks are to come, and the length of those in the buffer. -/
def checkChunkSizeFrom (totalLen : Nat) (rBuffer : Str) : Bool × Option Nat :=
  if rBuffer = [] then (true, some totalLen)
  else if 10 ∉ rBuffer then
    if rBuffer.length > 6 then (true, none) else (true, some 0)
  else
    let lenHeader := (splitLine rBuffer).1.length + 1
    match chunkHeader (splitLine rBuffer).1 with
    | none => (true, none)
    | some (lenChunk, lenEol) =>
        if lenChunk = 0 then (false, some (totalLen + lenHeader))
        else checkChunkSizeFrom (totalLen + (lenChunk + lenEol + lenHeader))
          ((splitLine rBuffer).2.drop (lenChunk + lenEol))
termination_by rBuffer.length
decreasing_by
  have shorter := splitLine_length rBuffer
  have positive := List.length_pos_of_ne_nil ‹rBuffer ≠ []›
  rw [List.length_drop]
  omega

def checkChunkSize (rBuffer : Str) : Bool × Option Nat := checkChunkSizeFrom 0 rBuffer

namespace Reader

variable (reader : Reader)

/-- `_transfer` -/
def transfer : Str × Reader :=
  let length := min reader.rBuffer.length reader.nbToSend
  let nbToSend := reader.nbToSend - length
  (reader.rBuffer.take length,
    { reader with
      rBuffer := reader.rBuffer.drop length
      nbToSend
      mode := if nbToSend = 0 then .newRequest else reader.mode
      seek := 0 })

/-- `_chunked`, with `none` for data that is invalid. -/
def chunked : Option Str × Reader :=
  let length := min reader.rBuffer.length reader.nbToSend
  let rBuffer := reader.rBuffer.drop length
  let nbToSend := reader.nbToSend - length
  let (more, newToSend) := checkChunkSize (rBuffer.drop nbToSend)
  let total := nbToSend + newToSend.getD 0
  (newToSend.map fun _ => reader.rBuffer.take length,
    { reader with
      rBuffer
      nbToSend := total
      mode := if more then reader.mode else if total > 0 then .endChunk else .newRequest
      seek := 0 })

/-- `_endChunk`; nothing is taken out of the buffer. -/
def endChunk : Except Raised (Str × Reader) :=
  let header := reader.rBuffer.drop reader.nbToSend
  if crlf <+: header then
    .ok ([], { reader with nbToSend := reader.nbToSend + 2, seek := 0, mode := .newRequest })
  else if [10] <+: header then
    .ok ([], { reader with nbToSend := reader.nbToSend + 1, seek := 0, mode := .newRequest })
  else if header ≠ [] ∧ header ≠ [13] then
    .ok ([], { reader with mode := .extraHeaders, seek := reader.nbToSend })
  else .error .unboundLocalError -- no branch has assigned seek

/-- `_headers` -/
def headers (maxBuffer : Nat) : Option Str × Reader :=
  match checkRequest reader.rBuffer maxBuffer reader.seek with
  | none => (none, reader)
  | some (related, rBuffer, seek) =>
      if related ≠ [] then
        (some related, { reader with rBuffer, mode := .newRequest, seek := 0 })
      else (some related, { reader with rBuffer, seek })

/-- `process`, for the modes in which no request is read; it unpacks four values
into five names in all others. -/
def process (maxBuffer : Nat) : Except Raised (Option Str × Reader) :=
  match reader.mode with
  | .passthrough => .ok (some reader.rBuffer, { reader with rBuffer := [], nbToSend := 0, seek := 0 })
  | .transfer => .ok (some reader.transfer.1, reader.transfer.2)
  | .chunked => .ok reader.chunked
  | .endChunk => reader.endChunk.map fun (data, after) => (some data, after)
  | .extraHeaders => .ok (reader.headers maxBuffer)
  | .http | .newRequest => .error .valueError

/-- What is read from the buffer in mode `http`. -/
def readHttp (maxBuffer : Nat) : Yielded × Reader :=
  let buffer := Str.lstrip crlf reader.rBuffer
  match checkRequest buffer maxBuffer reader.seek with
  | none => (.closed, reader)
  | some (request, rBuffer, seek) =>
      if request ≠ [] then (.request request, { reader with rBuffer, seek := 0, awaiting := true })
      else (.nothing, { reader with rBuffer, seek })

/-- The body of the loop, after `recv`. -/
def turn (maxBuffer : Nat) : Yielded × Reader :=
  if reader.mode = .http then reader.readHttp maxBuffer
  else
    match reader.process maxBuffer with
    | .error raised => (.raised raised, reader)
    | .ok (none, after) => (.closed, after)
    | .ok (some data, after) => (if data ≠ [] then .content data else .nothing, after)

/-- The mode and the count that are sent to the coroutine. -/
def accept (mode : Mode) (nbToSend : Nat) : Reader :=
  if reader.awaiting then { reader with mode, nbToSend, awaiting := false } else reader

/-- Whether the loop calls `recv` before it looks at the buffer. -/
def receives : Bool :=
  reader.mode ≠ .newRequest ∧ (reader.mode ≠ .transfer ∨ reader.rBuffer = [])

/-- `reader.send((mode, nbToSend))`, when `recv` does what `recv` says if it is
called at all. -/
def resume (maxBuffer : Nat) (mode : Mode) (nbToSend : Nat) (recv : Recv) : Yielded × Reader :=
  let reader := reader.accept mode nbToSend
  if reader.receives then
    match recv with
    | .data [] => (.closed, reader)
    | .data bytes => { reader with rBuffer := reader.rBuffer ++ bytes }.turn maxBuffer
    | .wouldBlock => (.nothing, reader)
    | .error => (.closed, reader)
  else if reader.mode = .newRequest then { reader with mode := .http }.turn maxBuffer
  else reader.turn maxBuffer

end Reader

/-- The reader with the results that `recv` still has for it, in their order; it
would block after the last one. -/
structure Connection where
  reader : Reader
  queue : List Recv
deriving DecidableEq, Repr

namespace Connection

variable (maxBuffer : Nat) (mode : Mode) (nbToSend : Nat) (connection : Connection)

def resume : Yielded × Connection :=
  let (yielded, reader) :=
    connection.reader.resume maxBuffer mode nbToSend (connection.queue.headD .wouldBlock)
  let received := (connection.reader.accept mode nbToSend).receives
  (yielded, ⟨reader, if received then connection.queue.tail else connection.queue⟩)

/-- What the reader yields when it is resumed `count` times, as `readData` does. -/
def drive : Nat → Connection → List Yielded
  | 0, _ => []
  | count + 1, connection =>
      match connection.resume maxBuffer .newRequest 0 with
      | (.closed, _) => [.closed]
      | (.raised error, _) => [.raised error]
      | (yielded, connection) => yielded :: drive count connection

end Connection

end ExaProxy.Client
