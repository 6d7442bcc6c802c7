import ExaProxy.Content.Manager

namespace ExaProxy.Client

open ExaProxy.Data ExaProxy.Network
open ExaProxy.Content (Send Reply Remaining)

/-! `ClientManager`, and the writers of its clients.  How the classes of clients
read is left to `Readers`. -/

/-- The servers that clients connect to. -/
inductive Source where
  | proxy | web | icap | tls | passthrough
deriving DecidableEq, Repr

/-- Where the coroutine `_write` waits: before its start, in its loop, or at its end. -/
inductive WriterStage where
  | created
  | looping (finished : Bool)
  | ended
deriving DecidableEq, Repr

/-- The coroutine `_write` with the buffer `w_buffer` of its client. -/
structure Writer where
  stage : WriterStage := .created
  wBuffer : Str := []
deriving DecidableEq, Repr

namespace Writer

/-- One turn of the loop: whether data is left and whether there was some before,
with `none` when the connection is to be closed. -/
def turn (finished : Bool) (wBuffer : Str) (data : Option Str) (send : Send) :
    Option (Bool × Bool) × Writer :=
  let hadBuffer : Bool := wBuffer ≠ []
  let wBuffer := wBuffer ++ data.getD []
  let finished := finished || data.isNone
  if finished ∧ wBuffer = [] then (none, ⟨.ended, wBuffer⟩)
  else if hadBuffer = false ∨ data = some [] then
    match send with
    | .accepted count =>
        (some (decide (wBuffer.drop count ≠ []) || finished, hadBuffer),
          ⟨.looping finished, wBuffer.drop count⟩)
    | .wouldBlock => (some (decide (wBuffer ≠ []) || finished, hadBuffer), ⟨.looping finished, wBuffer⟩)
    | .failed => (none, ⟨.ended, wBuffer⟩)
  else (some (decide (wBuffer ≠ []) || finished, hadBuffer), ⟨.looping finished, wBuffer⟩)

/-- `self.writer.send(data)`, for a coroutine that was started. -/
def resume (writer : Writer) (data : Option Str) (send : Send) : Option (Bool × Bool) × Writer :=
  match writer.stage with
  | .looping finished => turn finished writer.wBuffer data send
  | _ => (none, { writer with stage := .ended })

/-- `writeData`: a coroutine that was not started cannot be sent data. -/
def writeData (writer : Writer) (data : Option Str) (send : Send) :
    Except Raised (Option (Bool × Bool) × Writer) :=
  if writer.stage = .created ∧ data.isSome then .error .typeError else .ok (writer.resume data send)

/-- `startData`, with a new coroutine; `file` is what the local file holds, if it
can be read. -/
def startData (writer : Writer) (source : Source) (reply : Reply) (send : Send)
    (file : Option Str) : Except Raised (Option (Bool × Bool) × Writer) :=
  match reply with
  | .stream data => .ok (turn false writer.wBuffer (some data) send)
  | .close data =>
      let (res, writer) := turn false writer.wBuffer data send
      let (closing, writer) := writer.resume none send
      match source with
      | .proxy | .web => .ok (res, writer)
      | .icap | .tls | .passthrough => .ok (closing, writer)
  | .file header _ =>
      match source with
      | .proxy | .web =>
          match file with
          | some fileData =>
              .ok (some (true, false), (turn false (writer.wBuffer ++ header ++ fileData) none send).2)
          | none => .error .unboundLocalError
      | .icap =>
          match file with
          | some fileData =>
              .ok (some (true, false), (turn false (header ++ (writer.wBuffer ++ fileData)) none send).2)
          | none => .ok (none, (turn false (header ++ writer.wBuffer) none send).2)
      | .tls | .passthrough => .ok (none, { writer with stage := .looping false })

/-- The coroutine was told to close the connection, or has done so. -/
def told (writer : Writer) : Bool :=
  match writer.stage with
  | .created => false
  | .looping finished => finished
  | .ended => true

end Writer

/-- How clients read: the reader a connection starts with, and what it yields when
it is resumed by `readData` and by `readRelated` while `recv` gives these results. -/
structure Readers (ρ : Type) where
  start : Source → ρ
  readData : ρ → List Recv → Yielded × ρ
  readRelated : ρ → Mode → Nat → List Recv → Yielded × ρ

/-- What never changes about a client. -/
structure Identity where
  name : Nat
  source : Source
deriving DecidableEq, Repr

structure Connected (ρ : Type) extends Identity where
  reader : ρ
  writer : Writer := {}
deriving DecidableEq, Repr

inductive Event where
  | openingClient | readClient | writeClient
deriving DecidableEq, Repr

structure ClientManager (ρ : Type) where
  norequest : AList (fun _ : Sock => Connected ρ) := ∅
  bysock : AList (fun _ : Sock => Connected ρ) := ∅
  byname : AList (fun _ : Nat => Sock) := ∅
  buffered : List Sock := []
  nextid : Nat := 0
  poller : Poller Event := {}
  /-- how many connections were ever accepted -/
  sockets : Nat := 0

/-- `parseRemaining`; the mode '' is the one for a new request. -/
def parseRemaining : Remaining → Mode × Nat
  | .text remaining => (if remaining = ascii "chunked" then .chunked else .passthrough, 0)
  | .number remaining =>
      if remaining > 0 then (.transfer, remaining.toNat)
      else if remaining = 0 then (.newRequest, 0)
      else (.passthrough, 0)

namespace ClientManager

variable {ρ : Type} (readers : Readers ρ) (manager : ClientManager ρ) (sock : Sock)

def lookupSocket (name : Nat) : Option Sock := manager.byname.lookup name

/-- `httpConnection`, `icapConnection` and `tlsConnection` -/
def connection (source : Source) : ClientManager ρ :=
  let name := manager.nextid + 1
  let sock := manager.sockets
  { manager with
    nextid := name
    sockets := sock + 1
    norequest := manager.norequest.insert sock { name, source, reader := readers.start source }
    byname := manager.byname.insert name sock
    poller := manager.poller.add .openingClient sock }

def passthroughConnection : ClientManager ρ × Nat :=
  let name := manager.nextid + 1
  let sock := manager.sockets
  ({ manager with
    nextid := name
    sockets := sock + 1
    bysock := manager.bysock.insert sock
      { name, source := .passthrough, reader := readers.start .passthrough }
    byname := manager.byname.insert name sock
    poller := manager.poller.add .readClient sock }, name)

def cleanup (name : Nat) : ClientManager ρ :=
  let known := sock ∈ manager.bysock ∨ sock ∈ manager.norequest
  let poller := ((manager.poller.remove .writeClient sock).remove .readClient sock).remove
    .openingClient sock
  { manager with
    bysock := manager.bysock.erase sock
    norequest := manager.norequest.erase sock
    byname := manager.byname.erase name
    poller := if known then poller else manager.poller
    buffered := manager.buffered.erase sock }

/-- A client of `bysock` as a call has left it. -/
def put (client : Connected ρ) : ClientManager ρ :=
  { manager with bysock := manager.bysock.insert sock client }

/-- `readRequest`, with the name and the source of the client that was read. -/
def readRequest (recv : List Recv) : ClientManager ρ × Option (Nat × Source × Yielded) :=
  match manager.norequest.lookup sock with
  | none => (manager, none)
  | some client =>
      let (yielded, reader) := readers.readData client.reader recv
      let client := { client with reader }
      let manager := match yielded with
        | .request _ => { manager with
            norequest := manager.norequest.erase sock
            bysock := manager.bysock.insert sock client
            poller := ((manager.poller.add .readClient sock).remove .openingClient sock).cork
              .readClient sock }
        | .closed => manager.cleanup sock client.name
        | .content _ | .nothing => { manager with norequest := manager.norequest.insert sock client }
        | .raised _ => manager
      (manager, some (client.name, client.source, yielded))

def readData (recv : List Recv) : ClientManager ρ × Option (Nat × Source × Yielded) :=
  match manager.bysock.lookup sock with
  | none => (manager, none)
  | some client =>
      let (yielded, reader) := readers.readData client.reader recv
      let client := { client with reader }
      let read := manager.put sock client
      let manager := match yielded with
        | .request _ => { read with poller := read.poller.cork .readClient sock }
        | .closed => manager.cleanup sock client.name
        | .content _ | .nothing => read
        | .raised _ => manager
      (manager, some (client.name, client.source, yielded))

/-- What `sendData` reports: the state of the client's buffer, whether it has
changed, and the client's name and source. -/
structure Sent where
  status : Option Bool
  bufferChange : Option Bool
  name : Option Nat
  source : Option Source
deriving DecidableEq, Repr

/-- The end of `sendData`, where the writer has reported on its buffer. -/
def noteBuffer (buffered hadBuffer : Bool) : ClientManager ρ × Bool :=
  if buffered then
    if sock ∉ manager.buffered then
      ({ manager with
        buffered := manager.buffered ++ [sock]
        poller := manager.poller.add .writeClient sock }, true)
    else (manager, false)
  else if hadBuffer ∧ sock ∈ manager.buffered then
    ({ manager with
      buffered := manager.buffered.erase sock
      poller := manager.poller.remove .writeClient sock }, true)
  else (manager, false)

def sendData (data : Option Str) (send : Send) : Except Raised (ClientManager ρ × Sent) :=
  match manager.bysock.lookup sock with
  | none => .ok (manager, ⟨none, none, none, none⟩)
  | some client =>
      (client.writer.writeData data send).map fun (res, writer) =>
        match res with
        | none =>
            (manager.cleanup sock client.name, ⟨none, some false, some client.name, some client.source⟩)
        | some (buffered, hadBuffer) =>
            let (noted, change) := (manager.put sock { client with writer }).noteBuffer sock buffered
              hadBuffer
            (noted, ⟨some buffered, some change, some client.name, some client.source⟩)

/-- The end of `startData`; a client can only be taken out of the buffered ones if
it is there. -/
def startBuffer (buffered hadBuffer : Bool) : Except Raised (ClientManager ρ) :=
  if buffered ∧ hadBuffer = false then
    .ok { manager with
      buffered := manager.buffered ++ [sock]
      poller := manager.poller.add .writeClient sock }
  else if buffered = false ∧ hadBuffer then
    if sock ∈ manager.buffered then
      .ok { manager with
        buffered := manager.buffered.erase sock
        poller := manager.poller.remove .writeClient sock }
    else .error .valueError
  else .ok manager

/-- What goes on with a client after its decision, when the writer has reported on
its buffer: the reader is resumed for what was read already. -/
def startReading (client : Connected ρ) (remaining : Remaining) (recv : List Recv)
    (buffered hadBuffer : Bool) : Except Raised (ClientManager ρ × Option Str) :=
  let (mode, nbToRead) := parseRemaining remaining
  let (yielded, reader) := readers.readRelated client.reader mode nbToRead recv
  let read := manager.put sock { client with reader }
  let read := { read with poller := read.poller.uncork .readClient sock }
  match yielded with
  | .raised error => .error error
  | .request _ | .closed => .ok (read.cleanup sock client.name, none)
  | .content data => (read.startBuffer sock buffered hadBuffer).map fun started => (started, some data)
  | .nothing => (read.startBuffer sock buffered hadBuffer).map fun started => (started, some [])

/-- `startData`: the data that was read beyond the request, and the client's source. -/
def startData (reply : Option Reply) (remaining : Remaining) (send : Send) (file : Option Str)
    (recv : List Recv) : Except Raised (ClientManager ρ × Option Str × Option Source) :=
  match manager.bysock.lookup sock, reply with
  | none, _ => .ok (manager, none, none)
  | some client, none => .ok (manager, none, some client.source)
  | some client, some reply => do
      let (res, writer) ← client.writer.startData client.source reply send file
      match res with
      | none => return (manager.cleanup sock client.name, none, some client.source)
      | some (buffered, hadBuffer) =>
          let (started, data) ← manager.startReading readers sock { client with writer } remaining
            recv buffered hadBuffer
          return (started, data, some client.source)

def corkUpload : ClientManager ρ :=
  if sock ∈ manager.bysock then
    { manager with poller := manager.poller.cork .readClient sock }
  else manager

def uncorkUpload : ClientManager ρ :=
  if sock ∈ manager.bysock then
    { manager with poller := manager.poller.uncork .readClient sock }
  else manager

/-- One turn of `expire`, with the source of the client that has expired. -/
def expireOne : ClientManager ρ × Option Source :=
  match manager.norequest.lookup sock with
  | some client => (manager.cleanup sock client.name, some client.source)
  | none => (manager, none)

end ClientManager

end ExaProxy.Client
