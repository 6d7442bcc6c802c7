import ExaProxy.Content.Worker
import ExaProxy.Data.Dictionary
import ExaProxy.Data.Paths
import Mathlib.Data.Finset.Basic

namespace ExaProxy.Content

open ExaProxy.Data ExaProxy.Network
open ExaProxy.Client (Recv)

/-! `ContentManager`: the connections to servers and what the clients are
answered.  What the sockets do, and the local pages, come from outside. -/

/-- The decisions as `ResponseEncoder` encodes them; `malformed` stands for any
other command, and for arguments that are too many or too few. -/
inductive Decision where
  | download (host port upgrade length request : Str)
  | connect (host port data : Str)
  | intercept (host port data : Str)
  | redirect (url : Str)
  | http (data : Str)
  | icap (response length : Str)
  | file (code reason : Str)
  | rewrite (code reason comment protocol url host clientIp : Str)
  | monitor (path : Str)
  | close
  | malformed
deriving DecidableEq, Repr

/-- The commands that are about a connection to a host. -/
def Decision.opens : Decision → Bool
  | .download .. | .connect .. | .intercept .. => true
  | _ => false

/-- What is to be sent to a client, and whether its connection is closed then. -/
inductive Reply where
  | stream (data : Str)
  | close (data : Option Str)
  | file (header filename : Str)
deriving DecidableEq, Repr

/-- The length of a request's body, which stays a text where it is not a number. -/
inductive Remaining where
  | number (count : Int)
  | text (length : Str)
deriving DecidableEq, Repr

/-- `int(length) if length.isdigit() else length` -/
def Remaining.decode (length : Str) : Remaining :=
  if Str.isdigit length then .number (Str.digitsValue length) else .text length

inductive LocalContent where
  | missing (page : Str)
  | file (header filename : Str)
deriving DecidableEq, Repr

def LocalContent.reply : LocalContent → Reply
  | .missing page => .close (some page)
  | .file header filename => .file header filename

/-- The surroundings of a call: `isip` is what `inet_pton` accepts, `refused`
what the configuration does not let the proxy connect to, and `connects` whether
a socket could be opened.  `realpath` was called for the location of the local pages,
and does not take a null byte.  A page of the monitor can raise an exception. -/
structure Site where
  isip : Str → Bool
  refused : Str → Int → Bool
  connects : Bool
  location : Str
  plain : 0 ∉ location
  /-- what `getLocalContent` and `readLocalContent` give for a name that can be looked up -/
  localContent : Str → Str → LocalContent
  localText : Str → Str → List (Str × Str) → Str
  monitorPage : Str → Option Str

namespace Site

variable (site : Site) (code name : Str)

/-- `getLocalContent`: `isfile` raises for a path with a null byte. -/
def getLocalContent : Except Raised LocalContent :=
  if 0 ∈ pathBelow site.location name then .error .typeError else .ok (site.localContent code name)

def readLocalContent (data : List (Str × Str)) : Except Raised Str :=
  if 0 ∈ pathBelow site.location name then .error .typeError else .ok (site.localText code name data)

variable {name}

theorem getLocalContent_plain (named : 0 ∉ name) :
    site.getLocalContent code name = .ok (site.localContent code name) :=
  if_neg (pathBelow_plain site.plain named)

end Site

inductive Event where
  | openingDownload | readDownload | writeDownload
deriving DecidableEq, Repr

/-- The downloaders are objects, which the registries hold by their sockets. -/
structure ContentManager where
  downloaders : AList (fun _ : Sock => Downloader) := ∅
  opening : Finset Sock := ∅
  established : Finset Sock := ∅
  byclient : AList (fun _ : Sock => Sock) := ∅
  buffered : List Sock := []
  poller : Poller Event := {}
  /-- how many connections were ever opened -/
  sockets : Nat := 0

namespace ContentManager

variable (manager : ContentManager) (site : Site) (send : Send) (sock client : Sock)

/-- `self.byclient.get(client)` -/
def serving : Option Downloader := (manager.byclient.lookup client).bind manager.downloaders.lookup

/-- The end of `_terminate`, for a socket that was polled under `event`. -/
def release (event : Event) : ContentManager :=
  let poller := manager.poller.remove event sock
  { manager with
    established := manager.established.erase sock
    opening := manager.opening.erase sock
    byclient := manager.byclient.erase client
    buffered := manager.buffered.erase sock
    poller := if sock ∈ manager.buffered then poller.remove .writeDownload sock else poller }

/-- `_terminate` -/
def terminate : ContentManager :=
  if sock ∈ manager.established then manager.release sock client .readDownload
  else if sock ∈ manager.opening then manager.release sock client .openingDownload
  else manager

def endClientDownload : ContentManager :=
  match manager.byclient.lookup client with
  | some sock => manager.terminate sock client
  | none => manager

/-- `isip`, which raises for a host with a null byte. -/
def isip (host : Str) : Except Raised Bool :=
  if 0 ∈ host then .error .typeError else .ok (site.isip host)

/-- `downloader_factory`: `connect` raises for a port that no socket can have. -/
def openDownloader (host : Str) (port : Int) (method : HostCommand) (request : Str) :
    Except Raised (ContentManager × Option Sock) :=
  if port < 0 ∨ port > 65535 then .error .overflowError
  else if site.connects then
    let sock := manager.sockets
    .ok ({ manager with
      sockets := sock + 1
      downloaders := manager.downloaders.insert sock
        { client, sock, host, port, method, wBuffer := request } }, some sock)
  else .ok (manager, none)

/-- The start of `getDownloader`: a connection to another host or port is ended. -/
def reuse (host : Str) (port : Int) : ContentManager × Option Sock :=
  match manager.serving client with
  | some downloader =>
      if host ≠ downloader.host ∨ port ≠ downloader.port then
        (manager.endClientDownload client, none)
      else (manager, some downloader.sock)
  | none => (manager, none)

/-- `getDownloader`: the connection for a request, and whether it is new. -/
def getDownloader (host : Str) (port : Int) (method : HostCommand) (request : Str) :
    Except Raised (ContentManager × Option Sock × Bool) := do
  let (manager, current) := manager.reuse client host port
  if ¬ (← isip site host) then return (manager, none, false)
  match current with
  | some sock => return (manager, some sock, false)
  | none =>
      if site.refused host port then return (manager, none, false)
      let (manager, opened) ← manager.openDownloader site client host port method request
      return (manager, opened, opened.isSome)

/-- The local variables of `getContent` before its end; `request` is `none` where
the branch of the command does not assign it. -/
structure Prepared where
  manager : ContentManager
  downloader : Option Sock := none
  newdownloader : Bool := false
  request : Option Str := some []
  content : Option Reply
  length : Remaining := .number 0

def redirection (url : Str) : Str :=
  ascii "HTTP/1.1 302 Surfprotected\r\nCache-Control: no-store\r\nLocation: " ++ url ++
    ascii "\r\n\r\n\r\n"

/-- `getLocalContent('400', 'noconnect.html')` -/
def noconnect : Reply := (site.localContent (ascii "400") (ascii "noconnect.html")).reply

theorem noconnect_eq : (site.getLocalContent (ascii "400") (ascii "noconnect.html")).map LocalContent.reply =
    .ok (noconnect site) := by
  rw [site.getLocalContent_plain _ (by decide)]
  rfl

/-- Whether an upgrade leaves the client with requests that are to be filtered. -/
def plainUpgrade (upgrade : Str) : Bool :=
  upgrade = [] || upgrade = ascii "http/1.0" || upgrade = ascii "http/1.1"

/-- The port of a decision: `int(port)`. -/
def portOf (port : Str) : Except Raised Int := (Str.int port).elim (.error .valueError) .ok

/-- The branch of a command that opens a connection, with the length of a request
that has got one, and what is answered to one that has not. -/
def contact (host port : Str) (method : HostCommand) (data : Str) (request : Option Str)
    (length : Remaining) (refusal : Reply) : Except Raised Prepared := do
  let port ← portOf port
  let (manager, downloader, newdownloader) ←
    manager.getDownloader site client host port method data
  if downloader.isSome then
    return { manager, downloader, newdownloader, request, content := some (.stream []), length }
  return { manager, request, content := some refusal }

/-- The branches of `getContent` for the commands. -/
def prepare : Decision → Except Raised Prepared
  | .download host port upgrade length request =>
      manager.contact site client host port .download request (some request)
        (if plainUpgrade upgrade then .decode length else .number (-1)) (noconnect site)
  | .connect host port data =>
      manager.contact site client host port .connect data none (.number (-1)) (noconnect site)
  | .intercept host port data =>
      manager.contact site client host port .intercept data none (.number (-1)) (.close (some []))
  | .redirect url => .ok { manager, content := some (.close (some (redirection url))) }
  | .http data => .ok { manager, content := some (.close (some data)) }
  | .icap response length =>
      .ok { manager, content := some (.stream response), length := .decode length }
  | .file code reason =>
      (site.getLocalContent code reason).map fun content => { manager, content := some content.reply }
  | .rewrite code reason comment protocol url host clientIp =>
      (site.readLocalContent code reason [(ascii "url", url), (ascii "host", host), (ascii "client_ip", clientIp),
        (ascii "protocol", protocol), (ascii "comment", comment)]).map fun page =>
          { manager, content := some (.close (some page)) }
  | .monitor path =>
      match site.monitorPage path with
      | some page => .ok { manager, content := some (.close (some page)) }
      | none => .error .attributeError
  | .close => .ok { manager, content := some (.close none) }
  | .malformed => .ok { manager, content := none }

/-- The data is written and the buffer's state noted.  `again` is what is said of
a buffer that was not empty and is not. -/
def writeData (data : Str) (again : Bool) : ContentManager × Option Bool × Option Bool :=
  match manager.downloaders.lookup sock with
  | none => (manager, none, none)
  | some downloader =>
      let (buffered, downloader) := downloader.writeData data send
      let manager := { manager with downloaders := manager.downloaders.insert sock downloader }
      if buffered = some true then
        if sock ∉ manager.buffered then
          ({ manager with
            buffered := manager.buffered ++ [sock]
            poller := manager.poller.add .writeDownload sock }, buffered, some true)
        else (manager, buffered, some again)
      else if sock ∈ manager.buffered then
        ({ manager with
          buffered := manager.buffered.erase sock
          poller := manager.poller.remove .writeDownload sock }, buffered, some true)
      else (manager, buffered, some false)

/-- A new connection is waited for. -/
def register : ContentManager :=
  { manager with
    opening := insert sock manager.opening
    byclient := manager.byclient.insert client sock
    poller := manager.poller.add .openingDownload sock }

/-- What `getContent` returns: the content, the length of the request's body, and
what became of the connection's buffer. -/
structure Answer where
  content : Option Reply
  length : Remaining
  buffered : Option Bool
  bufferChange : Option Bool

/-- The end of `getContent`. -/
def conclude (prepared : Prepared) : Except Raised (ContentManager × Answer) :=
  let manager := prepared.manager
  let answer := Answer.mk prepared.content prepared.length
  match prepared.downloader with
  | some sock =>
      if prepared.newdownloader then .ok (manager.register sock client, answer none none)
      else
        match prepared.request with
        | none => .error .unboundLocalError
        | some request =>
            let (manager, buffered, bufferChange) := manager.writeData send sock request false
            .ok (manager, answer buffered bufferChange)
  | none =>
      if client ∈ manager.byclient then .ok (manager.endClientDownload client, answer none none)
      else .ok (manager, answer none none)

def getContent (decision : Decision) : Except Raised (ContentManager × Answer) := do
  conclude send client (← manager.prepare site client decision)

/-- `startDownload`: the client of the connection, what it is told of it, and
whether data for the server is waiting. -/
def startDownload : ContentManager × Option Sock × Option Str × Option Bool :=
  if sock ∈ manager.opening then
    match manager.downloaders.lookup sock with
    | none => (manager, none, none, none)
    | some downloader =>
        let (res, response, downloader) := downloader.startConversation send
        let response :=
          if res then some response
          else if downloader.method = .intercept then none
          else some (site.localText (ascii "400") (ascii "noconnect.html") []) -- a path without a null byte
        let bufferChange := sock ∈ manager.buffered
        let poller := (((manager.poller.remove .writeDownload sock).remove .openingDownload
          sock).add .readDownload sock)
        ({ manager with
          downloaders := manager.downloaders.insert sock downloader
          opening := manager.opening.erase sock
          established := insert sock manager.established
          poller := if bufferChange then poller.add .writeDownload sock else poller },
          some downloader.client, response, some bufferChange)
  else (manager, none, none, none)

/-- `self.established.get(sock)` -/
def connected : Option Downloader :=
  if sock ∈ manager.established then manager.downloaders.lookup sock else none

def readData (recv : Recv) : ContentManager × Option Sock × Option Str :=
  match manager.connected sock with
  | some downloader =>
      match Content.readData recv with
      | some data => (manager, some downloader.client, some data)
      | none => (manager.terminate sock downloader.client, some downloader.client, none)
  | none => (manager, none, none)

def sendSocketData (data : Str) : ContentManager × Option Bool × Option Bool × Option Sock :=
  match manager.connected sock with
  | some downloader =>
      let (manager, buffered, bufferChange) := manager.writeData send sock data false
      (manager, buffered, bufferChange, some downloader.client)
  | none => (manager, none, none, none)

def sendClientData (data : Str) : ContentManager × Option Bool × Option Bool :=
  match manager.serving client with
  | some downloader =>
      let sock := downloader.sock
      if sock ∈ manager.established then manager.writeData send sock data true
      else if sock ∈ manager.opening then
        let (buffered, downloader) := downloader.bufferData data
        let manager := { manager with downloaders := manager.downloaders.insert sock downloader }
        if sock ∉ manager.buffered then
          ({ manager with buffered := manager.buffered ++ [sock] }, some buffered, some true)
        else (manager, some buffered, some false)
      else (manager.terminate sock client, none, none) -- what is going on if we reach this point
  | none => (manager, none, none)

def corkClientDownload : ContentManager :=
  match manager.byclient.lookup client with
  | some sock => { manager with poller := manager.poller.cork .readDownload sock }
  | none => manager

def uncorkClientDownload : ContentManager :=
  match manager.byclient.lookup client with
  | some sock =>
      if sock ∈ manager.established then
        { manager with poller := manager.poller.uncork .readDownload sock }
      else manager
  | none => manager

end ContentManager

end ExaProxy.Content
