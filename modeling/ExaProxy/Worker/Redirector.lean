import ExaProxy.Client.Manager
import ExaProxy.Http.Response
import ExaProxy.Tls.Hello
import ExaProxy.Worker.Response

namespace ExaProxy.Worker

open ExaProxy.Data ExaProxy.Http
open ExaProxy.Client (Source)
open ExaProxy.Content (Decision)

/-! `Redirector`: how a worker decides about a request.  What it writes to its
program is a part of the outcome; the log is left out. -/

/-- The configuration of a worker, where `proxy` is what it calls itself. -/
structure Configuration extends Http.Configuration where
  transparent : Bool
  enabled : Bool
  connect : Bool
  connectPorts : List Nat
  proxy : Str
  banner : Banner

/-- Where a client is connected to, and from. -/
structure Peer where
  acceptAddr : Str
  acceptPort : Str
  peer : Str

/-- What is kept for the answer of the program. -/
inductive Deferred (κ : Type) where
  | message (message : Message)
  | hostname (name : Str)
  | other (kept : κ)

/-- The triple that `decide` returns; `deferred` when the program was asked, with
what was written to it. -/
inductive Outcome (κ : Type) where
  | decided (decision : Decision)
  | deferred (written : Str) (kept : Deferred κ)
  | hangup
  | error

variable {κ : Type} (configuration : Configuration) (peer : Peer)

/-- `http` with the worker's banner. -/
def answer (code : Nat) (content version : Str) : Outcome κ :=
  .decided (.http (http configuration.banner code content version))

/-- `addHeaders` -/
def addHeaders (message : Message) : Except Failure Message := do
  let headers ← message.headers.pop (ascii "proxy-connection")
  if configuration.transparent then return { message with headers }
  let headers := headers.extend (ascii "via")
    (ascii "Via: " ++ message.request.version ++ ascii " " ++ configuration.proxy)
  let headers := headers.extend (ascii "x_forwarded_for") (ascii "X-Forwarded-For: " ++ peer.peer)
  let headers ← headers.pop (ascii "proxy-authenticate")
  return { message with headers }

/-- The text with its line ends and tabs spelled out. -/
def spell (raw : Str) : Str := raw.flatMap fun byte =>
  if byte = 9 then ascii "\\t" else if byte = 13 then ascii "\\r"
  else if byte = 10 then ascii "\\n\n" else [byte]

/-- `validateHTTP`, for a request that was refused. -/
def validateHTTP (message : HTTP) (failure : Failure) : Outcome κ :=
  let version := (message.request.map fun request => request.version).getD (ascii "1.0")
  let content (reason : Str) := reason ++ ascii "<br/>\n<!--\n\n<![CDATA[" ++ spell message.raw ++
    ascii "]]>\n\n-->\n"
  match failure with
  | .expectationFailed => answer configuration 417 [] version
  | .invalidRequest reason => answer configuration 400 (content reason) version
  | .problem => answer configuration 400 (content (ascii "problem parsing the request")) version

/-- `createChildRequest` -/
def createChildRequest (message : Message) : Str :=
  message.urlNoport ++ ascii " " ++ peer.peer ++ ascii " - " ++ message.request.method ++ ascii " -\n"

/-- `doHTTPRequest`, where `childRequest` is what the program is asked. -/
def doHTTPRequest (childRequest : Str) (message : Message) : Outcome κ :=
  if configuration.enabled then .deferred childRequest (.message message)
  else .decided (download message.host (Str.decimal message.port) message.upgrade message)

def doHTTPConnect (childRequest : Str) (message : Message) : Outcome κ :=
  if configuration.connect = false ∨ message.port ∉ configuration.connectPorts then
    answer configuration 501 (ascii "CONNECT NOT ALLOWED\n") (ascii "1.1")
  else if configuration.enabled then .deferred childRequest (.message message)
  else .decided (.connect message.host (Str.decimal message.port) [])

/-- The number of forwards that a client allows, if it limits them: the text behind
the last colon of the last line. -/
def maxForwards (headers : Headers) : Option Str :=
  (headers.get (ascii "max-forwards")).getLast?.map fun line =>
    Str.strip ((line.splitOn 58).getLastD [])

/-- A request that goes to the host of its header. -/
def toHeaderhost (message : Message) : Outcome κ :=
  .decided (download message.headerhost (Str.decimal message.port) message.upgrade message)

def doHTTPOptions (message : Message) : Outcome κ :=
  match maxForwards message.headers with
  | none => toHeaderhost message
  | some value =>
      if Str.isdigit value = false then
        answer configuration 400 (ascii "INVALID MAX-FORWARDS\n") (ascii "1.1")
      else if Str.digitsValue value = 0 then answer configuration 200 [] (ascii "1.1")
      else
        toHeaderhost { message with
          headers := message.headers.set (ascii "max-forwards")
            (ascii "Max-Forwards: " ++ Str.decimal (Str.digitsValue value - 1)) }

def plainMethods : List Str := ["GET", "PUT", "POST", "HEAD", "DELETE", "PATCH"].map ascii

def davMethods : List Str :=
  ["BCOPY", "BDELETE", "BMOVE", "BPROPFIND", "BPROPPATCH", "COPY", "DELETE", "LOCK", "MKCOL", "MOVE",
    "NOTIFY", "POLL", "PROPFIND", "PROPPATCH", "SEARCH", "SUBSCRIBE", "UNLOCK", "UNSUBSCRIBE",
    "X-MS-ENUMATTS"].map ascii

/-- The end of `doHTTP`.  The request is compared with the methods that the
configuration adds as the object it is, and is none of them. -/
def doMethod (childRequest : Message → Str) (message : Message) : Outcome κ :=
  let method := message.request.method
  if method ∈ plainMethods then doHTTPRequest configuration (childRequest message) message
  else if method = ascii "CONNECT" then doHTTPConnect configuration (childRequest message) message
  else if method = ascii "OPTIONS" ∨ method = ascii "TRACE" then doHTTPOptions configuration message
  else if method ∈ davMethods then toHeaderhost message
  else answer configuration 405 [] (ascii "1.1")

/-- `doHTTP` -/
def doHTTP (childRequest : Message → Str) (header : Str) : Except Raised (Outcome κ) :=
  let http := parseHTTP configuration.toConfiguration configuration.transparent peer.peer header
  match http.parsed with
  | .error failure => .ok (validateHTTP configuration http failure)
  | .ok message =>
      ((addHeaders configuration peer message).mapError fun _ => Raised.valueError).map
        (doMethod configuration childRequest)

/-- `doMonitor`, which reads the path of a request that may be none. -/
def doMonitor (header : Str) : Except Raised (Outcome κ) :=
  match (parseHTTP configuration.toConfiguration configuration.transparent peer.peer header).request with
  | some request => .ok (.decided (.monitor request.path))
  | none => .error .attributeError

/-- `doTLS` -/
def doTLS (header : Str) : Except Raised (Outcome κ) :=
  (Tls.parseClientHello header).map fun
    | some hostname =>
        if configuration.enabled then
          .deferred (hostname ++ ascii " " ++ peer.peer ++ ascii " - TLS -\n") (.hostname hostname)
        else .decided (.intercept hostname (ascii "443") header)
    | none => .hangup

/-- `Redirector.decide`, while the program is alive and reads what is written. -/
def decide (source : Source) (header : Str) : Except Raised (Outcome κ) :=
  match source with
  | .proxy => doHTTP configuration peer (createChildRequest peer) header
  | .web => doMonitor configuration peer header
  | .tls => doTLS configuration peer header
  | .icap | .passthrough => .ok .hangup

/-- `Redirector.progress`, for the line that the program has answered, if it did. -/
def progress (source : Source) (message : Message) (response : Option Str) : Except Raised (Outcome κ) :=
  if source = .tls then .ok .hangup
  else
    match response with
    | none => .ok .error
    | some response => do
        let classification ← classifyURL response
        if source ≠ .proxy then return .error
        let method := message.request.method
        if method ∈ plainMethods then return .decided (← contentResponse message classification)
        if method = ascii "CONNECT" then return .decided (connectResponse message classification)
        return .error

end ExaProxy.Worker
