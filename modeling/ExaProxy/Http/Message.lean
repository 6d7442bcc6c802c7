import ExaProxy.Http.Headers
import ExaProxy.Network.Functions

namespace ExaProxy.Http

open ExaProxy.Data

/-- What the configuration says of requests, with the name of the header that a
proxy before this one writes the client's address to. -/
structure Configuration where
  version : Str
  forward : Str
  mask : Bool
  expect : Bool

/-- How long the body of a request is. -/
inductive ContentLength where
  | chunked
  | number (length : Int)
deriving DecidableEq, Repr

def ContentLength.toStr : ContentLength → Str
  | .chunked => ascii "chunked"
  | .number length => Str.ofInt length

/-- A request that was validated. -/
structure Message where
  raw : Str
  client : Str
  separator : Str
  request : Request
  headers : Headers
  headerhost : Str
  host : Str
  port : Nat
  contentLength : ContentLength
  url : Str
  urlNoport : Str
  upgrade : Str

namespace Headers

variable (headers : Headers)

/-- `get(key, [default])[0].split(':', 1)[1]`, where the default is `:absent`. -/
def first (key absent : Str) : Except Failure Str :=
  match headers.data.lookup key with
  | none => .ok absent
  | some [] => .error .problem
  | some (line :: _) => (Str.splitOnce (ascii ":") line).elim (.error .problem) fun (_, value) => .ok value

def value (key : Str) : Except Failure Str := (headers.first key []).map Str.strip

/-- The host of a host string, without its port and its brackets. -/
def hostOf (hoststring : Str) : Str :=
  if 58 ∈ hoststring then
    match (if hoststring.head? = some 91 then Str.splitOnce (ascii "]") hoststring.tail else none) with
    | some (host, _) => host
    | none => hoststring.takeWhile (· ≠ 58)
  else hoststring

/-- `extractHost` -/
def extractHost : Except Failure Str := (headers.value (ascii "host")).map hostOf

/-- The coding of the body, which may stand in another header. -/
def encoding : Except Failure Str := do
  let encoding ← headers.value (ascii "transfer-encoding")
  if encoding = [] then headers.value (ascii "te") else return encoding

def lengthLine : Except Failure Int := do
  let value := Str.strip (← headers.first (ascii "content-length") (ascii "0"))
  (Str.int value).elim (.error .problem) .ok

/-- The protocol that the client wants to change to. -/
def upgrade : Except Failure Str := do
  if Str.lower (← headers.value (ascii "connection")) = ascii "upgrade" then
    headers.value (ascii "upgrade")
  else return []

/-- The address of the client that a header claims; whether it is one is `isip`. -/
def claimed (forward : Str) : Except Failure Str :=
  (headers.first forward []).map fun value => Str.strip ((value.splitOn 44).getLastD [])

end Headers

namespace Message

def separatorOf (raw : Str) : Str := if 13 ∈ raw then ascii "\r\n" else ascii "\n"

/-- The client of a message, and the headers without those of a proxy before. -/
def forward (configuration : Configuration) (headers : Headers) (client : Str) :
    Except Failure (Str × Headers) := do
  if configuration.forward = [] then return (client, headers)
  let claimed ← headers.claimed configuration.forward
  let valid ← (Network.isip claimed).mapError fun _ => Failure.problem
  let headers ← headers.popWhen (configuration.mask = true) configuration.forward
  return (if valid then claimed else client, headers)

/-- `HTTP.parse`, where `remoteIp` is the address that the client connected from. -/
def parse (configuration : Configuration) (transparent : Bool) (remoteIp raw : Str) :
    Except Failure Message := do
  let request ← (Request.parse raw).mapError fun _ => Failure.problem
  let headers ← Headers.parse request.version configuration.expect transparent request.remaining
  let headerhost ← headers.extractHost
  let host := if request.host ≠ [] ∧ request.host ≠ ascii "*" then request.host else headerhost
  refuse (host = [])
    (.invalidRequest (ascii "can not forward the request, we have no host information"))
  let headers := headers.replace (ascii "x-proxy-version")
    (ascii "X-Proxy-Version: ExaProxy version " ++ configuration.version)
  let (client, headers) ← forward configuration headers remoteIp
  let encoding ← headers.encoding
  let number ← headers.lengthLine
  let upgrade ← headers.upgrade
  let port := if request.port ≠ 80 then ascii ":" ++ Str.decimal request.port else []
  return {
    raw, client, request, headers, headerhost, host, upgrade
    separator := separatorOf raw
    port := request.port
    contentLength := if Str.includes (ascii "chunked") encoding then .chunked else .number number
    url := host ++ port ++ request.path
    urlNoport := host ++ request.path }

/-- `HTTP.redirect`, for another path on the same host. -/
def redirect (message : Message) (path : Str) : Except Raised Message :=
  (Request.parse (message.request.method ++ ascii " " ++ path ++ ascii " HTTP/" ++
    message.request.version)).map fun request => { message with request }

/-- `HTTP.__str__` -/
def toStr (message : Message) : Str :=
  if message.request.version = ascii "1.0" ∨ message.request.version = ascii "1.1" then
    message.request.toStr ++ message.separator ++ message.headers.toStr message.separator ++
      message.separator ++ message.separator
  else message.raw

end Message

/-- The host that `HTTP.parse` finds, also where it refuses the request after that. -/
def Message.foundHost (configuration : Configuration) (transparent : Bool) (raw : Str) :
    Except Failure Str := do
  let request ← (Request.parse raw).mapError fun _ => Failure.problem
  let headers ← Headers.parse request.version configuration.expect transparent request.remaining
  let headerhost ← headers.extractHost
  return if request.host ≠ [] ∧ request.host ≠ ascii "*" then request.host else headerhost

/-- What is known of a request once it was parsed, whether it was validated or not. -/
structure HTTP where
  raw : Str
  request : Option Request
  parsed : Except Failure Message

/-- `parseHTTP` -/
def parseHTTP (configuration : Configuration) (transparent : Bool) (peer raw : Str) : HTTP where
  raw := raw
  request := (Request.parse raw).toOption
  parsed := Message.parse configuration transparent peer raw

end ExaProxy.Http
