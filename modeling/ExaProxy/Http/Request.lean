import ExaProxy.Data.Methods

namespace ExaProxy.Http

open ExaProxy.Data

/-- A request as its constructor leaves it. -/
structure RequestLine where
  raw : Str
  method : Str
  uri : Str
  version : Str
  useRaw : Bool
  remaining : Str
deriving DecidableEq, Repr

structure Request extends RequestLine where
  protocol : Str
  host : Str
  port : Nat
  path : Str
deriving DecidableEq, Repr

/-- `http.upper()[:5].startswith('HTTP/')` -/
def isHttp (line : Str) : Bool := (Str.upper line).take 5 = ascii "HTTP/"

/-- The number of the version, where `01.1` is another way to write `1.1`. -/
def normalVersion (version : Str) : Str :=
  let version := (version.splitOn 47).getLastD []
  if version = ascii "1.1" ∨ version = ascii "1.0" then version
  else
    match Str.splitOnce (ascii ".") version with
    | some (major, minor) =>
        if Str.isdigit major ∧ Str.isdigit minor then
          Str.decimal (Str.digitsValue major) ++ ascii "." ++ Str.decimal (Str.digitsValue minor)
        else version
    | none => version

/-- `data.split(sep, 1)` where there have to be two parts. -/
def splitTwo (sep data : Str) : Except Raised (Str × Str) :=
  (Str.splitOnce sep data).elim (.error .valueError) .ok

/-- `Request.__init__`: without a version in the first line, it may be the second
line. -/
def RequestLine.init (data : Str) : Except Raised RequestLine := do
  let (request, remaining) ← splitTwo (ascii "\n") data
  match Str.words request with
  | [method, uri, version] =>
      return {
        raw := Str.rstrip (ascii "\r") request
        method := Str.upper method
        uri
        version := normalVersion version
        useRaw := false
        remaining }
  | [method, uri] =>
      let (http, rest) ← splitTwo (ascii "\n") remaining
      if isHttp http then
        let version := ((Str.splitOnce (ascii "/") (Str.strip http)).map Prod.snd).getD (Str.strip http)
        return {
          raw := request ++ ascii "\n" ++ http
          method := Str.upper method
          uri
          version := normalVersion version
          useRaw := true
          remaining := rest }
      return {
        raw := request
        method := Str.upper method
        uri
        version := normalVersion (ascii "1.0")
        useRaw := true
        remaining }
  | _ => .error .valueError

/-- `_checkport` -/
def checkPort (port : Str) : Except Raised Nat :=
  if Str.isdigit port then .ok (Str.digitsValue port) else .error .valueError

/-- The protocol of a URI, and what follows it; `://` may also stand in the path. -/
def splitProtocol (uri : Str) : Str × Str :=
  match Str.splitOnce (ascii "://") uri with
  | some (protocol, rest) => if 47 ∈ protocol then (ascii "http", uri) else (protocol, rest)
  | none => (ascii "http", uri)

/-- The host and the port of a URI whose host is not in brackets. -/
def splitPort (host : Str) : Except Raised (Str × Nat) :=
  match Str.splitOnce (ascii ":") host with
  | some (host, port) => (checkPort port).map fun port => (host, port)
  | none => .ok (host, 80)

/-- The port and the path that follow a host in brackets. -/
def splitBracketed (remaining : Str) : Except Raised (Nat × Str) :=
  if 47 ∈ remaining then
    match remaining.splitOn 47 with
    | [port, path] =>
        match port with
        | [] => .ok (80, ascii "/" ++ path)
        | 58 :: port => (checkPort port).map fun port => (port, ascii "/" ++ path)
        | _ => .error .valueError
    | _ => .error .valueError
  else (checkPort remaining).map fun port => (port, [])

/-- The host, the port and the path of a URI without its protocol. -/
def splitUri (uri : Str) : Except Raised (Str × Nat × Str) :=
  match (if uri.head? = some 91 then Str.splitOnce (ascii "]") uri.tail else none) with
  | some (host, remaining) => (splitBracketed remaining).map fun (port, path) => (host, port, path)
  | none =>
      match Str.splitOnce (ascii "/") uri with
      | some (host, path) => (splitPort host).map fun (host, port) => (host, port, ascii "/" ++ path)
      | none => (splitPort uri).map fun (host, port) => (host, port, ascii "/")

/-- `Request.parse` -/
def RequestLine.parse (line : RequestLine) : Except Raised Request :=
  let (protocol, uri) := splitProtocol line.uri
  (splitUri uri).map fun (host, port, path) => { line with protocol, host, port, path }

def Request.parse (data : Str) : Except Raised Request := (RequestLine.init data).bind RequestLine.parse

/-- `Request.__str__` -/
def Request.toStr (request : Request) : Str :=
  if request.useRaw ∨ request.protocol ≠ ascii "http" then request.raw
  else if request.method = ascii "CONNECT" then
    let port := if request.port ≠ 0 then ascii ":" ++ Str.decimal request.port else []
    request.method ++ ascii " " ++ (request.host ++ port) ++ ascii " HTTP/" ++ request.version
  else request.method ++ ascii " " ++ request.path ++ ascii " HTTP/" ++ request.version

end ExaProxy.Http
