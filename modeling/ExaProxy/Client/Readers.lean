import ExaProxy.Client.Manager
import ExaProxy.Client.Terminators

namespace ExaProxy.Client

open ExaProxy.Data

/-! The readers of the classes of clients.  Only the one of `ICAPClient` is left
open. -/

/-- `ProxyProtocol`, where `ip4` and `ip6` are what `inet_aton` and `inet_pton`
accept. -/
structure ProxyProtocol where
  ip4 : Str → Bool
  ip6 : Str → Bool

namespace ProxyProtocol

variable (protocol : ProxyProtocol)

/-- `parse`: the address that the proxy claims, and what follows its line. -/
def parse (header : Str) : Option (Str × Str) :=
  match Str.splitOnce crlf header with
  | none => none
  | some (proxyLine, request) =>
      match proxyLine.splitOn 32 with
      | [magic, fproto, source, _, _, _] =>
          if magic = ascii "PROXY" ∧ (fproto = ascii "TCP4" ∧ protocol.ip4 source ∨
              fproto = ascii "TCP6" ∧ protocol.ip6 source) then some (source, request)
          else none
      | _ => none

/-- `processProxyHeader`, for the ends of a header that a class of clients looks
for: the address, empty where there is no header yet, what is left of the buffer,
and whether the header was found. -/
def processHeader (ends : List Str) (rBuffer : Str) : Option (Str × Str × Bool) :=
  let rBuffer := Str.lstrip crlf rBuffer
  if ends.any fun «end» => Str.includes «end» rBuffer then
    (protocol.parse rBuffer).map fun (clientIp, rest) => (clientIp, rest, true)
  else some ([], rBuffer, false)

end ProxyProtocol

/-- What the configuration says of the readers: how long headers may be, and
whether the clients of a server come through a proxy. -/
structure Settings where
  protocol : ProxyProtocol
  httpMaxBuffer : Nat
  tlsMaxBuffer : Nat
  proxied : Source → Bool

/-- The reader of `HTTPClient`: in mode `proxy` while it waits for the header of
the proxy protocol, and then as `Reader` is. -/
structure HttpReader where
  proxied : Bool
  reader : Reader := {}
deriving DecidableEq, Repr

namespace HttpReader

def resume (settings : Settings) (mode : Mode) (nbToSend : Nat) :
    List Recv → HttpReader → Yielded × HttpReader
  | recvs, ⟨false, reader⟩ =>
      let (yielded, reader) :=
        reader.resume settings.httpMaxBuffer mode nbToSend (recvs.headD .wouldBlock)
      (yielded, ⟨false, reader⟩)
  | [], client => (.nothing, client)
  | .wouldBlock :: _, client => (.nothing, client)
  | .error :: _, client => (.closed, client)
  | .data [] :: _, client => (.closed, client)
  | .data bytes :: recvs, ⟨true, reader⟩ =>
      match settings.protocol.processHeader eors (reader.rBuffer ++ bytes) with
      | none => (.closed, ⟨true, reader⟩)
      | some (clientIp, rBuffer, found) =>
          if clientIp = [] then
            resume settings mode nbToSend recvs ⟨!found, { reader with rBuffer }⟩
          else
            let (yielded, reader) := { reader with rBuffer }.turn settings.httpMaxBuffer
            (yielded, ⟨false, reader⟩)

end HttpReader

inductive TlsMode where
  | proxy | tls | passthrough | other
deriving DecidableEq, Repr

/-- The reader of `TLSClient`.  The size of the record is 0 where it is not known
yet, and `none` after a buffer that was too short for it. -/
structure TlsReader where
  mode : TlsMode
  rBuffer : Str := []
  size : Option Nat := some 0
  awaiting : Bool := false
deriving DecidableEq, Repr

/-- `get_tls_hello_size`, for a buffer that holds a header. -/
def getTlsHelloSize (data : Str) : Nat := 256 * (data.getD 3 0).toNat + (data.getD 4 0).toNat + 5

namespace TlsReader

/-- `checkRequest`, with `none` for a record that is too long. -/
def checkRequest (rBuffer : Str) (maxLength : Nat) (size : Option Nat) :
    Option (Str × Str × Option Nat) :=
  match size with
  | none => none
  | some size =>
      if size = 0 ∧ rBuffer.length < 5 then some ([], rBuffer, none)
      else
        let size := if size = 0 then getTlsHelloSize rBuffer else size
        if size = 0 ∨ size > maxLength then none
        else if rBuffer.length ≥ size then some (rBuffer.take size, rBuffer.drop size, some size)
        else some ([], rBuffer, some size)

/-- The body of the loop, after the header of a proxy. -/
def turn (settings : Settings) (client : TlsReader) : Yielded × TlsReader :=
  match client.mode with
  | .tls =>
      match checkRequest client.rBuffer settings.tlsMaxBuffer client.size with
      | none => (.closed, client)
      | some (tlsHeader, rBuffer, size) =>
          if tlsHeader ≠ [] then
            (.request tlsHeader, { client with rBuffer, size := some 0, awaiting := true })
          else (.nothing, { client with rBuffer, size })
  | .passthrough =>
      (if client.rBuffer ≠ [] then .content client.rBuffer else .nothing,
        { client with rBuffer := [] })
  | .proxy | .other => (.closed, client)

/-- The mode that is sent to the coroutine. -/
def accept (client : TlsReader) (mode : Mode) : TlsReader :=
  if client.awaiting then
    { client with
      mode := if mode = .passthrough then .passthrough else .other
      awaiting := false }
  else client

def resume (settings : Settings) : List Recv → TlsReader → Yielded × TlsReader
  | recvs, client =>
      if client.mode = .passthrough ∧ client.rBuffer ≠ [] then client.turn settings
      else
        match recvs with
        | [] => (.nothing, client)
        | .wouldBlock :: _ => (.nothing, client)
        | .error :: _ => (.closed, client)
        | .data [] :: _ => (.closed, client)
        | .data bytes :: recvs =>
            let client := { client with rBuffer := client.rBuffer ++ bytes }
            if client.mode = .proxy then
              match settings.protocol.processHeader [crlf, [10]] client.rBuffer with
              | none => (.closed, client)
              | some (clientIp, rBuffer, found) =>
                  let client := { client with rBuffer, mode := if found then .tls else .proxy }
                  if clientIp = [] then resume settings recvs client else client.turn settings
            else client.turn settings

end TlsReader

/-- The reader of `PassthroughClient`, which never comes through a proxy. -/
def passthroughRead (recv : Recv) : Yielded :=
  match recv with
  | .data [] => .closed
  | .data bytes => .content bytes
  | .wouldBlock => .nothing
  | .error => .closed

inductive AnyReader (ι : Type) where
  | http (reader : HttpReader)
  | tls (reader : TlsReader)
  | passthrough
  | icap (reader : ι)

/-- How the classes of clients read, with `icap` for `ICAPClient`. -/
def readers {ι : Type} (settings : Settings) (icap : Readers ι) : Readers (AnyReader ι) where
  start
    | .proxy => .http ⟨settings.proxied .proxy, {}⟩
    | .web => .http ⟨false, {}⟩
    | .tls => .tls { mode := if settings.proxied .tls then .proxy else .tls }
    | .passthrough => .passthrough
    | .icap => .icap (icap.start .icap)
  readData
    | .http reader, recv =>
        let (yielded, reader) := reader.resume settings .newRequest 0 recv
        (yielded, .http reader)
    | .tls reader, recv =>
        let (yielded, reader) := (reader.accept .newRequest).resume settings recv
        (yielded, .tls reader)
    | .passthrough, recv => (passthroughRead (recv.headD .wouldBlock), .passthrough)
    | .icap reader, recv =>
        let (yielded, reader) := icap.readData reader recv
        (yielded, .icap reader)
  readRelated
    | .http reader, mode, remaining, recv =>
        let (yielded, reader) := reader.resume settings mode remaining recv
        (yielded, .http reader)
    | .tls reader, mode, _, recv =>
        let (yielded, reader) := (reader.accept mode).resume settings recv
        (yielded, .tls reader)
    | .passthrough, _, _, recv => (passthroughRead (recv.headD .wouldBlock), .passthrough)
    | .icap reader, mode, remaining, recv =>
        let (yielded, reader) := icap.readRelated reader mode remaining recv
        (yielded, .icap reader)

end ExaProxy.Client
