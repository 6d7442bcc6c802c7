import ExaProxy.Worker.Serialize

namespace ExaProxy.Worker

open ExaProxy.Data ExaProxy.Http
open ExaProxy.Client (Source)

/-- What such a worker keeps for the answer of its program. -/
inductive IcapKept where
  | request (request : Icap.Request)
  | hello (hostname : Option Str)
  | header (header : Str)

/-- The server that the protocol of the configuration names. -/
def serverOf (protocol : Str) : IcapServer where
  path := protocol
  icapHost := ((protocol.drop (ascii "icap://").length).splitOn 47).headD []

namespace IcapRedirector

variable (configuration : Configuration) (server : IcapServer) (peer : Peer)

/-- `createChildRequest` -/
def createChildRequest (httpHeader : Str) (message : Message) : Str :=
  createRequest server peer message.request message.host none httpHeader

/-- `createICAPRequest`, for the request that was encapsulated.  The request for
options does not look at it. -/
def createICAPRequest (icapMessage : Icap.Request) (httpHeader : Str) : Except Raised Str :=
  if icapMessage.method = ascii "OPTIONS" then .ok (createOptionsRequest server peer)
  else if httpHeader = [] then .error .attributeError
  else
    match Request.parse httpHeader, Message.foundHost configuration.toConfiguration true httpHeader with
    | .ok request, .ok host => .ok (createRequest server peer request host (some icapMessage) httpHeader)
    | _, _ => .error .attributeError

/-- `doICAP`, which returns `None` for what is not a request. -/
def doICAP (icapHeader httpHeader : Str) : Except Raised (Option (Outcome IcapKept)) := do
  match ← Icap.parseRequest icapHeader httpHeader with
  | some icapMessage =>
      let written ← createICAPRequest configuration server peer icapMessage httpHeader
      return some (.deferred written (.other (.request icapMessage)))
  | none => return none

/-- `doTLS` -/
def doTLS (header : Str) : Except Raised (Outcome IcapKept) :=
  (Tls.parseClientHello header).map fun hello =>
    .deferred (createTLSRequest server peer hello header) (.other (.hello hello))

/-- `ICAPRedirector.decide`, while the program is alive and reads what is written. -/
def decide (source : Source) (header subheader : Str) : Except Raised (Option (Outcome IcapKept)) :=
  match source with
  | .icap => doICAP configuration server peer header subheader
  | .proxy => (doHTTP configuration peer (createChildRequest server peer header) header).map some
  | .web => (doMonitor configuration peer header).map some
  | .tls => (doTLS server peer header).map some
  | .passthrough =>
      .ok (some (.deferred (createPassthroughRequest server peer) (.other (.header header))))

end IcapRedirector

end ExaProxy.Worker
