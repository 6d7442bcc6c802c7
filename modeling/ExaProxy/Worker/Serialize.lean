import ExaProxy.Icap.Parser
import ExaProxy.Worker.Redirector

namespace ExaProxy.Worker

open ExaProxy.Data

/-- Where the ICAP server is, and what it is asked for. -/
structure IcapServer where
  path : Str
  icapHost : Str

variable (server : IcapServer) (peer : Peer)

/-- `createOptionsRequest` -/
def createOptionsRequest : Str :=
  Str.join (ascii "\n") [
    ascii "OPTIONS " ++ server.path ++ ascii " ICAP/1.0",
    ascii "Pragma: transport=",
    ascii "Pragma: proxy=test",
    ascii "Pragma: scheme=",
    ascii "Pragma: accept=" ++ peer.acceptAddr,
    ascii "Pragma: accept-port=" ++ peer.acceptPort,
    ascii "Pragma: client=" ++ peer.peer,
    ascii "Pragma: host=",
    ascii "Pragma: path=",
    ascii "Pragma: method=",
    ascii "Encapsulated: req-hdr=0, null-body=0",
    [], [], []]

/-- The lines that a request for the server starts with. -/
def requestLines (transport host path method : Str) : List Str := [
  ascii "REQMOD " ++ server.path ++ ascii " ICAP/1.0",
  ascii "Host: " ++ server.icapHost,
  ascii "Pragma: transport=" ++ transport,
  ascii "Pragma: proxy=test",
  ascii "Pragma: scheme=http",
  ascii "Pragma: accept=" ++ peer.acceptAddr,
  ascii "Pragma: accept-port=" ++ peer.acceptPort,
  ascii "Pragma: client=" ++ peer.peer,
  ascii "Pragma: host=" ++ host,
  ascii "Pragma: path=" ++ path,
  ascii "Pragma: method=" ++ method]

/-- What is passed on of a request's headers, where it is not empty. -/
def passedHeaders (icapMessage : Option Icap.Request) : List Str :=
  [("X-Client-IP: ", "x-client-ip"), ("X-Authenticated-User: ", "x-authenticated-user"),
    ("X-Authenticated-Groups: ", "x-authenticated-groups"), ("X-Customer-Name: ", "x-customer-name"),
    ("Allow: ", "allow")].filterMap fun (start, key) =>
      (icapMessage.map fun message => Str.strip (message.headers.get (ascii key))).bind fun value =>
        if value = [] then none else some (ascii start ++ value)

/-- The end of a request, with what it encapsulates. -/
def encapsulate (lines : List Str) (header : Str) : Str :=
  Str.join (ascii "\n") (lines ++
    [ascii "Encapsulated: req-hdr=0, null-body=" ++ Str.decimal header.length, [], header])

/-- `createRequest` -/
def createRequest (request : Http.Request) (host : Str) (icapMessage : Option Icap.Request)
    (httpHeader : Str) : Str :=
  encapsulate (requestLines server peer request.protocol host request.path request.method ++
    passedHeaders icapMessage) httpHeader

/-- `TLSSerializer.serialize` -/
def createTLSRequest (hostname : Option Str) (tlsHeader : Str) : Str :=
  encapsulate (requestLines server peer (ascii "tls") (hostname.getD []) [] (ascii "TLS")) tlsHeader

/-- `PassthroughSerializer.serialize` -/
def createPassthroughRequest : Str :=
  encapsulate [
    ascii "REQMOD " ++ server.path ++ ascii " ICAP/1.0",
    ascii "Host: " ++ server.icapHost,
    ascii "Pragma: transport=tcp",
    ascii "Pragma: accept=" ++ peer.acceptAddr,
    ascii "Pragma: accept-port=" ++ peer.acceptPort,
    ascii "Pragma: client=" ++ peer.peer,
    ascii "Pragma: method=TCP"] []

end ExaProxy.Worker
