import ExaProxy.Content.Manager
import ExaProxy.Http.Message

namespace ExaProxy.Worker

open ExaProxy.Data ExaProxy.Http
open ExaProxy.Content (Decision)

/-- `ResponseEncoder.download` -/
def download (host port upgrade : Str) (message : Message) : Decision :=
  .download host port upgrade message.contentLength.toStr message.toStr

/-- `ResponseEncoder.rewrite`, for a file. -/
def rewrite (file : Str) (message : Message) : Decision :=
  .rewrite (ascii "200") file [] message.request.protocol message.url message.host message.client

/-- What the program of the redirector says of a request. -/
inductive Classification where
  | permit
  | rewrite (path : Str)
  | file (name : Str)
  | redirect (url : Str)
  | intercept (destination : Str)
  | http (data : Str)
deriving DecidableEq, Repr

/-- What follows the start of a text, if that is how it starts. -/
def afterPrefix (start data : Str) : Option Str :=
  if start <+: data then some (data.drop start.length) else none

/-- `classifyURL`: a URL is compared with an attribute that a request does not have. -/
def classifyURL (response : Str) : Except Raised Classification :=
  if response = [] then .ok .permit
  else if (afterPrefix (ascii "http://") response).isSome then .error .attributeError
  else
    match afterPrefix (ascii "file://") response with
    | some name => .ok (.file name)
    | none =>
        match afterPrefix (ascii "intercept://") response with
        | some destination => .ok (.intercept destination)
        | none =>
            match afterPrefix (ascii "redirect://") response with
            | some url => .ok (.redirect url)
            | none => .ok (.file (ascii "internal_error.html"))

def splithost (data : Str) (defaultPort : Nat) : Str × Str :=
  match Str.splitOnce (ascii ":") data with
  | some (host, port) => (host, if Str.isdigit port then port else Str.decimal defaultPort)
  | none => (data, Str.decimal defaultPort)

/-- `contentResponse` -/
def contentResponse (message : Message) : Classification → Except Raised Decision
  | .permit => .ok (download message.host (Str.decimal message.port) message.upgrade message)
  | .rewrite path =>
      (message.redirect path).map fun message =>
        download message.host (Str.decimal message.port) [] message
  | .file name => .ok (rewrite name message)
  | .redirect url => .ok (.redirect url)
  | .intercept destination =>
      let (host, port) := splithost destination message.port
      .ok (download host port [] message)
  | .http data => .ok (.http data)

/-- `connectResponse`; a request for a tunnel cannot be rewritten. -/
def connectResponse (message : Message) : Classification → Decision
  | .permit | .rewrite _ => .connect message.host (Str.decimal message.port) []
  | .file name => rewrite name message
  | .redirect url => .redirect url
  | .intercept destination =>
      let (host, port) := splithost destination message.port
      .intercept host port message.toStr
  | .http data => .http data

end ExaProxy.Worker
