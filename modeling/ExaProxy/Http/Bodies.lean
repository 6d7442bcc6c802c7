import ExaProxy.Http.Passed

namespace ExaProxy.Http

open ExaProxy.Data

variable {configuration : Configuration} {transparent : Bool} {remoteIp raw : Str} {message : Message}
  {request : Request} {name line value absent : Str} {headers : Headers}

/-- The value of a line, if it is one of a header. -/
def valueOf (name line : Str) : Option Str :=
  if fieldName line = some name then (Str.splitOnce (ascii ":") line).map fun (_, value) => Str.strip value
  else none

/-- The lines of a request's text after its first. -/
def Message.headerLines (message : Message) : List Str :=
  ((message.toStr.splitOn 10).tail).map (Str.stripChars (ascii "\r"))

/-- The value of the first line that a request has under a name, if the proxy does not
remove that header. -/
def Request.told (configuration : Configuration) (transparent : Bool) (request : Request) (name : Str) : Option Str :=
  if Removed configuration transparent request name then none
  else (request.lines name).head?.bind (valueOf name)

theorem Message.Known.plain (known : message.Known) : 10 ∉ message.request.version := by
  rcases known with old | new
  · rw [old]
    decide
  · rw [new]
    decide

end ExaProxy.Http
