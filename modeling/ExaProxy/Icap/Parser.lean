import ExaProxy.Data.Dictionary
import ExaProxy.Data.Methods

namespace ExaProxy.Icap

open ExaProxy.Data

def versions : List Str := [ascii "ICAP/1.0"]

def methods : List Str := ["REQMOD", "OPTIONS"].map ascii

/-- `HEADERS` -/
def headerNames : List Str :=
  ["cache-control", "connection", "date", "trailer", "upgrade", "via", "authorization", "allow", "from",
    "host", "referer", "user-agent", "preview", "encapsulated", "proxy-authenticate",
    "proxy-authorization", "istag"].map ascii

/-- The headers that are known, and the pragmas by their own names. -/
structure Headers where
  fields : AList (fun _ : Str => Str) := ∅
  pragma : AList (fun _ : Str => Str) := ∅

/-- `headers.get(key, '')` -/
def Headers.get (headers : Headers) (key : Str) : Str := (headers.fields.lookup key).getD []

/-- `ICAPRequest`, where `offsets` are the pairs that its dictionary is made of. -/
structure Request where
  method : Str
  url : Str
  version : Str
  headers : Headers
  icapHeader : Str
  httpHeader : Str
  offsets : List (Str × Nat)
  contentLength : Nat
  complete : Bool

/-- `parseRequestLine`, with `none` where there are not three words. -/
def parseRequestLine (line : Str) : Option (Str × Str × Str) :=
  match Str.words line with
  | [method, url, version] => some (Str.upper method, url, Str.upper version)
  | _ => none

/-- What a line adds to the headers. -/
def Headers.add (headers : Headers) (key value : Str) : Headers :=
  let key := Str.strip (Str.lower key)
  let value := Str.strip value
  let headers :=
    if key ∈ headerNames ∨ ascii "x-" <+: key then
      { headers with fields := headers.fields.insert key value }
    else headers
  if key = ascii "pragma" then
    match Str.splitOnce (ascii ":") value with
    | some (pkey, pvalue) =>
        { headers with
          pragma := headers.pragma.insert (Str.strip (Str.lower pkey)) (Str.strip pvalue) }
    | none => headers
  else headers

/-- `readHeaders`, with `none` for a line that has no colon. -/
def readHeaders : List Str → Headers → Option Headers
  | [], headers => some headers
  | line :: rest, headers =>
      if line = [] then some headers
      else
        match Str.splitOnce (ascii ":") line with
        | some (key, value) => readHeaders rest (headers.add key value)
        | none => none

/-- `getOffsets`: the numbers in a list of names and numbers, in their order. -/
def getOffsets (encapsulated : Str) : List (Str × Nat) :=
  let parts := ((encapsulated.splitOn 44).filter (61 ∈ ·)).map Str.strip
  let pairs := parts.filterMap (Str.splitOnce (ascii "="))
  let offsets := pairs.filterMap fun (name, value) =>
    if Str.isdigit value then some (name, Str.digitsValue value) else none
  offsets.mergeSort fun first second => first.2 ≤ second.2

/-- `getBodyLength` -/
def getBodyLength (offsets : List (Str × Nat)) : Nat × Bool :=
  match offsets.getLast? with
  | some (final, offset) => (offset, final = ascii "null-body")
  | none => (0, true)

/-- The parts of a message that only answers have. -/
def responseParts : List Str := ["res-hdr", "res-body"].map ascii

/-- The last part of a URL, which names the customer. -/
def siteName (url : Str) : Str :=
  if 44 ∈ url then (url.splitOn 44).getLastD [] else ascii "default"

/-- The lines of a header, whichever way they end. -/
def linesOf (icapString : Str) : List Str :=
  (Str.split (ascii "\r\n") icapString).flatMap fun part => part.splitOn 10

/-- `parseRequest`, with `none` for what is not a request.  A header is written to the
headers that were read, even if there are none. -/
def parseRequest (icapString httpString : Str) : Except Raised (Option Request) :=
  match parseRequestLine ((linesOf icapString).headD []) with
  | some (method, url, version) =>
      if method ∈ methods ∧ version ∈ versions then
        match readHeaders (linesOf icapString).tail {} with
        | some headers =>
            let headers :=
              { headers with fields := headers.fields.insert (ascii "x-customer-name") (siteName url) }
            let offsets := getOffsets (headers.get (ascii "encapsulated"))
            let (contentLength, complete) := getBodyLength offsets
            if ∃ pair ∈ offsets, pair.1 ∈ responseParts then .ok none
            else
              .ok (some {
                method, url, version, headers, offsets, contentLength, complete
                icapHeader := icapString
                httpHeader := httpString })
        | none => .error .typeError
      else .ok none
  | none => .ok none

end ExaProxy.Icap
