import ExaProxy.Data.Methods

namespace ExaProxy.Http

open ExaProxy.Data

/-- What a server says of itself: `time.strftime('%c %Z')`, the version and
`sys.platform`. -/
structure Banner where
  date : Str
  version : Str
  platform : Str

/-- `_HTTP_NAMES` -/
def httpNames : List (Nat × String) := [
  (100, "CONTINUE"), (101, "SWITCHING PROTOCOLS"), (200, "OK"), (201, "CREATED"), (202, "ACCEPTED"),
  (203, "NON-AUTHORITATIVE INFORMATION"), (204, "NO CONTENT"), (205, "RESET CONTENT"),
  (206, "PARTIAL CONTENT"), (226, "IM USED"), (300, "MULTIPLE CHOICES"), (301, "MOVED PERMANENTLY"),
  (302, "FOUND"), (303, "SEE OTHER"), (304, "NOT MODIFIED"), (305, "USE PROXY"), (306, "RESERVED"),
  (307, "TEMPORARY REDIRECT"), (400, "BAD REQUEST"), (401, "UNAUTHORIZED"), (402, "PAYMENT REQUIRED"),
  (403, "FORBIDDEN"), (404, "NOT FOUND"), (405, "METHOD NOT ALLOWED"), (406, "NOT ACCEPTABLE"),
  (407, "PROXY AUTHENTICATION REQUIRED"), (408, "REQUEST TIMEOUT"), (409, "CONFLICT"), (410, "GONE"),
  (411, "LENGTH REQUIRED"), (412, "PRECONDITION FAILED"), (413, "REQUEST ENTITY TOO LARGE"),
  (414, "REQUEST-URI TOO LONG"), (415, "UNSUPPORTED MEDIA TYPE"), (416, "REQUESTED RANGE NOT SATISFIABLE"),
  (417, "EXPECTATION FAILED"), (500, "INTERNAL SERVER ERROR"), (501, "NOT IMPLEMENTED"),
  (502, "BAD GATEWAY"), (503, "SERVICE UNAVAILABLE"), (504, "GATEWAY TIMEOUT"),
  (505, "HTTP VERSION NOT SUPPORTED")]

def nameOf (code : Nat) : Str := ascii ((httpNames.lookup code).getD "-")

/-- `http(code, message, protocol)` -/
def http (banner : Banner) (code : Nat) (message protocol : Str) : Str :=
  let encoding := if ascii "<html" <+: Str.lower (message.take 5) then ascii "html" else ascii "plain"
  Str.join (ascii "\r\n") [
    ascii "HTTP/" ++ protocol ++ ascii " " ++ Str.decimal code ++ ascii " " ++ nameOf code,
    ascii "Date: " ++ banner.date,
    ascii "Server: exaproxy/" ++ banner.version ++ ascii " (" ++ banner.platform ++ ascii ")",
    ascii "Content-Length: " ++ Str.decimal message.length,
    ascii "Content-Type: text/" ++ encoding,
    ascii "Cache-Control: no-store",
    ascii "Pragma: no-cache",
    [],
    message]

end ExaProxy.Http
