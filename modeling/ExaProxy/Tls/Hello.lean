import ExaProxy.Data.Methods
import Mathlib.Algebra.Group.Nat.Defs

namespace ExaProxy.Tls

open ExaProxy.Data

/-! The server's name in a TLS record.  What `parse_hello` reads beyond the end of a
record is `None`, or raises where it unpacks two bytes. -/

/-- `short` -/
def short : Str → Except Raised Nat
  | [high, low] => .ok (256 * high.toNat + low.toNat)
  | _ => .error .structError

/-- The extension for the server's name, without its header and its outer length;
`fuel` is at least the number of bytes. -/
def findExtension : Nat → Str → Except Raised Str
  | 0, _ => .ok []
  | fuel + 1, data => do
      if data = [] then return []
      let length ← short (data.slice 2 4)
      let kind ← short (data.slice 0 2)
      if kind = 0 then return data.slice 6 (length + 4)
      findExtension fuel (data.drop (length + 4))

/-- The first name of a list that is a host's. -/
def findName : Nat → Str → Except Raised (Option Str)
  | 0, _ => .ok none
  | fuel + 1, data => do
      if data = [] then return none
      let length ← short (data.slice 1 3)
      if data.head? = some 0 then return some (data.slice 3 (length + 3))
      findName fuel (data.drop (length + 3))

/-- The name in the extensions. -/
def parseExtensions (data : Str) : Except Raised (Option Str) := do
  let length ← short (data.take 2)
  let extensions := (data.drop 2).take length
  let names ← findExtension extensions.length extensions
  findName names.length names

/-- What follows a field whose length is in its first byte. -/
def skipField : Str → Option Str
  | [] => none
  | length :: rest => some (rest.drop length.toNat)

/-- The name in a hello, without the fields whose lengths are fixed. -/
def parseFields (data : Str) : Except Raised (Option Str) :=
  match skipField data with -- session ID
  | none => .ok none
  | some data => do
      let length ← short (data.take 2) -- cipher suites
      match skipField (data.drop (length + 2)) with -- compression methods
      | none | some [] => return none
      | some data => parseExtensions data

/-- `parse_hello` -/
def parseHello : Str → Except Raised (Option Str)
  | contentType :: major :: minor :: high :: low :: data =>
      match data with
      | [] => .ok none
      | handshake :: _ =>
          if contentType ≠ 0x16 then .ok none
          else if contentType &&& 0x80 ≠ 0 ∧ minor = 1 then .ok none
          else if major < 3 then .ok none
          else if handshake ≠ 1 then .ok none
          else parseFields ((data.take (256 * high.toNat + low.toNat + 5)).drop 38)
  | _ => .ok none

/-- `parseClientHello`: the name, if there is one. -/
def parseClientHello (header : Str) : Except Raised (Option Str) :=
  (parseHello header).map fun hostname => hostname.filter (· ≠ [])

end ExaProxy.Tls
