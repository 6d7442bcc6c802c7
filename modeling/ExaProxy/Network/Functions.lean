import ExaProxy.Data.Methods

namespace ExaProxy.Network

open ExaProxy.Data

/-- A number of a dotted address; a zero is only followed by a dot. -/
def isOctet (part : Str) : Bool :=
  Str.isdigit part ∧ Str.digitsValue part ≤ 255 ∧ (part.head? = some 48 → part.length = 1)

def inetPton4 (address : Str) : Bool :=
  (address.splitOn 46).length = 4 ∧ (address.splitOn 46).all isOctet

def isHexDigit (byte : UInt8) : Bool :=
  Str.isDigit byte ∨ 97 ≤ byte ∧ byte ≤ 102 ∨ 65 ≤ byte ∧ byte ≤ 70

/-- What was read of an IPv6 address: the token that is being read, how many
digits it has, the bytes that are known, and whether there was a gap. -/
structure Pton where
  token : Str
  digits : Nat := 0
  written : Nat := 0
  gap : Bool := false

/-- The whole words are there, or some are left out where the gap is. -/
def Pton.complete (state : Pton) : Bool :=
  let written := if state.digits > 0 then state.written + 2 else state.written
  written ≤ 16 ∧ if state.gap then written ≠ 16 else written = 16

/-- The loop of `inet_pton` over an IPv6 address. -/
def Pton.run : Pton → Str → Bool
  | state, [] => state.complete
  | state, char :: rest =>
      if isHexDigit char then
        state.digits ≠ 4 ∧ run { state with digits := state.digits + 1 } rest
      else if char = 58 then
        if state.digits = 0 then
          state.gap = false ∧ run { state with token := rest, gap := true } rest
        else
          rest ≠ [] ∧ state.written + 2 ≤ 16 ∧
            run { state with token := rest, digits := 0, written := state.written + 2 } rest
      else
        char = 46 ∧ state.written + 4 ≤ 16 ∧ inetPton4 state.token ∧
          { state with digits := 0, written := state.written + 4 }.complete

def inetPton6 (address : Str) : Bool :=
  match address with
  | [] => false
  | 58 :: 58 :: rest => Pton.run { token := 58 :: rest } (58 :: rest)
  | 58 :: _ => false
  | address => Pton.run { token := address } address

/-- `isip`, which raises for a text with a null byte. -/
def isip (address : Str) : Except Raised Bool :=
  if 0 ∈ address then .error .typeError else .ok (inetPton4 address || inetPton6 address)

theorem isip_empty : isip [] = .ok false := rfl

example : [ascii "10.0.0.1", ascii "::1", ascii "::ffff:10.0.0.1", ascii "1:2:3:4:5:6:7:8"].all
    (fun address => isip address = .ok true) = true := by decide +kernel

example : [ascii "10.0.0", ascii "10.0.0.01", ascii "a.b", ascii ":1", ascii "1::2::3"].all
    (fun address => isip address = .ok false) = true := by decide +kernel

end ExaProxy.Network
