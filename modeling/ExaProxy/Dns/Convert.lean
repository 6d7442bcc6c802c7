import ExaProxy.Data.Loop
import ExaProxy.Data.Address
import Mathlib.Algebra.GroupWithZero.Nat

namespace ExaProxy.Dns

open ExaProxy.Data

/-- Why a call does not return: a Python exception, or a loop that is still
running when the fuel is used up. -/
inductive Fault where
  | indexError
  | structError
  | socketError
  | valueError
  | typeError
  | running
deriving DecidableEq, Repr

def u8 (char : UInt8) : Nat := char.toNat

def u16 : Str → Except Fault Nat
  | [high, low] => .ok (u8 high * 2 ^ 8 + u8 low)
  | _ => .error .structError

def u32 : Str → Except Fault Nat
  | [b3, b2, b1, b0] => .ok (u8 b3 * 2 ^ 24 + u8 b2 * 2 ^ 16 + u8 b1 * 2 ^ 8 + u8 b0)
  | _ => .error .structError

/-- `'.'.join(parts)` -/
def joinDots (parts : List Str) : Str := Str.join (ascii ".") parts

/-- The loop of `dns_string`, with its local variables. -/
def dnsStringLoop (remaining : Int) (bytesRead : Nat) (parts : List Str) :
    Str → Except Fault (Option Nat × List Str × Option Nat)
  -- the loop's `else` branch: the data ended before the name did
  | [] => .ok (some bytesRead, [], none)
  | char :: rest =>
      let length := u8 char
      let remaining := remaining - (length + 1)
      if length ≥ 0xc0 then
        match rest with
        | [] => .error .indexError
        | low :: _ => .ok (some (bytesRead + 2), parts, some (((length - 0xc0) <<< 8) + u8 low))
      else if length = 0 then .ok (some (bytesRead + 1), parts, none)
      else if remaining ≤ 0 then .ok (none, [], none)
      else
        dnsStringLoop remaining (bytesRead + length + 1) (parts ++ [rest.take length])
          (rest.drop length)
termination_by s => s.length
decreasing_by simp only [List.length_drop, List.length_cons]; omega

section Equations

variable {remaining : Int} {bytesRead : Nat} {parts : List Str} {char : UInt8} {rest : Str}

theorem dnsStringLoop_zero (zero : u8 char = 0) :
    dnsStringLoop remaining bytesRead parts (char :: rest) =
      .ok (some (bytesRead + 1), parts, none) := by
  rw [dnsStringLoop.eq_def]
  simp [zero]

theorem dnsStringLoop_cut (short : ¬ u8 char ≥ 0xc0) (nonzero : u8 char ≠ 0)
    (cut : remaining - (u8 char + 1) ≤ 0) :
    dnsStringLoop remaining bytesRead parts (char :: rest) = .ok (none, [], none) := by
  rw [dnsStringLoop.eq_def]
  simp only [short, nonzero, cut, if_false, if_true]

theorem dnsStringLoop_label (short : ¬ u8 char ≥ 0xc0) (nonzero : u8 char ≠ 0)
    (enough : ¬ remaining - (u8 char + 1) ≤ 0) :
    dnsStringLoop remaining bytesRead parts (char :: rest) =
      dnsStringLoop (remaining - (u8 char + 1)) (bytesRead + u8 char + 1)
        (parts ++ [rest.take (u8 char)]) (rest.drop (u8 char)) := by
  rw [dnsStringLoop.eq_def]
  simp only [short, nonzero, enough, if_false]

end Equations

/-- `dns_string`: how many bytes were read, the labels read so far and the
pointer they end in.  `parts` is a list on every path, so the name is never
`None`, whatever its last line provides for. -/
def dnsString (s : Str) : Except Fault (Option Nat × Option Str × Option Nat) := do
  let (bytesRead, parts, ptr) ← dnsStringLoop s.length 0 [] s
  return (bytesRead, some (joinDots parts), ptr)

/-- The body of the `while` loop of `dns_to_string_info`, on `parts` and `ptr`. -/
def followPointer (packet : Str) :
    List Str × Nat → (List Str × Nat) ⊕ Except Fault (Option (List Str))
  | (parts, ptr) =>
      match dnsString (packet.drop ptr) with
      | .error fault => .inr (.error fault)
      | .ok (_, none, _) => .inr (.ok none)
      | .ok (_, some value, ptr) =>
          let parts := if value = [] then parts else parts ++ [value]
          if (parts.map List.length).sum > 500 then .inr (.ok none)
          else
            match ptr with
            | none => .inr (.ok (some parts))
            | some ptr => .inl (parts, ptr)

/-- `[value] if value else []` -/
def firstParts : Option Str → List Str
  | some (char :: value) => [char :: value]
  | _ => []

def dnsToStringInfo (fuel : Nat) (s packet : Str) :
    Except Fault (Option Nat × Option Str) := do
  let (bytesRead, value, ptr) ← dnsString s
  match ptr with
  | none => return (bytesRead, some (joinDots (firstParts value)))
  | some ptr =>
      match Loop.run (followPointer packet) fuel (firstParts value, ptr) with
      | none => throw .running
      | some (.error fault) => throw fault
      | some (.ok parts) => return (bytesRead, parts.map joinDots)

def dnsToString (fuel : Nat) (s packet : Str) : Except Fault (Option Str) := do
  let (_, value) ← dnsToStringInfo fuel s packet
  return value

def dnsToIpv4 (ip : Str) : Except Fault Str := (inetNtoa ip).elim (throw .socketError) pure

def dnsToIpv6 (ip : Str) : Except Fault Str := (inetNtop6 ip).elim (throw .valueError) pure

end ExaProxy.Dns
