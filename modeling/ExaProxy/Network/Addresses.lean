import ExaProxy.Data.Address
import ExaProxy.Data.Bytes
import ExaProxy.Network.Functions

namespace ExaProxy.Network

open Data

inductive Family where
  | inet | inet6
deriving DecidableEq, Repr

def Family.size : Family → Nat
  | .inet => 4
  | .inet6 => 16

/-- The bytes of a dotted address. -/
def octets (address : Str) : Str := (address.splitOn 46).map fun part => UInt8.ofNat (Str.digitsValue part)

def hexDigit (byte : UInt8) : Nat :=
  if byte ≤ 57 then byte.toNat - 48 else if byte ≤ 70 then byte.toNat - 55 else byte.toNat - 87

/-- What was read of an IPv6 address, as in `Pton`, with the value of the word that is
being read, the bytes that are known, and where among them the gap is. -/
structure Words where
  token : Str
  value : Nat := 0
  digits : Nat := 0
  bytes : Str := []
  gap : Option Nat := none

namespace Words

def written (state : Words) : Str :=
  if state.digits > 0 then state.bytes ++ Str.bytes 2 state.value else state.bytes

def finish (state : Words) : Option Str :=
  match state.gap with
  | none => if state.written.length = 16 then some state.written else none
  | some gap =>
      if state.written.length < 16 then
        let zeros := List.replicate (16 - state.written.length) 0
        some (state.written.take gap ++ zeros ++ state.written.drop gap)
      else none

def run : Words → Str → Option Str
  | state, [] => state.finish
  | state, char :: rest =>
      if isHexDigit char then
        if state.digits = 4 then none
        else run { state with value := 16 * state.value + hexDigit char, digits := state.digits + 1 } rest
      else if char = 58 then
        if state.digits = 0 then
          if state.gap.isSome then none
          else run { state with token := rest, gap := some state.bytes.length } rest
        else if rest = [] ∨ state.bytes.length + 2 > 16 then none
        else run { state with token := rest, value := 0, digits := 0, bytes := state.written } rest
      else if char = 46 ∧ state.bytes.length + 4 ≤ 16 ∧ inetPton4 state.token then
        { state with digits := 0, bytes := state.bytes ++ octets state.token }.finish
      else none

def read (address : Str) : Option Str :=
  match address with
  | [] => none
  | 58 :: 58 :: rest => run { token := 58 :: rest } (58 :: rest)
  | 58 :: _ => none
  | address => run { token := address } address

end Words

def inetPton : Family → Str → Option Str
  | .inet, address => if inetPton4 address then some (octets address) else none
  | .inet6, address => Words.read address

def inetNtop : Family → Str → Option Str
  | .inet => inetNtoa
  | .inet6 => inetNtop6

theorem octets_length {address : Str} (dotted : inetPton4 address = true) : (octets address).length = 4 := by
  simp only [inetPton4, decide_eq_true_eq] at dotted
  rw [octets, List.length_map, dotted.1]

/-- What is accepted does not depend on the values. -/
def Words.forget (state : Words) : Pton := ⟨state.token, state.digits, state.bytes.length, state.gap.isSome⟩

theorem written_length (state : Words) : state.written.length =
    if state.digits > 0 then state.bytes.length + 2 else state.bytes.length := by
  rw [Words.written]
  split <;> simp

theorem finish_isSome (state : Words) : state.finish.isSome = state.forget.complete := by
  rw [Words.finish, Pton.complete, Words.forget, Bool.eq_iff_iff]
  simp only [← written_length]
  cases state.gap with
  | none => by_cases whole : state.written.length = 16 <;> simp [whole]
  | some gap =>
      by_cases short : state.written.length < 16
      · simp only [short, short.ne, if_true, Option.isSome_some, ne_eq, not_false_eq_true, and_true,
          decide_eq_true_eq, true_iff]
        omega
      · have wide : 16 ≤ state.written.length := Nat.le_of_not_lt short
        simp only [short, if_false, Option.isSome_none, Bool.false_eq_true, Option.isSome_some, if_true,
          decide_eq_true_eq, false_iff]
        omega

theorem run_isSome (text : Str) (state : Words) : (state.run text).isSome = Pton.run state.forget text := by
  induction text generalizing state with
  | nil => exact finish_isSome state
  | cons char rest ih =>
      obtain ⟨token, value, digits, bytes, gap⟩ := state
      change _ = Pton.run ⟨token, digits, bytes.length, gap.isSome⟩ (char :: rest)
      rw [Words.run, Pton.run]
      simp only [Words.forget] at ih ⊢
      split_ifs with hex full colon first gapped last dotted
      · simp [full]
      · simp [full, ih]
      · simp [first, gapped]
      · simp [first, gapped, ih]
      · refine (decide_eq_false ?_).symm
        intro given
        obtain ⟨filled, room, -⟩ := given
        exact last.elim filled room.not_gt
      · simp only [not_or, gt_iff_lt, Nat.not_lt] at last
        simp [last, ih, written_length, Nat.pos_of_ne_zero first]
      · simp [dotted, finish_isSome, Words.forget, octets_length]
      · refine (decide_eq_false ?_).symm
        tauto

theorem inetPton_isSome (address : Str) : (inetPton .inet address).isSome = inetPton4 address ∧
    (inetPton .inet6 address).isSome = inetPton6 address := by
  constructor
  · by_cases dotted : inetPton4 address = true <;> simp [inetPton, dotted]
  · simp only [inetPton, Words.read, inetPton6]
    split <;> simp [run_isSome, Words.forget]

theorem finish_length {state : Words} {bytes : Str} (finished : state.finish = some bytes) :
    bytes.length = 16 := by
  rw [Words.finish] at finished
  split at finished
  · split_ifs at finished with whole
    cases finished
    exact whole
  · split_ifs at finished with short
    cases finished
    simp only [List.length_append, List.length_take, List.length_replicate, List.length_drop]
    omega

theorem run_length {text bytes : Str} {state : Words} (read : state.run text = some bytes) :
    bytes.length = 16 := by
  induction text generalizing state with
  | nil => exact finish_length read
  | cons char rest ih =>
      rw [Words.run] at read
      split_ifs at read
      · exact ih read
      · exact ih read
      · exact ih read
      · exact finish_length read

theorem inetPton_length {family : Family} {address bytes : Str} (read : inetPton family address = some bytes) :
    bytes.length = family.size := by
  cases family with
  | inet =>
      simp only [inetPton] at read
      split_ifs at read with dotted
      cases read
      exact octets_length dotted
  | inet6 =>
      simp only [inetPton, Words.read] at read
      split at read
      · cases read
      · exact run_length read
      · cases read
      · exact run_length read

end ExaProxy.Network
