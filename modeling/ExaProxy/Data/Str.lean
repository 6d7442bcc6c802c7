import Mathlib.Data.List.Basic

namespace ExaProxy.Data

/-- A Python byte string. -/
abbrev Str := List UInt8

instance : LawfulBEq Str := inferInstanceAs (LawfulBEq (List UInt8))

/-- The bytes of an ASCII literal. -/
def ascii (text : String) : Str := text.toList.map fun char => UInt8.ofNat char.toNat

namespace Str

/-- `s[low:high]` for a slice with bounds from the left. -/
def slice (s : Str) (low high : Nat) : Str := (s.drop low).take (high - low)

/-- `sep.join(parts)` -/
def join (sep : Str) (parts : List Str) : Str := List.intercalate sep parts

/-- `'%d' % number`, for a number that is not negative. -/
def decimal (number : Nat) : Str := ascii (String.ofList (Nat.toDigits 10 number))

/-- `'%x' % number` -/
def hex (number : Nat) : Str := ascii (String.ofList (Nat.toDigits 16 number))

end Str

end ExaProxy.Data
