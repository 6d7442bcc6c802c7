import ExaProxy.Data.Str

namespace ExaProxy.Data

/-- The dotted text of an IPv4 address, for four bytes only. -/
def inetNtoa : Str → Option Str
  | [a, b, c, d] => some (Str.join (ascii ".") ([a, b, c, d].map fun byte => Str.decimal byte.toNat))
  | _ => none

/-- The longest run of zero words, the first one of that length, as its start
and its length. -/
def zeroRun (words : List Nat) : Nat × Nat :=
  let runs := (List.range words.length).map fun start =>
    (start, ((words.drop start).takeWhile (· == 0)).length)
  runs.foldl (fun best run => if run.2 > best.2 then run else best) (0, 0)

def hexWords (words : List Nat) : Str := Str.join (ascii ":") (words.map Str.hex)

/-- The text of an IPv6 address of sixteen bytes: one run of at least two zero
words is left out, and an embedded IPv4 address is written with dots. -/
def inetNtop6 (address : Str) : Option Str :=
  if address.length ≠ 16 then none
  else
    let words := (List.range 8).map fun i =>
      (address.getD (2 * i) 0).toNat * 256 + (address.getD (2 * i + 1) 0).toNat
    let (start, count) := zeroRun words
    if count < 2 then some (hexWords words)
    else if start = 0 ∧ (count = 6 ∨ (count = 5 ∧ words.getD 5 0 = 0xffff)) then
      let head := if count = 6 then ascii "::" else ascii "::ffff:"
      (inetNtoa (address.drop 12)).map (head ++ ·)
    else some (hexWords (words.take start) ++ ascii "::" ++ hexWords (words.drop (start + count)))

end ExaProxy.Data
