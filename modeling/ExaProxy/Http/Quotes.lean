import ExaProxy.Data.Text

namespace ExaProxy.Http

open ExaProxy.Data

/-! Double quotes.  The reader of requests and the parser of headers count them
in the same way, and both let an odd number of them hide line ends. -/

/-- `count_quotes`: the quotes less the quotes behind a backslash. -/
def countQuotes (line : Str) : Nat := Str.count (ascii "\"") line - Str.count (ascii "\\\"") line

/-- The quotes of a text that are not behind a backslash, after the byte `before`. -/
def bareQuotes : Option UInt8 → Str → Nat
  | _, [] => 0
  | before, byte :: rest =>
      (if byte = 34 ∧ before ≠ some 92 then 1 else 0) + bareQuotes (some byte) rest

theorem count_quote (line : Str) : Str.count (ascii "\"") line = List.count 34 line := by
  induction line with
  | nil => rfl
  | cons byte rest ih =>
      have single : (ascii "\"") = [34] := rfl
      simp only [Str.count, single] at ih
      by_cases quote : byte = 34
      · subst quote
        simp [Str.count, Str.countFrom, single, ih, Nat.add_comm]
      · have different : ¬ (34 : UInt8) = byte := fun same => quote same.symm
        simp [Str.count, Str.countFrom, single, ih, quote, different]

/-- Every quote is bare, or behind a backslash, which may stand before the text. -/
theorem bareQuotes_add_escaped (before : Option UInt8) (line : Str) :
    bareQuotes before line + Str.countFrom (ascii "\\\"") 0 line +
      (if before = some 92 ∧ line.head? = some 34 then 1 else 0) = List.count 34 line := by
  have escape : (ascii "\\\"") = [92, 34] := rfl
  rw [escape]
  induction line generalizing before with
  | nil => simp [bareQuotes, Str.countFrom]
  | cons byte rest ih =>
      have later := ih (some byte)
      by_cases pair : [92, 34] <+: byte :: rest
      · obtain ⟨rfl, shorter⟩ := List.cons_prefix_cons.mp pair
        cases rest with
        | nil => simp at shorter
        | cons next rest =>
            obtain ⟨rfl, _⟩ := List.cons_prefix_cons.mp shorter
            simp [Str.countFrom, bareQuotes] at later ⊢
            omega
      · have single : ¬ (byte = 92 ∧ rest.head? = some 34) := by
          intro given
          obtain ⟨rfl, quote⟩ := given
          cases rest with
          | nil => cases quote
          | cons next rest =>
              cases quote
              exact pair (List.cons_prefix_cons.mpr ⟨rfl, by simp⟩)
        simp only [Option.some.injEq, single, if_false] at later
        simp only [bareQuotes, Str.countFrom, pair, if_false, List.count_cons, ← later,
          List.head?_cons, Option.some.injEq]
        by_cases quote : byte = 34
        · by_cases behind : before = some 92
          · simp [quote, behind]
          · simp only [quote, ne_eq, behind, not_false_eq_true, and_self, and_true, if_true, if_false, Nat.add_zero, BEq.rfl]
            omega
        · simp [quote]

theorem countQuotes_eq (line : Str) : countQuotes line = bareQuotes none line := by
  have all := bareQuotes_add_escaped none line
  simp only [reduceCtorEq, false_and, if_false] at all
  rw [countQuotes, count_quote, ← all, Str.count]
  omega

theorem bareQuotes_append (before : Option UInt8) (line more : Str) :
    bareQuotes before (line ++ more) =
      bareQuotes before line + bareQuotes (line.getLast?.or before) more := by
  induction line generalizing before with
  | nil => simp [bareQuotes]
  | cons byte rest ih =>
      simp only [List.cons_append, bareQuotes, ih, Nat.add_assoc]
      cases rest with
      | nil => simp
      | cons next rest => simp [List.getLast?_eq_some_getLast]

theorem bareQuotes_eq_zero (before : Option UInt8) {line : Str} (none : 34 ∉ line) :
    bareQuotes before line = 0 := by
  induction line generalizing before with
  | nil => rfl
  | cons byte rest ih =>
      have first : byte ≠ 34 := fun same => none (same ▸ List.mem_cons_self)
      simp [bareQuotes, first, ih _ fun member => none (List.mem_cons_of_mem _ member)]

theorem countQuotes_append (line : Str) {more : Str} (none : 34 ∉ more) :
    countQuotes (line ++ more) = countQuotes line := by
  rw [countQuotes_eq, countQuotes_eq, bareQuotes_append, bareQuotes_eq_zero _ none, Nat.add_zero]

end ExaProxy.Http
