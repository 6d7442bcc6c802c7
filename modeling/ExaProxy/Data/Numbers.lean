import ExaProxy.Data.Methods

namespace ExaProxy.Data.Str

variable {s : Str} {byte : UInt8}

/-- The byte of a digit. -/
def digitByte (digit : Nat) : UInt8 := UInt8.ofNat (48 + digit)

theorem digitByte_toNat {digit : Nat} (small : digit < 10) : (digitByte digit).toNat = 48 + digit := by
  rw [digitByte, UInt8.toNat_ofNat']
  omega

theorem digitByte_of_isDigit (digit : isDigit byte = true) : byte = digitByte (byte.toNat - 48) := by
  simp only [isDigit, decide_eq_true_eq, UInt8.le_iff_toNat_le] at digit
  have bounds : 48 ≤ byte.toNat ∧ byte.toNat ≤ 57 := digit
  rw [← UInt8.toNat_inj, digitByte_toNat (by omega)]
  omega

theorem decimal_small {number : Nat} (small : number < 10) : decimal number = [digitByte number] := by
  rw [decimal, Nat.toDigits_of_lt_base small]
  simp [ascii, Nat.toNat_digitChar_of_lt_ten small, digitByte]

theorem decimal_step {number : Nat} (large : 10 ≤ number) :
    decimal number = decimal (number / 10) ++ [digitByte (number % 10)] := by
  have last := decimal_small (Nat.mod_lt number (by decide : 0 < 10))
  rw [decimal, Nat.toDigits_of_lt_base (Nat.mod_lt number (by decide))] at last
  rw [decimal, Nat.toDigits_of_base_le (by decide) large, decimal, ← last]
  simp [ascii]

theorem digitsValue_append (s : Str) (byte : UInt8) :
    digitsValue (s ++ [byte]) = 10 * digitsValue s + (byte.toNat - 48) := by
  simp [digitsValue]

theorem digitsValue_decimal (number : Nat) : digitsValue (decimal number) = number := by
  induction number using Nat.strongRecOn with
  | ind number ih =>
      by_cases small : number < 10
      · rw [decimal_small small]
        simp [digitsValue, digitByte_toNat small]
      · rw [decimal_step (Nat.not_lt.mp small), digitsValue_append, ih (number / 10) (by omega),
          digitByte_toNat (Nat.mod_lt number (by decide))]
        omega

theorem digitsValue_zero (digits : ∀ byte ∈ s, isDigit byte = true) (zero : digitsValue s = 0) :
    s = List.replicate s.length 48 := by
  induction s using List.reverseRecOn with
  | nil => rfl
  | append_singleton s byte ih =>
      rw [digitsValue_append] at zero
      have digit := digitByte_of_isDigit (digits byte (by simp))
      have last : byte = 48 := by
        rw [digit, show byte.toNat - 48 = 0 by omega]
        rfl
      have first := ih (fun other member => digits other (by simp [member])) (by omega)
      rw [List.length_append, List.length_singleton, List.replicate_succ', ← first, last]

theorem digits_padded (digits : ∀ byte ∈ s, isDigit byte = true) (positive : 0 < digitsValue s) :
    ∃ zeros, s = List.replicate zeros 48 ++ decimal (digitsValue s) := by
  induction s using List.reverseRecOn with
  | nil => exact absurd positive (Nat.lt_irrefl 0)
  | append_singleton s byte ih =>
      have firsts : ∀ byte ∈ s, isDigit byte = true := fun other member => digits other (by simp [member])
      have digit := digits byte (by simp)
      have written := digitByte_of_isDigit digit
      simp only [isDigit, decide_eq_true_eq, UInt8.le_iff_toNat_le] at digit
      have small : byte.toNat - 48 < 10 := by
        have bounds : 48 ≤ byte.toNat ∧ byte.toNat ≤ 57 := digit
        omega
      rw [digitsValue_append] at positive ⊢
      by_cases zero : digitsValue s = 0
      · refine ⟨s.length, ?_⟩
        rw [zero, Nat.mul_zero, Nat.zero_add, decimal_small small, ← written,
          ← digitsValue_zero firsts zero]
      · obtain ⟨zeros, padded⟩ := ih firsts (Nat.pos_of_ne_zero zero)
        refine ⟨zeros, ?_⟩
        have quotient : (10 * digitsValue s + (byte.toNat - 48)) / 10 = digitsValue s := by omega
        have rest : (10 * digitsValue s + (byte.toNat - 48)) % 10 = byte.toNat - 48 := by omega
        rw [decimal_step (by omega), quotient, rest, ← written, ← List.append_assoc, ← padded]

theorem decimal_head {number : Nat} (positive : 0 < number) (rest : Str) :
    decimal number ≠ 48 :: rest := by
  induction number using Nat.strongRecOn generalizing rest with
  | ind number ih =>
      intro starts
      by_cases small : number < 10
      · rw [decimal_small small, List.cons.injEq] at starts
        have value := digitByte_toNat small
        rw [starts.1] at value
        have zero : (48 : UInt8).toNat = 48 := rfl
        omega
      · rw [decimal_step (Nat.not_lt.mp small)] at starts
        cases first : decimal (number / 10) with
        | nil =>
            have digits := (isdigit_iff.mp (decimal_isdigit (number / 10))).1
            exact digits first
        | cons byte tail =>
            rw [first, List.cons_append, List.cons.injEq] at starts
            rw [starts.1] at first
            exact ih (number / 10) (by omega) (by omega) tail first

end ExaProxy.Data.Str
