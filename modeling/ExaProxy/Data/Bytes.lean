import ExaProxy.Data.Str
import Mathlib.Data.List.Induction
import Mathlib.Tactic.Ring

namespace ExaProxy.Data.Str

/-- The number with these bytes, the most significant one first. -/
def bigEndian (s : Str) : Nat := s.foldl (fun number byte => 256 * number + byte.toNat) 0

/-- The last `size` bytes of a number. -/
def bytes : Nat → Nat → Str
  | 0, _ => []
  | size + 1, number => bytes size (number / 256) ++ [UInt8.ofNat (number % 256)]

@[simp] theorem bytes_length (size number : Nat) : (bytes size number).length = size := by
  induction size generalizing number with
  | zero => rfl
  | succ size ih => simp only [bytes, List.length_append, ih, List.length_singleton]

theorem bigEndian_concat (s : Str) (byte : UInt8) :
    bigEndian (s ++ [byte]) = 256 * bigEndian s + byte.toNat := by
  simp only [bigEndian, List.foldl_append, List.foldl_cons, List.foldl_nil]

theorem bigEndian_append (s t : Str) : bigEndian (s ++ t) = bigEndian s * 256 ^ t.length + bigEndian t := by
  induction t using List.reverseRecOn with
  | nil => simp [bigEndian]
  | append_singleton t byte ih =>
      rw [← List.append_assoc, bigEndian_concat, ih, bigEndian_concat, List.length_append,
        List.length_singleton, Nat.pow_succ]
      ring

theorem bigEndian_lt (s : Str) : bigEndian s < 256 ^ s.length := by
  induction s using List.reverseRecOn with
  | nil => simp [bigEndian]
  | append_singleton s byte ih =>
      have bound := byte.toNat_lt
      rw [bigEndian_concat, List.length_append, List.length_singleton, Nat.pow_succ]
      omega

theorem bigEndian_bytes (size number : Nat) : bigEndian (bytes size number) = number % 256 ^ size := by
  induction size generalizing number with
  | zero => simp [bytes, bigEndian, Nat.mod_one]
  | succ size ih =>
      have byte : (UInt8.ofNat (number % 256)).toNat = number % 256 := by
        rw [UInt8.toNat_ofNat']
        omega
      rw [bytes, bigEndian_concat, ih, byte, Nat.pow_succ, Nat.mul_comm (256 ^ size) 256, Nat.mod_mul,
        Nat.add_comm]

theorem bytes_bigEndian (s : Str) : bytes s.length (bigEndian s) = s := by
  induction s using List.reverseRecOn with
  | nil => rfl
  | append_singleton s byte ih =>
      have bound := byte.toNat_lt
      have high : (256 * bigEndian s + byte.toNat) / 256 = bigEndian s := by omega
      have low : (256 * bigEndian s + byte.toNat) % 256 = byte.toNat := by omega
      rw [List.length_append, List.length_singleton, bytes, bigEndian_concat, high, low, ih,
        UInt8.ofNat_toNat]

end ExaProxy.Data.Str
