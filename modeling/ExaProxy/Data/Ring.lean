import Mathlib.Data.List.DropRight

namespace ExaProxy.Data

namespace Ring

variable {α : Type*}

/-- An entry is appended, and the oldest one goes when there are more than `size`. -/
def push (size : Nat) (ring : List α) (entry : α) : List α :=
  let longer := ring ++ [entry]
  if longer.length > size then longer.drop 1 else longer

theorem push_rtake (size : Nat) (entries : List α) (entry : α) :
    push size (entries.rtake size) entry = (entries ++ [entry]).rtake size := by
  have length : (entries.rtake size).length = min size entries.length := by
    rw [List.rtake, List.length_drop]
    omega
  unfold push
  simp only [List.length_append, List.length_singleton, length]
  split
  · next full =>
      have past : entries.length + 1 - size = entries.length - size + 1 := by omega
      rw [List.rtake, List.rtake, List.length_append, List.length_singleton, past,
        ← List.drop_append_of_le_length (Nat.sub_le _ _), List.drop_drop]
  · next room =>
      have whole : entries.rtake size = entries := by
        rw [List.rtake, show entries.length - size = 0 by omega, List.drop_zero]
      rw [whole, List.rtake, List.length_append, List.length_singleton,
        show entries.length + 1 - size = 0 by omega, List.drop_zero]

end Ring

end ExaProxy.Data
