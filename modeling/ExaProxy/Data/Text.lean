import ExaProxy.Data.Str
import Mathlib.Data.Nat.Find

namespace ExaProxy.Data

namespace Str

/-- `s.find(sub)`, with `none` for -1. -/
def find (sub : Str) : Str → Option Nat
  | [] => if sub = [] then some 0 else none
  | byte :: rest => if sub <+: byte :: rest then some 0 else (find sub rest).map (· + 1)

/-- `s.count(sub)` from the point where `skip` more bytes belong to the occurrence
that was counted last. -/
def countFrom (sub : Str) : Nat → Str → Nat
  | _, [] => 0
  | skip + 1, _ :: rest => countFrom sub skip rest
  | 0, byte :: rest =>
      if sub <+: byte :: rest then 1 + countFrom sub (sub.length - 1) rest
      else countFrom sub 0 rest

/-- `s.count(sub)`, for a `sub` that is not empty. -/
def count (sub s : Str) : Nat := countFrom sub 0 s

/-- `s.lstrip(chars)` -/
def lstrip (chars s : Str) : Str := s.dropWhile (· ∈ chars)

/-- `sub` stands in `s` at `pos`. -/
def Occurs (sub s : Str) (pos : Nat) : Prop := sub <+: s.drop pos

variable {sub s t chars : Str} {pos : Nat} {byte : UInt8}

instance : Decidable (Occurs sub s pos) := inferInstanceAs (Decidable (sub <+: s.drop pos))

theorem find_eq_some_iff : find sub s = some pos ↔
    Occurs sub s pos ∧ ∀ earlier < pos, ¬ Occurs sub s earlier := by
  induction s generalizing pos with
  | nil =>
      simp only [find, Occurs, List.drop_nil, List.prefix_nil]
      by_cases empty : sub = []
      · simp only [empty, if_true, Option.some.injEq, true_and, not_true_eq_false]
        refine ⟨fun zero earlier below => by omega, fun first => ?_⟩
        cases pos with
        | zero => rfl
        | succ pos => exact (first 0 (Nat.succ_pos pos)).elim
      · simp [empty]
  | cons byte rest ih =>
      simp only [find]
      split
      · next starts =>
          refine ⟨?_, fun ⟨_, first⟩ => ?_⟩
          · intro zero
            cases zero
            exact ⟨starts, fun earlier below => absurd below (Nat.not_lt_zero _)⟩
          · cases pos with
            | zero => rfl
            | succ pos => exact absurd starts (first 0 (Nat.succ_pos pos))
      · next starts =>
          cases pos with
          | zero => simpa [Occurs] using starts
          | succ pos =>
              rw [Option.map_eq_some_iff]
              simp only [Nat.add_right_cancel_iff, exists_eq_right, ih, Occurs, List.drop_succ_cons]
              refine and_congr_right fun _ => ⟨fun first earlier below => ?_, fun first earlier below =>
                first (earlier + 1) (Nat.succ_lt_succ below)⟩
              cases earlier with
              | zero => exact starts
              | succ earlier => exact first earlier (Nat.lt_of_succ_lt_succ below)

theorem find_eq_none_iff : find sub s = none ↔ ∀ pos, ¬ Occurs sub s pos := by
  refine ⟨fun missing pos occurs => ?_, fun never => ?_⟩
  · classical
    have first : ∃ pos, Occurs sub s pos := ⟨pos, occurs⟩
    have found := find_eq_some_iff.mpr ⟨Nat.find_spec first, fun _ => Nat.find_min first⟩
    rw [missing] at found
    cases found
  · cases found : find sub s with
    | none => rfl
    | some pos => exact absurd (find_eq_some_iff.mp found).1 (never pos)

theorem occurs_take (length : Nat) : Occurs sub (s.take length) pos ↔
    Occurs sub s pos ∧ (sub = [] ∨ pos + sub.length ≤ length) := by
  rw [Occurs, Occurs, List.drop_take, List.prefix_take_iff]
  refine and_congr_right fun _ => ?_
  cases sub with
  | nil => simp
  | cons byte sub =>
      simp only [List.length_cons, reduceCtorEq, false_or]
      omega

theorem occurs_drop (start : Nat) : Occurs sub (s.drop start) pos ↔ Occurs sub s (start + pos) := by
  rw [Occurs, Occurs, List.drop_drop]

theorem Occurs.getElem? (occurs : Occurs sub s pos) {offset : Nat} (within : offset < sub.length) :
    s[pos + offset]? = sub[offset]? := by
  rw [← List.getElem?_drop, List.prefix_iff_getElem?.mp occurs offset within]
  exact (List.getElem?_eq_getElem within).symm

theorem Occurs.take_append (occurs : Occurs sub s pos) :
    s.take pos ++ sub = s.take (pos + sub.length) := by
  rw [List.take_add, ← List.prefix_iff_eq_take.mp occurs]

theorem Occurs.bound (occurs : Occurs sub s pos) (nonempty : sub ≠ []) : pos + sub.length ≤ s.length := by
  have fits := occurs.length_le
  have positive := List.length_pos_of_ne_nil nonempty
  rw [List.length_drop] at fits
  omega

theorem lstrip_append (chars s t : Str) : lstrip chars (s ++ t) =
    if lstrip chars s = [] then lstrip chars t else lstrip chars s ++ t := by
  simp only [lstrip, List.dropWhile_append, List.isEmpty_iff]
  congr

theorem lstrip_head (stripped : lstrip chars s = byte :: t) : byte ∉ chars := by
  have head := List.head?_dropWhile_not (· ∈ chars) s
  simp only [lstrip] at stripped
  rw [stripped] at head
  simpa using head

theorem lstrip_lstrip (chars s : Str) : lstrip chars (lstrip chars s) = lstrip chars s := by
  cases stripped : lstrip chars s with
  | nil => rfl
  | cons byte rest => rw [lstrip, List.dropWhile_cons_of_neg (by simpa using lstrip_head stripped)]

theorem lstrip_lstrip_append (chars s t : Str) : lstrip chars (lstrip chars s ++ t) = lstrip chars (s ++ t) := by
  rw [lstrip_append, lstrip_append, lstrip_lstrip]

end Str

end ExaProxy.Data
