import Mathlib.Data.List.Induction

namespace ExaProxy.Data

/-! Frames on a stream, each of them ended by a symbol and not begun by a padding.
Something stray may be written before a frame, and padding be read before one. -/

/-- A frame, what is written before it and how much padding is read before it. -/
structure Slot (α : Type*) where
  stray : List α
  pads : Nat
  frame : List α

namespace Slot

variable {α : Type*} {pad stop : α} {slots : List (Slot α)} {slot : Slot α} {more : List α}

def written (slot : Slot α) : List α := slot.stray ++ slot.frame

def read (pad : α) (slot : Slot α) : List α := List.replicate slot.pads pad ++ slot.frame

/-- What is stray does not begin with a padding either. -/
structure Framed (pad stop : α) (slot : Slot α) : Prop where
  starts : ∀ rest, slot.frame ≠ pad :: rest
  ends : ∃ body, slot.frame = body ++ [stop]
  stray : ∀ rest, slot.stray ≠ pad :: rest

theorem replicate_take {count : Nat} {symbols more rest : List α}
    (same : List.replicate count pad ++ more = symbols ++ rest) (short : symbols.length ≤ count) :
    symbols = List.replicate symbols.length pad := by
  have taken := congrArg (List.take symbols.length) same
  rw [List.take_left, List.take_append_of_le_length (by simpa using short), List.take_replicate,
    Nat.min_eq_left short] at taken
  exact taken.symm

theorem written_ends (framed : ∀ slot ∈ slots, slot.Framed pad stop) (apart : pad ≠ stop)
    {count : Nat} {first : List α} (ends : slots.flatMap written = first ++ List.replicate count pad) :
    count = 0 := by
  induction slots using List.reverseRecOn with
  | nil =>
      have empty := congrArg List.length ends
      simp only [List.flatMap_nil, List.length_nil, List.length_append, List.length_replicate] at empty
      omega
  | append_singleton slots slot ih =>
      cases count with
      | zero => rfl
      | succ count =>
          obtain ⟨body, frame⟩ := (framed slot (by simp)).ends
          rw [List.flatMap_append, List.flatMap_singleton, written, frame, List.replicate_succ',
            ← List.append_assoc, ← List.append_assoc, ← List.append_assoc] at ends
          exact absurd (List.append_inj_right' ends rfl) (by simpa using apart.symm)

theorem head_pads {count : Nat} {body : List α} (starts : ∀ rest, body ≠ pad :: rest)
    {symbols rest : List α} (same : List.replicate count pad ++ symbols = body ++ rest)
    (filled : body ≠ []) : count = 0 := by
  cases count with
  | zero => rfl
  | succ count =>
      cases body with
      | nil => exact absurd rfl filled
      | cons symbol body =>
          rw [List.replicate_succ, List.cons_append, List.cons_append, List.cons.injEq] at same
          exact absurd (by rw [same.1]) (starts body)

theorem Framed.frame_ne_nil (own : slot.Framed pad stop) : slot.frame ≠ [] := by
  obtain ⟨body, frame⟩ := own.ends
  simp [frame]

/-- A frame is not read after paddings where something else was written before it. -/
theorem Framed.alone (own : slot.Framed pad stop)
    (same : List.replicate slot.pads pad ++ slot.frame = slot.stray ++ (slot.frame ++ more)) :
    more = [] ∧ slot.stray = [] := by
  have none : slot.pads = 0 := by
    by_cases clean : slot.stray = []
    · rw [clean, List.nil_append] at same
      exact head_pads own.starts same own.frame_ne_nil
    · exact head_pads own.stray same clean
  have lengths := congrArg List.length same
  rw [none] at lengths
  simp only [List.length_append, List.length_replicate] at lengths
  exact ⟨List.eq_nil_of_length_eq_zero (by omega), List.eq_nil_of_length_eq_zero (by omega)⟩

theorem stray_nil (framed : ∀ slot ∈ slots, slot.Framed pad stop) (apart : pad ≠ stop)
    (same : slots.flatMap (read pad) = slots.flatMap written ++ more) :
    more = [] ∧ ∀ slot ∈ slots, slot.stray = [] := by
  -- from the last frame to the first one, since a frame is known by its end
  induction slots using List.reverseRecOn generalizing more with
  | nil => simpa using same.symm
  | append_singleton slots slot ih =>
      have others : ∀ other ∈ slots, other.Framed pad stop :=
        fun other member => framed other (by simp [member])
      have own := framed slot (by simp)
      rw [List.flatMap_append, List.flatMap_append, List.flatMap_singleton, List.flatMap_singleton,
        read, written, List.append_assoc, List.append_assoc] at same
      -- the other frames were read as far as they were written
      have apiece : slots.flatMap (read pad) = slots.flatMap written ∧
          List.replicate slot.pads pad ++ slot.frame = slot.stray ++ (slot.frame ++ more) := by
        rcases List.append_eq_append_iff.mp same with ⟨ahead, written, pads⟩ | ⟨behind, read, rest⟩
        · have lengths := congrArg List.length pads
          simp only [List.length_append, List.length_replicate] at lengths
          rw [replicate_take pads (by omega)] at written
          have none := List.eq_nil_of_length_eq_zero (written_ends others apart written)
          subst none
          exact ⟨by simpa using written.symm, pads⟩
        · obtain ⟨none, -⟩ := ih others read
          subst none
          exact ⟨by simpa using read, by simpa using rest.symm⟩
      obtain ⟨none, stray⟩ := own.alone apiece.2
      obtain ⟨-, clean⟩ := ih others (apiece.1.trans (List.append_nil _).symm)
      refine ⟨none, fun other member => ?_⟩
      rcases List.mem_append.mp member with earlier | last
      · exact clean other earlier
      · rw [List.mem_singleton.mp last]
        exact stray

end Slot

end ExaProxy.Data
