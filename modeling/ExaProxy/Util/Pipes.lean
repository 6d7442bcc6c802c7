import ExaProxy.Data.Channel
import ExaProxy.Util.Messagebox

namespace ExaProxy.Util

open Data

namespace MessageReader

variable {ds message_s pickled stream left rest : Str}

/-- `read` waits while only digits have come. -/
theorem readSize_waits (digits : (message_s ++ stream).isdigit = true) (filled : message_s ≠ []) :
    readSize message_s stream = none := by
  induction stream generalizing message_s with
  | nil =>
      rw [List.append_nil] at digits
      rw [readSize, if_pos digits]
  | cons byte stream ih =>
      have read : message_s.isdigit = true := by
        refine Str.isdigit_iff.mpr ⟨filled, fun byte member => ?_⟩
        exact (Str.isdigit_iff.mp digits).2 byte (by simp [member])
      rw [readSize, if_pos read]
      exact ih (by simpa using digits) (by simp)

/-- `read` waits while part of a frame is missing. -/
theorem read_waits (digits : ds.isdigit = true) (short : rest.length < ds.digitsValue + 1) :
    read (ds ++ 58 :: rest) = none := by
  obtain ⟨ahead, left, whole, few, result⟩ := read_digits digits rest
  have lengths := congrArg List.length whole
  rw [List.length_append] at lengths
  rw [result, readRemaining, if_neg (by omega), Option.map_none]

/-- Of a stream that starts with a frame `read` returns what the frame was made of, or waits. -/
theorem read_faithful {found : Option Str} {more : Str} (cut : stream ++ left = MessageBox.frame pickled ++ rest)
    (started : stream ≠ []) (returned : read stream = some (found, more)) :
    found = some pickled ∧ more ++ left = rest := by
  have size : Str.isdigit (Str.decimal pickled.length) = true := Str.decimal_isdigit _
  rw [MessageBox.frame_eq, List.append_assoc, List.cons_append] at cut
  rcases stream_cases cut with ⟨missing, same, _⟩ | ⟨body, rfl, tail⟩
  · -- not even the size has come
    have digits : Str.isdigit (stream.take 3 ++ stream.drop 3) = true := by
      rw [List.take_append_drop]
      refine Str.isdigit_iff.mpr ⟨started, fun byte member => ?_⟩
      exact (Str.isdigit_iff.mp size).2 byte (by simp [same, member])
    rw [read, readSize_waits digits (by simpa using started)] at returned
    cases returned
  · by_cases short : body.length < pickled.length + 1
    · rw [read_waits size (by rwa [Str.digitsValue_decimal])] at returned
      cases returned
    · obtain ⟨data, rfl⟩ : pickled ++ [44] <+: body := by
        refine List.prefix_of_prefix_length_le ⟨rest, tail.symm⟩ (List.prefix_append body left) ?_
        rw [List.length_append, List.length_singleton]
        omega
      rw [List.append_assoc, List.append_cancel_left_eq] at tail
      have written : read (MessageBox.frame pickled ++ data) = some (some pickled, data) := MessageBox.read_written
      rw [MessageBox.frame_eq, List.append_assoc, List.cons_append, returned] at written
      cases written
      exact ⟨rfl, tail⟩

end MessageReader

namespace MessageBox

variable {μ : Type*}

/-- What `get` makes of the bytes in a pipe of which the other end is open. -/
def receive (pickle : Pickle μ) (pipe_in : Str) : Option (Option μ × Str) :=
  if pipe_in = [] then none else get pickle pipe_in

theorem receive_written (pickle : Pickle μ) (message : μ) (rest : Str) :
    receive pickle (frame (pickle.dumps message) ++ rest) = some (some message, rest) := by
  rw [receive, if_neg (by simp [frame_eq]), get_written]

theorem receive_faithful (pickle : Pickle μ) (stream left : Str) (message : μ) (rest : Str)
    (found : Option μ) (more : Str) (cut : stream ++ left = frame (pickle.dumps message) ++ rest)
    (received : receive pickle stream = some (found, more)) :
    found = some message ∧ more ++ left = rest := by
  rw [receive] at received
  split at received
  · cases received
  · next started =>
      obtain ⟨⟨pickled, after⟩, returned, same⟩ := Option.map_eq_some_iff.mp received
      obtain ⟨rfl, left⟩ := MessageReader.read_faithful cut started returned
      cases same
      exact ⟨by simp [pickle.inverts], left⟩

/-- A `MessageBox` on a pipe whose writes are not interrupted. -/
def codec (pickle : Pickle μ) : Codec UInt8 μ where
  encode message := frame (pickle.dumps message)
  decode := receive pickle
  waits := if_pos rfl
  delivers := receive_written pickle
  faithful := receive_faithful pickle

end MessageBox

end ExaProxy.Util
