import ExaProxy.Data.Loop
import ExaProxy.Util.Messagebox

namespace ExaProxy.Util

open Data

/-! `MessageReader.read`, read by read: `pipe_in.read(count)` gives up to `count`
bytes, and the empty string each time the end of the file is reached. -/

namespace MessageReader

/-- Where `read` is: in the loop over the size or in the one over the payload. -/
inductive Reading where
  | size (message_s : Str)
  | payload (remaining : Int) (pickled : Str)
deriving DecidableEq, Repr

/-- Behind the loop over the size. -/
def sized (message_s pipe_in : Str) : (Reading × Str) ⊕ (Option Str × Str) :=
  match Str.splitOnce delimiter message_s with
  | none => .inr (none, pipe_in)
  | some (pickled_size, pickled) =>
      if pickled_size.isdigit then
        .inl (.payload ((pickled_size.digitsValue : Int) + 1 - pickled.length) pickled, pipe_in)
      else .inr (none, pipe_in)

/-- One test of a loop, with the read it makes. -/
def turn : Reading × Str → (Reading × Str) ⊕ (Option Str × Str)
  | (.size message_s, pipe_in) =>
      if message_s.isdigit then .inl (.size (message_s ++ pipe_in.take 1), pipe_in.drop 1)
      else sized message_s pipe_in
  | (.payload remaining pickled, pipe_in) =>
      if remaining > 0 then
        let data := pipe_in.take remaining.toNat
        .inl (.payload (remaining - data.length) (pickled ++ data), pipe_in.drop remaining.toNat)
      else .inr (if eom <:+ pickled then some pickled.dropLast else none, pipe_in)

/-- The first read. -/
def opened (pipe_in : Str) : Reading × Str := (.size (pipe_in.take 3), pipe_in.drop 3)

variable {message_s pickled pipe rest : Str}

theorem size_reads (digits : message_s.isdigit = true) (byte : UInt8) :
    Loop.Next turn (.size message_s, byte :: pipe) (.size (message_s ++ [byte]), pipe) := by
  simp [Loop.Next, turn, digits]

theorem size_endless (digits : message_s.isdigit = true) :
    ¬ Loop.Halts turn (.size message_s, []) :=
  Loop.not_halts_of_cycle (.single (by simp [Loop.Next, turn, digits]))

theorem payload_endless {remaining : Int} (more : remaining > 0) :
    ¬ Loop.Halts turn (.payload remaining pickled, []) :=
  Loop.not_halts_of_cycle (.single (by simp [Loop.Next, turn, more]))

theorem size_ends {size : Str} (found : readSize message_s pipe = some (size, rest)) :
    Relation.ReflTransGen (Loop.Next turn) (.size message_s, pipe) (.size size, rest) ∧
      size.isdigit = false := by
  induction pipe generalizing message_s with
  | nil =>
      rw [readSize] at found
      split at found
      · cases found
      · rename_i other
        cases found
        exact ⟨.refl, Bool.eq_false_iff.mpr other⟩
  | cons byte pipe ih =>
      rw [readSize] at found
      split at found
      · rename_i digits
        obtain ⟨path, other⟩ := ih found
        exact ⟨.head (size_reads digits byte) path, other⟩
      · rename_i other
        cases found
        exact ⟨.refl, Bool.eq_false_iff.mpr other⟩

theorem size_unending (unfinished : readSize message_s pipe = none) :
    ¬ Loop.Halts turn (.size message_s, pipe) := by
  induction pipe generalizing message_s with
  | nil =>
      rw [readSize] at unfinished
      split at unfinished
      · rename_i digits
        exact size_endless digits
      · cases unfinished
  | cons byte pipe ih =>
      rw [readSize] at unfinished
      split at unfinished
      · rename_i digits
        rw [(size_reads digits byte).halts_iff]
        exact ih unfinished
      · cases unfinished

/-- The rest of the payload is read at once, or the end of the file is reached
before it. -/
theorem payload_next {remaining : Int} (more : remaining > 0) :
    Loop.Next turn (.payload remaining pickled, pipe)
      (.payload (remaining - (pipe.take remaining.toNat).length) (pickled ++ pipe.take remaining.toNat),
        pipe.drop remaining.toNat) := by
  simp only [Loop.Next, turn, if_pos more]

theorem payload_ends {remaining : Int} {whole : Str}
    (found : readRemaining remaining.toNat pickled pipe = some (whole, rest)) :
    ∃ left : Int, left ≤ 0 ∧ Relation.ReflTransGen (Loop.Next turn)
      (.payload remaining pickled, pipe) (.payload left whole, rest) := by
  obtain ⟨data, rfl, rfl, size⟩ := readRemaining_eq found
  by_cases more : remaining > 0
  · have next : Loop.Next turn (.payload remaining pickled, data ++ rest) _ := payload_next more
    rw [List.take_left' size, List.drop_left' size] at next
    exact ⟨_, by omega, .single next⟩
  · have none : data = [] := List.eq_nil_of_length_eq_zero (by omega)
    exact ⟨remaining, by omega, by simpa [none] using .refl⟩

theorem payload_unending {remaining : Int}
    (unfinished : readRemaining remaining.toNat pickled pipe = none) :
    ¬ Loop.Halts turn (.payload remaining pickled, pipe) := by
  have short : ¬ remaining.toNat ≤ pipe.length := by simpa [readRemaining] using unfinished
  rw [(payload_next (by omega)).halts_iff, List.drop_eq_nil_of_le (by omega)]
  apply payload_endless
  rw [List.length_take]
  omega

theorem turn_sized (other : message_s.isdigit = false) :
    turn (.size message_s, pipe) = sized message_s pipe := by
  rw [turn, if_neg (by simp [other])]

theorem turns_of_read {result : Option Str × Str} (found : read pipe = some result) :
    ∃ fuel, Loop.run turn fuel (opened pipe) = some result := by
  simp only [read, Option.bind_eq_bind, Option.bind_eq_some_iff] at found
  obtain ⟨⟨message_s, left⟩, sizeRead, found⟩ := found
  obtain ⟨path, other⟩ := size_ends sizeRead
  rw [Loop.run_eq_some_iff]
  have step : turn (.size message_s, left) = sized message_s left := turn_sized other
  rw [sized] at step
  cases parts : Str.splitOnce delimiter message_s with
  | none =>
      simp only [parts] at found step
      cases found
      exact ⟨_, path, step⟩
  | some parted =>
      obtain ⟨pickled_size, pickled⟩ := parted
      simp only [parts] at found step
      split at found
      · rename_i digits
        obtain ⟨⟨whole, after⟩, counted, found⟩ := Option.bind_eq_some_iff.mp found
        cases found
        rw [if_pos digits] at step
        have same : pickled_size.digitsValue + 1 - pickled.length =
            ((pickled_size.digitsValue : Int) + 1 - pickled.length).toNat := by omega
        rw [same] at counted
        obtain ⟨remaining, done, reads⟩ := payload_ends counted
        refine ⟨_, (path.tail step).trans reads, ?_⟩
        rw [turn, if_neg (by omega)]
      · rename_i letters
        cases found
        rw [if_neg letters] at step
        exact ⟨_, path, step⟩

theorem read_none_cases (unfinished : read pipe = none) :
    readSize (pipe.take 3) (pipe.drop 3) = none ∨ ∃ message_s left ds ahead,
      readSize (pipe.take 3) (pipe.drop 3) = some (message_s, left) ∧
      Str.splitOnce delimiter message_s = some (ds, ahead) ∧ ds.isdigit = true ∧
      readRemaining (ds.digitsValue + 1 - ahead.length) ahead left = none := by
  rw [read] at unfinished
  cases sizeRead : readSize (pipe.take 3) (pipe.drop 3) with
  | none => exact .inl rfl
  | some found =>
      obtain ⟨message_s, left⟩ := found
      cases parts : Str.splitOnce delimiter message_s with
      | none => simp [sizeRead, parts] at unfinished
      | some parted =>
          obtain ⟨ds, ahead⟩ := parted
          simp only [sizeRead, parts, Option.bind_eq_bind, Option.bind_some] at unfinished
          split at unfinished
          · rename_i digits
            refine .inr ⟨message_s, left, ds, ahead, rfl, parts, digits, ?_⟩
            cases counted : readRemaining (ds.digitsValue + 1 - ahead.length) ahead left with
            | none => rfl
            | some whole => simp [counted] at unfinished
          · cases unfinished

theorem not_halts_of_read (unfinished : read pipe = none) : ¬ Loop.Halts turn (opened pipe) := by
  rcases read_none_cases unfinished with sizeRead | ⟨message_s, left, ds, ahead, sizeRead, parts, digits, short⟩
  · exact size_unending sizeRead
  · obtain ⟨path, other⟩ := size_ends sizeRead
    have next : Loop.Next turn (.size message_s, left)
        (.payload ((ds.digitsValue : Int) + 1 - ahead.length) ahead, left) := by
      simp only [Loop.Next, turn_sized other, sized, parts, digits, if_true]
    have same : ds.digitsValue + 1 - ahead.length =
        ((ds.digitsValue : Int) + 1 - ahead.length).toNat := by omega
    rw [opened, Loop.halts_iff_of_reaches path, next.halts_iff]
    apply payload_unending
    rw [← same]
    exact short

/-- The stream ends inside the decimal length, or before the comma behind a
payload of the length it announces. -/
def Truncated (stream : Str) : Prop :=
  stream.isdigit = true ∨ ∃ ds tail : Str, ds.isdigit = true ∧ stream = ds ++ 58 :: tail ∧
    tail.length < ds.digitsValue + 1

theorem readSize_eq_none : readSize message_s pipe = none ↔
    message_s.isdigit = true ∧ (message_s ++ pipe).isdigit = true := by
  induction pipe generalizing message_s with
  | nil => simp [readSize]
  | cons byte pipe ih =>
      rw [readSize]
      split
      · rename_i digits
        rw [ih, List.append_assoc, List.singleton_append, and_iff_right_of_imp, and_iff_right digits]
        intro all
        refine Str.isdigit_iff.mpr ⟨by simp, fun other member => ?_⟩
        exact (Str.isdigit_iff.mp all).2 other (by simp at member ⊢; tauto)
      · rename_i letters
        simp [letters]

theorem read_eq_none : read pipe = none ↔ Truncated pipe := by
  constructor
  · intro unfinished
    rcases read_none_cases unfinished with sizeRead | ⟨message_s, left, ds, ahead, sizeRead, parts, digits, short⟩
    · have all := (readSize_eq_none.mp sizeRead).2
      rw [List.take_append_drop] at all
      exact .inl all
    · have stream := readSize_stream sizeRead
      have size : message_s = ds ++ 58 :: ahead := (Str.splitOnce_byte parts).1
      rw [List.take_append_drop, size] at stream
      refine .inr ⟨ds, ahead ++ left, digits, by simp [← stream], ?_⟩
      simp only [readRemaining, ite_eq_right_iff, reduceCtorEq, imp_false] at short
      rw [List.length_append]
      omega
  · rintro (all | ⟨ds, tail, digits, rfl, short⟩)
    · have start : Str.isdigit (pipe.take 3) = true := by
        obtain ⟨filled, each⟩ := Str.isdigit_iff.mp all
        refine Str.isdigit_iff.mpr ⟨by simpa using filled, fun byte member => ?_⟩
        exact each byte (List.mem_of_mem_take member)
      have sizeRead : readSize (pipe.take 3) (pipe.drop 3) = none := by
        rw [readSize_eq_none, List.take_append_drop]
        exact ⟨start, all⟩
      rw [read, sizeRead]
      rfl
    · obtain ⟨ahead, left, rfl, _, found⟩ := read_digits digits tail
      rw [List.length_append] at short
      rw [found, readRemaining, if_neg (by omega), Option.map_none]

theorem halts_iff : Loop.Halts turn (opened pipe) ↔ ¬ Truncated pipe := by
  rw [← read_eq_none]
  cases found : read pipe with
  | none => exact iff_of_false (not_halts_of_read found) (not_not_intro rfl)
  | some result =>
      obtain ⟨fuel, ended⟩ := turns_of_read found
      exact iff_of_true ⟨fuel, result, ended⟩ (by simp)

/-- `read` ends on a stream, with `None` unless a complete frame was present, if
and only if the stream is not truncated.  A length that no C long holds makes `pipe_in.read`
raise `OverflowError`, where the model goes on. -/
theorem read_ends_iff (stream : Str) :
    (Loop.Halts turn (opened stream) ∧
      ∀ fuel pickled rest, Loop.run turn fuel (opened stream) = some (some pickled, rest) →
        ∃ ds : Str, ds.isdigit = true ∧ ds.digitsValue = pickled.length ∧
          stream = ds ++ 58 :: (pickled ++ 44 :: rest)) ↔
      ¬ Truncated stream := by
  rw [← halts_iff, and_iff_left_of_imp]
  intro halts fuel pickled rest ended
  cases found : read stream with
  | none => exact absurd halts (not_halts_of_read found)
  | some result =>
      have same : result = (some pickled, rest) :=
        Loop.result_unique (turns_of_read found) ⟨fuel, ended⟩
      exact read_some.mp (same ▸ found)

/-- A frame of a pickled `None` cut inside its length, its payload and before its
comma. -/
theorem truncated_frames : MessageBox.frame (ascii "N.") = ascii "2:N.," ∧
    ¬ Loop.Halts turn (opened (ascii "2")) ∧ ¬ Loop.Halts turn (opened (ascii "2:N")) ∧
    ¬ Loop.Halts turn (opened (ascii "2:N.")) := by
  simp only [halts_iff, not_not]
  refine ⟨by decide +kernel, .inl (by decide), .inr ⟨ascii "2", ascii "N", by decide, rfl, by decide⟩, ?_⟩
  exact .inr ⟨ascii "2", ascii "N.", by decide, rfl, by decide⟩

end MessageReader

end ExaProxy.Util
