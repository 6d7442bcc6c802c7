import ExaProxy.Data.Frames
import ExaProxy.Data.Numbers

namespace ExaProxy.Util

open Data

inductive Errno where
  | EINPROGRESS | EALREADY | EAGAIN | EWOULDBLOCK | EINTR | EDEADLK | EBUSY | ENOBUFS | ENOMEM
  | other (number : Nat)
deriving DecidableEq, Repr

def errno_block : List Errno :=
  [.EINPROGRESS, .EALREADY, .EAGAIN, .EWOULDBLOCK, .EINTR, .EDEADLK, .EBUSY, .ENOBUFS, .ENOMEM]

/-- `pickle`, whose `loads` raises an `EOFError` on an empty text. -/
structure Pickle (μ : Type*) where
  dumps : μ → Str
  loads : Str → Option μ
  inverts : ∀ message, loads (dumps message) = some message
  eof : loads [] = none

namespace MessageReader

def delimiter : Str := ascii ":"

def eom : Str := ascii ","

/-- `while message_s.isdigit()`, with `none` at the end of the file: it never ends there. -/
def readSize (message_s : Str) : Str → Option (Str × Str)
  | [] => if message_s.isdigit then none else some (message_s, [])
  | byte :: pipe =>
      if message_s.isdigit then readSize (message_s ++ [byte]) pipe else some (message_s, byte :: pipe)

/-- `while remaining > 0`, with `none` at the end of the file. -/
def readRemaining (remaining : Nat) (pickled pipe : Str) : Option (Str × Str) :=
  if remaining ≤ pipe.length then some (pickled ++ pipe.take remaining, pipe.drop remaining) else none

/-- What `read` returns and what it leaves in the pipe; `none` where it does not return. -/
def read (pipe_in : Str) : Option (Option Str × Str) := do
  let (message_s, pipe_in) ← readSize (pipe_in.take 3) (pipe_in.drop 3)
  match Str.splitOnce delimiter message_s with
  | none => return (none, pipe_in)
  | some (pickled_size, pickled) =>
      if pickled_size.isdigit then
        let (pickled, pipe_in) ←
          readRemaining (pickled_size.digitsValue + 1 - pickled.length) pickled pipe_in
        return (if eom <:+ pickled then some pickled.dropLast else none, pipe_in)
      else
        return (none, pipe_in)

/-- What a number of calls of `read` return, one after another. -/
def reads : Nat → Str → Option (List (Option Str) × Str)
  | 0, pipe_in => some ([], pipe_in)
  | count + 1, pipe_in => do
      let (pickled, pipe_in) ← read pipe_in
      let (others, pipe_in) ← reads count pipe_in
      return (pickled :: others, pipe_in)

variable {ds message_s pickled pipe rest tail : Str}

theorem colon_not_digit (digits : ds.isdigit = true) : 58 ∉ ds := fun member =>
  absurd ((Str.isdigit_iff.mp digits).2 58 member) (by decide)

theorem isdigit_append_colon : (ds ++ 58 :: tail).isdigit = false := by
  rw [Bool.eq_false_iff]
  intro digits
  exact colon_not_digit digits (by simp)

theorem splitOnce_digits (digits : ds.isdigit = true) :
    Str.splitOnce delimiter (ds ++ 58 :: tail) = some (ds, tail) :=
  Str.splitOnce_append (colon_not_digit digits)

theorem readSize_other (other : message_s.isdigit = false) :
    readSize message_s pipe = some (message_s, pipe) := by
  cases pipe <;> simp [readSize, other]

theorem stream_cases (stream : message_s ++ pipe = ds ++ 58 :: tail) :
    (∃ more, ds = message_s ++ more ∧ pipe = more ++ 58 :: tail) ∨
      ∃ ahead, message_s = ds ++ 58 :: ahead ∧ ahead ++ pipe = tail := by
  rcases List.append_eq_append_iff.mp stream with ⟨more, same, left⟩ | ⟨more, same, left⟩
  · exact .inl ⟨more, same, left⟩
  · cases more with
    | nil => exact .inl ⟨[], by simpa using same.symm, left.symm⟩
    | cons colon ahead =>
        rw [List.cons_append, List.cons.injEq] at left
        exact .inr ⟨ahead, by rw [same, left.1], left.2.symm⟩

theorem readSize_digits (digits : ds.isdigit = true) (filled : message_s ≠ [])
    (short : message_s.length ≤ ds.length + 2) (stream : message_s ++ pipe = ds ++ 58 :: tail) :
    ∃ ahead left, readSize message_s pipe = some (ds ++ 58 :: ahead, left) ∧
      ahead ++ left = tail ∧ ahead.length ≤ 1 := by
  induction pipe generalizing message_s with
  | nil =>
      rw [List.append_nil] at stream
      subst stream
      refine ⟨tail, [], readSize_other isdigit_append_colon, List.append_nil tail, ?_⟩
      rw [List.length_append, List.length_cons] at short
      omega
  | cons byte pipe ih =>
      rcases stream_cases stream with ⟨more, size, _⟩ | ⟨ahead, past, left⟩
      · have read : message_s.isdigit = true := by
          refine Str.isdigit_iff.mpr ⟨filled, fun byte member => ?_⟩
          exact (Str.isdigit_iff.mp digits).2 byte (by simp [size, member])
        rw [readSize, if_pos read]
        refine ih (by simp) ?_ (by simpa using stream)
        rw [size, List.length_append, List.length_append, List.length_singleton]
        omega
      · refine ⟨ahead, byte :: pipe, ?_, left, ?_⟩
        · rw [past, readSize_other isdigit_append_colon]
        · rw [past, List.length_append, List.length_cons] at short
          omega

theorem readSize_stream {pickled_size : Str} (found : readSize message_s pipe = some (pickled_size, rest)) :
    pickled_size ++ rest = message_s ++ pipe := by
  induction pipe generalizing message_s with
  | nil =>
      rw [readSize] at found
      split at found
      · cases found
      · cases found
        rfl
  | cons byte pipe ih =>
      rw [readSize] at found
      split at found
      · rw [ih found, List.append_assoc]
        rfl
      · cases found
        rfl

theorem readRemaining_eq {remaining : Nat} {more : Str}
    (found : readRemaining remaining message_s pipe = some (more, rest)) :
    ∃ data, more = message_s ++ data ∧ pipe = data ++ rest ∧ data.length = remaining := by
  rw [readRemaining] at found
  split at found
  · next enough =>
      cases found
      exact ⟨pipe.take remaining, rfl, (List.take_append_drop _ _).symm, List.length_take_of_le enough⟩
  · cases found

theorem readRemaining_append {data : Str} :
    readRemaining data.length message_s (data ++ rest) = some (message_s ++ data, rest) := by
  simp [readRemaining]

theorem read_digits (digits : ds.isdigit = true) (tail : Str) : ∃ ahead left, ahead ++ left = tail ∧ ahead.length ≤ 1 ∧
    read (ds ++ 58 :: tail) =
      (readRemaining (ds.digitsValue + 1 - ahead.length) ahead left).map fun (pickled, pipe_in) =>
        (if eom <:+ pickled then some pickled.dropLast else none, pipe_in) := by
  have filled : 0 < ds.length := List.length_pos_of_ne_nil (Str.isdigit_iff.mp digits).1
  obtain ⟨ahead, left, found, stream, short⟩ :=
    readSize_digits digits (by simp) (by rw [List.length_take]; omega)
      (List.take_append_drop 3 (ds ++ 58 :: tail))
  refine ⟨ahead, left, stream, short, ?_⟩
  rw [read, found]
  simp only [Option.bind_eq_bind, Option.bind_some, splitOnce_digits digits, digits, if_true]
  cases readRemaining (ds.digitsValue + 1 - ahead.length) ahead left <;> rfl

theorem read_size (found : read pipe = some (some pickled, rest)) :
    ∃ ds tail : Str, ds.isdigit = true ∧ pipe = ds ++ 58 :: tail := by
  simp only [read, Option.bind_eq_bind, Option.bind_eq_some_iff] at found
  obtain ⟨⟨message_s, left⟩, sized, found⟩ := found
  have stream := readSize_stream sized
  rw [List.take_append_drop] at stream
  cases parts : Str.splitOnce delimiter message_s with
  | none =>
      rw [parts] at found
      cases found
  | some parted =>
      obtain ⟨ds, ahead⟩ := parted
      rw [parts] at found
      simp only at found
      split at found
      · next digits =>
          have size : message_s = ds ++ 58 :: ahead := (Str.splitOnce_byte parts).1
          exact ⟨ds, ahead ++ left, digits, by rw [← stream, size, List.append_assoc, List.cons_append]⟩
      · cases found

theorem eom_suffix : eom <:+ pickled ↔ ∃ message, pickled = message ++ [44] :=
  ⟨fun ⟨message, same⟩ => ⟨message, same.symm⟩, fun ⟨message, same⟩ => ⟨message, same.symm⟩⟩

theorem read_some : read pipe = some (some pickled, rest) ↔ ∃ ds : Str, ds.isdigit = true ∧
    ds.digitsValue = pickled.length ∧ pipe = ds ++ 58 :: (pickled ++ 44 :: rest) := by
  constructor
  · intro found
    obtain ⟨ds, tail, digits, rfl⟩ := read_size found
    obtain ⟨ahead, left, rfl, short, result⟩ := read_digits digits tail
    rw [result, Option.map_eq_some_iff] at found
    obtain ⟨⟨message, left_after⟩, remaining, same⟩ := found
    obtain ⟨data, rfl, rfl, size⟩ := readRemaining_eq remaining
    simp only [Prod.mk.injEq] at same
    obtain ⟨ended, rfl⟩ := same
    split at ended
    · next comma =>
        obtain ⟨body, whole⟩ := eom_suffix.mp comma
        rw [whole, List.dropLast_concat, Option.some.injEq] at ended
        have lengths := congrArg List.length whole
        simp only [List.length_append, List.length_singleton] at lengths
        refine ⟨ds, digits, by rw [← ended]; omega, ?_⟩
        rw [← List.append_assoc, whole, ended, List.append_assoc]
        rfl
    · cases ended
  · intro ⟨ds, digits, size, stream⟩
    obtain ⟨ahead, left, whole, short, result⟩ := read_digits digits (pickled ++ 44 :: rest)
    obtain ⟨data, message⟩ : ahead <+: pickled ++ [44] := by
      refine List.prefix_of_prefix_length_le ⟨left, whole⟩ ⟨rest, by simp⟩ ?_
      rw [List.length_append, List.length_singleton]
      omega
    have remains : left = data ++ rest := by
      rw [← List.append_cancel_left_eq ahead, whole, ← List.append_assoc, message]
      simp
    have remaining : ds.digitsValue + 1 - ahead.length = data.length := by
      have lengths := congrArg List.length message
      simp only [List.length_append, List.length_singleton] at lengths
      omega
    rw [stream, result, remaining, remains, readRemaining_append, message, Option.map_some]
    simp only [if_pos (eom_suffix.mpr ⟨pickled, rfl⟩), List.dropLast_concat]

theorem reads_succ {count : Nat} {pickles : List (Option Str)} :
    reads (count + 1) pipe = some (pickles, rest) ↔ ∃ first others left,
      read pipe = some (first, left) ∧ reads count left = some (others, rest) ∧
        pickles = first :: others := by
  simp only [reads, Option.bind_eq_bind, Option.bind_eq_some_iff, Prod.exists, Option.pure_def,
    Option.some.injEq, Prod.mk.injEq]
  grind

end MessageReader

namespace MessageBox

open MessageReader

variable {μ : Type*}

/-- What becomes of one `pipe_out.write(…)`: the pipe takes the whole text, or an `IOError`
is raised after the pipe accepted a number of its bytes. -/
inductive Write where
  | whole
  | raised (errno : Errno) (accepted : Nat)

inductive Outcome where
  | returned
  | raised (errno : Errno)
  | trying

/-- The text that a message is sent as. -/
def frame (pickled : Str) : Str := Str.decimal pickled.length ++ delimiter ++ pickled ++ eom

/-- What `put` adds to the pipe, with what becomes of each write. -/
def put (message_s : Str) : List Write → Str × Outcome
  | [] => ([], .trying)
  | .whole :: _ => (message_s, .returned)
  | .raised errno accepted :: writes =>
      if errno ∉ errno_block then (message_s.take accepted, .raised errno)
      else
        let (written, outcome) := put message_s writes
        (message_s.take accepted ++ written, outcome)

/-- What `get` returns and what it leaves in the pipe; the exceptions that `loads` raises
are caught. -/
def get (pickle : Pickle μ) (pipe_in : Str) : Option (Option μ × Str) :=
  (read pipe_in).map fun (pickled, pipe_in) => (pickled.bind pickle.loads, pipe_in)

/-- A message with the writes of it that block before the pipe accepts the whole of it. -/
structure Sending (μ : Type*) where
  message : μ
  interruptions : List (Errno × Nat)
  blocks : ∀ interruption ∈ interruptions, interruption.1 ∈ errno_block

/-- The writes that `put` makes of a message. -/
def Sending.writes (sending : Sending μ) : List Write :=
  sending.interruptions.map (fun (errno, accepted) => .raised errno accepted) ++ [.whole]

/-- What a call of `put` adds to the pipe. -/
def Sending.put (pickle : Pickle μ) (sending : Sending μ) : Str × Outcome :=
  MessageBox.put (frame (pickle.dumps sending.message)) sending.writes

/-- What the calls of `put` add to the pipe. -/
def transmitted (pickle : Pickle μ) (sendings : List (Sending μ)) : Str :=
  sendings.flatMap fun sending => (sending.put pickle).1

/-- What the pipe holds of the writes of a message that did not end. -/
def Sending.stray (pickle : Pickle μ) (sending : Sending μ) : Str :=
  sending.interruptions.flatMap fun interruption =>
    (frame (pickle.dumps sending.message)).take interruption.2

variable {pickle : Pickle μ} {sending : Sending μ} {sendings : List (Sending μ)} {pickled pipe rest : Str}

/-- `put` returns when the whole message was accepted, and what was accepted before stays. -/
theorem Sending.put_eq :
    sending.put pickle = (sending.stray pickle ++ frame (pickle.dumps sending.message), .returned) := by
  obtain ⟨message, interruptions, blocks⟩ := sending
  simp only [Sending.put, Sending.writes, Sending.stray]
  induction interruptions with
  | nil => rfl
  | cons interruption interruptions ih =>
      have blocked := blocks interruption (by simp)
      rw [List.map_cons, List.cons_append, MessageBox.put, if_neg (not_not_intro blocked),
        ih fun other member => blocks other (by simp [member]), List.flatMap_cons, List.append_assoc]

theorem frame_eq : frame pickled = Str.decimal pickled.length ++ 58 :: (pickled ++ [44]) := by
  simp only [frame, delimiter, eom, List.append_assoc]
  rfl

theorem dumps_ne_nil (pickle : Pickle μ) (message : μ) : pickle.dumps message ≠ [] := by
  intro empty
  have inverts := pickle.inverts message
  rw [empty, pickle.eof] at inverts
  cases inverts

theorem read_written : read (frame pickled ++ rest) = some (some pickled, rest) :=
  read_some.mpr ⟨Str.decimal pickled.length, Str.decimal_isdigit _, Str.digitsValue_decimal _,
    by simp [frame_eq]⟩

theorem get_written (message : μ) :
    get pickle (frame (pickle.dumps message) ++ rest) = some (some message, rest) := by
  simp [get, read_written, pickle.inverts]

theorem read_frame (filled : pickled ≠ []) (found : read pipe = some (some pickled, rest)) :
    ∃ zeros, pipe = List.replicate zeros 48 ++ frame pickled ++ rest := by
  obtain ⟨ds, digits, size, stream⟩ := read_some.mp found
  have positive : 0 < ds.digitsValue := by rw [size]; exact List.length_pos_of_ne_nil filled
  obtain ⟨zeros, padded⟩ := Str.digits_padded (Str.isdigit_iff.mp digits).2 positive
  exact ⟨zeros, by rw [stream, padded, size, frame_eq]; simp⟩

theorem reads_written (pickles : List Str) :
    reads pickles.length (pickles.flatMap frame) = some (pickles.map some, []) := by
  induction pickles with
  | nil => rfl
  | cons pickled pickles ih =>
      rw [List.flatMap_cons, List.length_cons, reads_succ]
      exact ⟨some pickled, pickles.map some, pickles.flatMap frame, read_written, ih, rfl⟩

/-- What a message is read from, but for the zeros before it. -/
def Sending.parts (pickle : Pickle μ) (sending : Sending μ) : Str × Str :=
  (sending.stray pickle, frame (pickle.dumps sending.message))

def pickles (pickle : Pickle μ) (sendings : List (Sending μ)) : List Str :=
  sendings.map fun sending => pickle.dumps sending.message

theorem reads_slots
    (found : reads sendings.length pipe = some ((pickles pickle sendings).map some, rest)) :
    ∃ slots : List (Slot UInt8),
      slots.map (fun slot => (slot.stray, slot.frame)) = sendings.map (Sending.parts pickle) ∧
        pipe = slots.flatMap (Slot.read 48) ++ rest := by
  induction sendings generalizing pipe with
  | nil =>
      cases found
      exact ⟨[], rfl, rfl⟩
  | cons sending sendings ih =>
      obtain ⟨first, others, left, read, reads, same⟩ := reads_succ.mp found
      simp only [pickles, List.map_cons, List.cons.injEq] at same
      obtain ⟨rfl, rfl⟩ := same
      obtain ⟨zeros, stream⟩ := read_frame (dumps_ne_nil pickle _) read
      obtain ⟨slots, same, others⟩ := ih reads
      refine ⟨⟨sending.stray pickle, zeros, frame (pickle.dumps sending.message)⟩ :: slots, ?_, ?_⟩
      · rw [List.map_cons, List.map_cons, same]
        rfl
      · rw [stream, others, List.flatMap_cons, Slot.read]
        simp only [List.append_assoc]

theorem transmitted_slots {slots : List (Slot UInt8)}
    (same : slots.map (fun slot => (slot.stray, slot.frame)) = sendings.map (Sending.parts pickle)) :
    transmitted pickle sendings = slots.flatMap Slot.written := by
  have written := congrArg (List.flatMap fun parts => parts.1 ++ parts.2) same
  rw [List.flatMap_map, List.flatMap_map] at written
  rw [transmitted]
  simp only [Sending.put_eq]
  exact written.symm

theorem frame_head (filled : pickled ≠ []) (rest : Str) : frame pickled ≠ 48 :: rest := by
  rw [frame_eq]
  intro starts
  cases size : Str.decimal pickled.length with
  | nil => exact (Str.isdigit_iff.mp (Str.decimal_isdigit pickled.length)).1 size
  | cons byte digits =>
      rw [size, List.cons_append, List.cons.injEq] at starts
      rw [starts.1] at size
      exact Str.decimal_head (List.length_pos_of_ne_nil filled) digits size

theorem stray_head {text : Str} (starts : ∀ rest, text ≠ 48 :: rest) (interruptions : List (Errno × Nat)) :
    ∀ rest, interruptions.flatMap (fun interruption => text.take interruption.2) ≠ 48 :: rest := by
  induction interruptions with
  | nil => simp
  | cons interruption interruptions ih =>
      intro rest same
      rw [List.flatMap_cons] at same
      cases taken : text.take interruption.2 with
      | nil =>
          rw [taken] at same
          exact ih rest same
      | cons byte bytes =>
          rw [taken, List.cons_append, List.cons.injEq] at same
          have whole := List.take_append_drop interruption.2 text
          rw [taken, same.1] at whole
          exact starts _ whole.symm

theorem framed {slot : Slot UInt8} (same : (slot.stray, slot.frame) = sending.parts pickle) :
    slot.Framed 48 44 := by
  obtain ⟨stray, frame_is⟩ := Prod.mk.inj same
  have head := frame_head (dumps_ne_nil pickle sending.message)
  refine ⟨by rw [frame_is]; exact head, ?_, ?_⟩
  · rw [frame_is, frame_eq]
    exact ⟨Str.decimal (pickle.dumps sending.message).length ++ 58 :: pickle.dumps sending.message, by simp⟩
  · rw [stray]
    exact stray_head head sending.interruptions

theorem stray_eq_nil : sending.stray pickle = [] ↔
    ∀ interruption ∈ sending.interruptions, interruption.2 = 0 := by
  have filled : frame (pickle.dumps sending.message) ≠ [] := by simp [frame_eq]
  simp [Sending.stray, List.flatMap_eq_nil_iff, List.take_eq_nil_iff, filled]

/-- Messages survive the writes that were interrupted if and only if the pipe accepted
nothing in those. -/
theorem messages_survive (pickle : Pickle μ) (sendings : List (Sending μ)) :
    reads sendings.length (transmitted pickle sendings) =
        some (sendings.map fun sending => some (pickle.dumps sending.message), []) ↔
      ∀ sending ∈ sendings, ∀ interruption ∈ sending.interruptions, interruption.2 = 0 := by
  have all : (sendings.map fun sending => some (pickle.dumps sending.message)) =
      (pickles pickle sendings).map some := by simp [pickles]
  rw [all]
  constructor
  · intro found
    obtain ⟨slots, same, stream⟩ := reads_slots found
    have own : ∀ slot ∈ slots, ∃ sending ∈ sendings, sending.parts pickle = (slot.stray, slot.frame) :=
      fun slot member => List.mem_map.mp (same ▸ List.mem_map_of_mem member)
    rw [transmitted_slots same, List.append_nil] at stream
    have complete : slots.flatMap (Slot.read 48) = slots.flatMap Slot.written ++ [] := by simp [stream]
    obtain ⟨-, clean⟩ := Slot.stray_nil (fun slot member => framed (own slot member).choose_spec.2.symm)
      (by decide) complete
    intro sending member
    have slot : sending.parts pickle ∈ slots.map (fun slot => (slot.stray, slot.frame)) :=
      same ▸ List.mem_map_of_mem member
    obtain ⟨slot, among, parts⟩ := List.mem_map.mp slot
    exact stray_eq_nil.mp ((Prod.mk.inj parts).1.symm.trans (clean slot among))
  · intro clean
    have written : transmitted pickle sendings = (pickles pickle sendings).flatMap frame := by
      rw [transmitted, pickles, List.flatMap_map]
      refine List.flatMap_congr fun sending member => ?_
      rw [Sending.put_eq, stray_eq_nil.mpr (clean sending member)]
      rfl
    have count : sendings.length = (pickles pickle sendings).length := by simp [pickles]
    rw [written, count]
    exact reads_written _

/-- `pickle` for `None` alone. -/
def nonePickle : Pickle Unit where
  dumps _ := ascii "N."
  loads text := if text = ascii "N." then some () else none
  inverts _ := rfl
  eof := rfl

/-- A write that a signal interrupts after the first byte of the size. -/
def interruptedSending : Sending Unit where
  message := ()
  interruptions := [(.EINTR, 1)]
  blocks := by decide

/-- The reader takes the size for 22, and waits for bytes that nothing sends. -/
theorem interrupted_message : transmitted nonePickle [interruptedSending] = ascii "22:N.," ∧
    reads 1 (transmitted nonePickle [interruptedSending]) = none := by
  decide +kernel

end MessageBox

end ExaProxy.Util
