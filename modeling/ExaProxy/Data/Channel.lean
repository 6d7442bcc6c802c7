import Mathlib.Data.List.Basic

namespace ExaProxy.Data

/-! Messages on a stream.  A codec says how a message is written and how the next
one is read; a channel is written piece by piece at one end and read message by
message at the other. -/

variable {α μ : Type*}

/-- `decode` gives `none` where it waits for more of the stream.  What it reads
of a stream of messages, whatever is still missing at its end, is the first one. -/
structure Codec (α μ : Type*) where
  encode : μ → List α
  decode : List α → Option (Option μ × List α)
  waits : decode [] = none
  delivers : ∀ message rest, decode (encode message ++ rest) = some (some message, rest)
  faithful : ∀ stream left message rest found more, stream ++ left = encode message ++ rest →
    decode stream = some (found, more) → found = some message ∧ more ++ left = rest

/-- `unsent` is what the writer has yet to write of its last message, `received`
the messages that were read and `pending` those that were not. -/
structure Channel (codec : Codec α μ) where
  stream : List α
  unsent : List α
  received : List μ
  pending : List μ
  carries : stream ++ unsent = pending.flatMap codec.encode

namespace Channel

variable {codec : Codec α μ} (channel : Channel codec)

def empty : Channel codec := ⟨[], [], [], [], rfl⟩

/-- All messages, in the order they were put in. -/
def sent : List μ := channel.received ++ channel.pending

theorem carries_put (message : μ) (idle : channel.unsent = []) :
    channel.stream ++ codec.encode message = (channel.pending ++ [message]).flatMap codec.encode := by
  have carries := channel.carries
  rw [idle, List.append_nil] at carries
  simp [carries]

theorem carries_write (count : Nat) :
    (channel.stream ++ channel.unsent.take count) ++ channel.unsent.drop count =
      channel.pending.flatMap codec.encode := by
  rw [List.append_assoc, List.take_append_drop]
  exact channel.carries

/-- The next message is the oldest one that was not read. -/
theorem decode_pending {found : Option μ} {more : List α}
    (decoded : codec.decode channel.stream = some (found, more)) :
    ∃ message rest, channel.pending = message :: rest ∧ found = some message ∧
      more ++ channel.unsent = rest.flatMap codec.encode := by
  have carries := channel.carries
  cases waiting : channel.pending with
  | nil =>
      rw [waiting, List.flatMap_nil, List.append_eq_nil_iff] at carries
      rw [carries.1, codec.waits] at decoded
      cases decoded
  | cons message rest =>
      rw [waiting, List.flatMap_cons] at carries
      obtain ⟨same, left⟩ := codec.faithful _ _ _ _ _ _ carries decoded
      exact ⟨message, rest, rfl, same, left⟩

theorem carries_get {found : Option μ} {more : List α}
    (decoded : codec.decode channel.stream = some (found, more)) :
    more ++ channel.unsent = channel.pending.tail.flatMap codec.encode := by
  obtain ⟨message, rest, waiting, _, left⟩ := channel.decode_pending decoded
  rw [waiting]
  exact left

/-- The writer starts on a message, when it is done with the one before. -/
def put (message : μ) : Option (Channel codec) :=
  if idle : channel.unsent = [] then
    some ⟨channel.stream, codec.encode message, channel.received, channel.pending ++ [message],
      channel.carries_put message idle⟩
  else none

/-- The writer gets `count` further symbols written. -/
def write (count : Nat) : Channel codec :=
  ⟨channel.stream ++ channel.unsent.take count, channel.unsent.drop count, channel.received,
    channel.pending, channel.carries_write count⟩

/-- The reader reads a message, or waits for it. -/
def get : Option (Option μ × Channel codec) :=
  match decoded : codec.decode channel.stream with
  | none => none
  | some (found, more) => some (found,
      ⟨more, channel.unsent, channel.received ++ channel.pending.take 1, channel.pending.tail,
        channel.carries_get decoded⟩)

variable {channel} {after : Channel codec} {message : μ} {found : Option μ}

theorem put_spec (written : channel.put message = some after) :
    channel.unsent = [] ∧ after.received = channel.received ∧
      after.pending = channel.pending ++ [message] ∧ after.sent = channel.sent ++ [message] := by
  rw [put] at written
  split at written
  · next idle =>
      cases written
      exact ⟨idle, rfl, rfl, (List.append_assoc ..).symm⟩
  · cases written

@[simp] theorem write_received (count : Nat) : (channel.write count).received = channel.received := rfl

@[simp] theorem write_pending (count : Nat) : (channel.write count).pending = channel.pending := rfl

@[simp] theorem write_sent (count : Nat) : (channel.write count).sent = channel.sent := rfl

/-- Messages are read in the order they were put in, each once. -/
theorem get_spec (read : channel.get = some (found, after)) :
    ∃ message, found = some message ∧ channel.pending = message :: after.pending ∧
      after.received = channel.received ++ [message] ∧ after.sent = channel.sent := by
  rw [get] at read
  split at read
  · cases read
  · next decoded =>
      obtain ⟨message, rest, waiting, same, _⟩ := channel.decode_pending decoded
      cases read
      exact ⟨message, same, by simp [waiting], by simp [waiting], by simp [sent, waiting]⟩

theorem get_unsent (read : channel.get = some (found, after)) : after.unsent = channel.unsent := by
  rw [get] at read
  split at read
  · cases read
  · cases read
    rfl

/-- In an empty channel no message is under way. -/
theorem pending_empty (empty : channel.stream = []) (written : channel.unsent = []) : channel.pending = [] := by
  have carries := channel.carries
  cases waiting : channel.pending with
  | nil => rfl
  | cons message rest =>
      rw [empty, written, waiting, List.flatMap_cons, List.nil_append] at carries
      have delivered := codec.delivers message (rest.flatMap codec.encode)
      rw [← carries, codec.waits] at delivered
      cases delivered

/-- A message that was written to its end is there to be read. -/
theorem get_ready (waiting : channel.pending ≠ []) (written : channel.unsent = []) :
    ∃ message after, channel.get = some (some message, after) := by
  have carries := channel.carries
  cases oldest : channel.pending with
  | nil => exact absurd oldest waiting
  | cons message rest =>
      rw [written, List.append_nil, oldest, List.flatMap_cons] at carries
      have decoded := codec.delivers message (rest.flatMap codec.encode)
      rw [← carries] at decoded
      refine ⟨message, ?_⟩
      rw [get]
      split
      · next none => rw [decoded] at none; cases none
      · next other =>
          rw [decoded] at other
          cases other
          exact ⟨_, rfl⟩

end Channel

end ExaProxy.Data
