import ExaProxy.Client.Manager
import ExaProxy.Content.Operations
import ExaProxy.Http.Validated
import ExaProxy.Worker.Response

namespace ExaProxy.Worker

open ExaProxy.Data ExaProxy.Http ExaProxy.Network
open ExaProxy.Client (Mode parseRemaining)
open ExaProxy.Content (ContentManager Remaining Send Site)

variable {configuration : Http.Configuration} {transparent : Bool} {remoteIp raw : Str}
  {message : Message} {manager after : ContentManager} {site : Site} {send : Send} {client : Sock}
  {answer : ContentManager.Answer}

theorem conclude_length {prepared : ContentManager.Prepared}
    (ok : ContentManager.conclude send client prepared = .ok (after, answer)) :
    answer.length = prepared.length := by
  simp only [ContentManager.conclude] at ok
  split at ok
  · split at ok
    · cases ok
      rfl
    · split at ok
      · cases ok
      · cases ok
        rfl
  · split at ok
    · cases ok
      rfl
    · cases ok
      rfl

/-- Without an upgrade the length is the one that was sent, if there is a connection. -/
theorem getContent_length {host port upgrade length request : Str}
    (plain : ContentManager.plainUpgrade upgrade = true)
    (ok : manager.getContent site send client (.download host port upgrade length request) =
      .ok (after, answer)) : answer.length = .decode length ∨ answer.length = .number 0 := by
  obtain ⟨prepared, prepares, concludes⟩ := bind_ok ok
  rw [conclude_length concludes]
  obtain ⟨number, current, sock, new, _, rfl⟩ := ContentManager.contact_ok prepares
  rw [if_pos plain]
  split
  · exact .inl rfl
  · exact .inr rfl

theorem getContent_first (length request : Str) : ∃ after answer,
    ContentManager.getContent {} ContentManager.anySite (.accepted 0) 7
      (.download (ascii "10.0.0.1") (ascii "80") [] length request) = .ok (after, answer) ∧
    answer.length = .decode length :=
  ⟨_, _, rfl, rfl⟩

theorem decode_decimal (number : Nat) :
    Remaining.decode (Str.decimal number) = .number (Str.digitsValue (Str.decimal number)) :=
  if_pos (Str.decimal_isdigit number)

/-- Only a length that is negative reads as the mode for a tunnel. -/
theorem parseRemaining_decode (length : ContentLength) :
    (parseRemaining (.decode length.toStr)).1 = .passthrough ↔
      ∃ number, length = .number number ∧ number < 0 := by
  cases length with
  | chunked =>
      have text : Remaining.decode (ContentLength.chunked).toStr = .text (ascii "chunked") := by decide
      simp [text, parseRemaining]
  | number number =>
      cases number with
      | ofNat number =>
          rw [ContentLength.toStr, Str.ofInt, decode_decimal]
          simp only [parseRemaining, ContentLength.number.injEq]
          split
          · simp
          · split
            · simp
            · omega
      | negSucc number =>
          have signed : Str.isdigit (Str.ofInt (.negSucc number)) = false := by
            rw [Bool.eq_false_iff]
            intro digits
            exact absurd ((Str.isdigit_iff.mp digits).2 45 List.mem_cons_self) (by decide)
          have text : Remaining.decode (Str.ofInt (.negSucc number)) = .text (Str.ofInt (.negSucc number)) :=
            if_neg (by simp [signed])
          have other : Str.ofInt (.negSucc number) ≠ ascii "chunked" := by
            intro same
            cases (List.cons.inj same).1
          simp only [ContentLength.toStr, text, parseRemaining, if_neg other, true_iff]
          exact ⟨_, rfl, Int.negSucc_lt_zero number⟩

theorem parseRemaining_modes (length : Remaining) :
    (parseRemaining length).1 ∈ [.transfer, .chunked, .newRequest] ↔
      (parseRemaining length).1 ≠ .passthrough := by
  cases length with
  | number count =>
      simp only [parseRemaining]
      split
      · simp
      · split <;> simp
  | text length =>
      simp only [parseRemaining]
      split <;> simp

/-- No download of a request without an upgrade lets its client past the redirector,
whatever connection it gets and whatever headers are added. -/
def Filtered (message : Message) : Prop :=
  ∀ upgrade, ContentManager.plainUpgrade upgrade = true →
    ∀ headers host port (manager : ContentManager) site send client after answer,
      manager.getContent site send client (download host port upgrade { message with headers }) =
        .ok (after, answer) → (parseRemaining answer.length).1 ∈ [.transfer, .chunked, .newRequest]

theorem filtered_iff_length :
    Filtered message ↔ ¬ ∃ number, message.contentLength = .number number ∧ number < 0 := by
  rw [← parseRemaining_decode]
  constructor
  · intro filtered passes
    obtain ⟨after, answer, ok, length⟩ := getContent_first message.contentLength.toStr message.toStr
    have mode := filtered [] rfl message.headers _ _ _ _ _ _ _ _ ok
    exact (parseRemaining_modes _).mp mode (length ▸ passes)
  · intro known upgrade plain headers host port manager site send client after answer ok
    rw [parseRemaining_modes]
    rcases getContent_length plain ok with same | none
    · rw [same]
      exact known
    · rw [none]
      decide

/-- A client is filtered further on unless its length is negative and its coding is
not the chunked one. -/
theorem filtered_iff (ok : Message.parse configuration transparent remoteIp raw = .ok message) :
    Filtered message ↔
      (∃ encoding, message.headers.encoding = .ok encoding ∧
        Str.includes (ascii "chunked") encoding = true) ∨
      ∃ number, message.headers.lengthLine = .ok number ∧ 0 ≤ number := by
  obtain ⟨encoding, number, encodes, numbers, length⟩ := (Message.parse_validated ok).contentLength
  rw [filtered_iff_length, length]
  simp only [encodes, numbers, Except.ok.injEq, exists_eq_left']
  split
  · next chunked => simp [chunked]
  · next plain => simp [plain]

theorem filtered_post : ∃ message, Message.parse ⟨ascii "1.2.3", [], false, false⟩ false
    (ascii "127.0.0.1") (ascii "POST http://a/ HTTP/1.1\r\nContent-Length: 5\r\n\r\n") = .ok message ∧
    Filtered message := by
  have parsed : (Message.parse ⟨ascii "1.2.3", [], false, false⟩ false (ascii "127.0.0.1")
      (ascii "POST http://a/ HTTP/1.1\r\nContent-Length: 5\r\n\r\n")).map
        (fun message => message.headers.lengthLine) = .ok (.ok 5) := by decide +kernel
  obtain ⟨message, ok, length⟩ := map_ok parsed
  exact ⟨message, ok, (filtered_iff ok).mpr (.inr ⟨5, length, by decide⟩)⟩

/-- A length below zero opens a tunnel. -/
theorem negative_length_passes : ¬ ∀ configuration transparent remoteIp raw message,
    Message.parse configuration transparent remoteIp raw = .ok message → Filtered message := by
  intro filtered
  have parsed : (Message.parse ⟨ascii "1.2.3", [], false, false⟩ false (ascii "127.0.0.1")
      (ascii "POST http://a/ HTTP/1.1\r\nContent-Length: -5\r\n\r\n")).map
        (fun message => message.contentLength) = .ok (.number (-5)) := by decide +kernel
  obtain ⟨message, ok, length⟩ := map_ok parsed
  exact filtered_iff_length.mp (filtered _ _ _ _ message ok) ⟨-5, length, by decide⟩

end ExaProxy.Worker
