import ExaProxy.Client.Readers

namespace ExaProxy.Client

open ExaProxy.Data

/-- A TLS record: its header says how long it is. -/
structure Record (text : Str) : Prop where
  header : 5 ≤ text.length
  sized : getTlsHelloSize text = text.length

/-- How many of the pieces come before the one with the last of `length` bytes. -/
def early : Nat → List Str → Nat
  | _, [] => 0
  | length, piece :: pieces => if piece.length < length then early (length - piece.length) pieces + 1 else 0

namespace TlsReader

/-- What the reader yields for the pieces, up to a request or the end of the connection. -/
def feed (settings : Settings) : List Str → TlsReader → List Yielded
  | [], _ => []
  | piece :: pieces, client =>
      let (yielded, after) := client.resume settings [.data piece]
      if yielded = .nothing then .nothing :: after.feed settings pieces else [yielded]

/-- The reader when it has not yielded a request yet. -/
def unread (rBuffer : Str) (size : Option Nat) : TlsReader := { mode := .tls, rBuffer, size }

variable {settings : Settings} {record more rest rBuffer piece first : Str} {pieces : List Str} {size : Option Nat}
  {length : Nat}

theorem resume_unread (filled : piece ≠ []) : (unread rBuffer size).resume settings [.data piece] =
    (unread (rBuffer ++ piece) size).turn settings := by
  cases piece with
  | nil => exact absurd rfl filled
  | cons byte piece =>
      rw [resume.eq_def]
      simp [unread]

theorem getTlsHelloSize_eq (comes : rBuffer ++ rest = record ++ more) (there : 5 ≤ rBuffer.length)
    (header : 5 ≤ record.length) : getTlsHelloSize rBuffer = getTlsHelloSize record := by
  have kept : ∀ place < 5, rBuffer.getD place 0 = record.getD place 0 := by
    intro place small
    have both := congrArg (fun text : Str => text[place]?) comes
    rw [List.getElem?_append_left (by omega), List.getElem?_append_left (by omega)] at both
    rw [List.getD_eq_getElem?_getD, both, List.getD_eq_getElem?_getD]
  rw [getTlsHelloSize, getTlsHelloSize, kept 3 (by decide), kept 4 (by decide)]

/-- What `checkRequest` makes of a part of a record, of which the size is known or the header
is there. -/
theorem checkRequest_part (whole : Record record) (fits : record.length ≤ settings.tlsMaxBuffer)
    (known : size = some record.length ∨ size = some 0 ∧ 5 ≤ rBuffer.length)
    (comes : rBuffer ++ rest = record ++ more) : checkRequest rBuffer settings.tlsMaxBuffer size =
      if rBuffer.length < record.length then some ([], rBuffer, some record.length)
      else some (record, rBuffer.drop record.length, some record.length) := by
  have header := whole.header
  have front : record.length ≤ rBuffer.length → rBuffer.take record.length = record := by
    intro enough
    rw [← List.take_append_of_le_length enough, comes, List.take_left]
  have measured : checkRequest rBuffer settings.tlsMaxBuffer size =
      if rBuffer.length ≥ record.length then
        some (rBuffer.take record.length, rBuffer.drop record.length, some record.length)
      else some ([], rBuffer, some record.length) := by
    obtain rfl | ⟨rfl, there⟩ := known
    · have positive : ¬ record.length = 0 := by omega
      have short : ¬ record.length > settings.tlsMaxBuffer := by omega
      simp only [checkRequest, positive, false_and, if_false, short, or_self]
    · have size : getTlsHelloSize rBuffer = record.length := by
        rw [getTlsHelloSize_eq comes there header, whole.sized]
      have positive : ¬ record.length = 0 := by omega
      have short : ¬ record.length > settings.tlsMaxBuffer := by omega
      have long : ¬ rBuffer.length < 5 := by omega
      simp only [checkRequest, long, and_false, if_false, if_true, size, positive, short, or_self]
  rw [measured]
  by_cases enough : record.length ≤ rBuffer.length
  · rw [if_pos enough, if_neg (by omega), front enough]
  · rw [if_neg enough, if_pos (by omega)]

theorem turn_part (whole : Record record) (fits : record.length ≤ settings.tlsMaxBuffer)
    (known : size = some record.length ∨ size = some 0 ∧ 5 ≤ rBuffer.length)
    (comes : rBuffer ++ rest = record ++ more) : (unread rBuffer size).turn settings =
      if rBuffer.length < record.length then (.nothing, unread rBuffer (some record.length))
      else (.request record, { unread (rBuffer.drop record.length) (some 0) with awaiting := true }) := by
  have checked := checkRequest_part whole fits known comes
  have filled : record ≠ [] := List.ne_nil_of_length_pos (Nat.lt_of_lt_of_le (by decide) whole.header)
  by_cases part : rBuffer.length < record.length
  · rw [if_pos part] at checked ⊢
    simp [turn, unread, checked]
  · rw [if_neg part] at checked ⊢
    simp [turn, unread, checked, filled]

/-- The record is yielded when the last of its bytes has come. -/
def Awaits (settings : Settings) (record : Str) (pieces : List Str) (client : TlsReader) : Prop :=
  client.feed settings pieces =
    List.replicate (early (record.length - client.rBuffer.length) pieces) .nothing ++ [.request record]

theorem awaits_cons (whole : Record record) (fits : record.length ≤ settings.tlsMaxBuffer) (filled : piece ≠ [])
    (short : rBuffer.length < record.length)
    (known : size = some record.length ∨ size = some 0 ∧ 5 ≤ (rBuffer ++ piece).length)
    (comes : rBuffer ++ (piece :: pieces).flatten = record ++ more)
    (later : (rBuffer ++ piece).length < record.length →
      Awaits settings record pieces (unread (rBuffer ++ piece) (some record.length))) :
    Awaits settings record (piece :: pieces) (unread rBuffer size) := by
  rw [List.flatten_cons, ← List.append_assoc] at comes
  rw [Awaits, feed, resume_unread filled, turn_part whole fits known comes]
  by_cases part : (rBuffer ++ piece).length < record.length
  · have there := later part
    rw [List.length_append] at part
    have shorter : piece.length < record.length - rBuffer.length := by omega
    have less : record.length - rBuffer.length - piece.length = record.length - (rBuffer ++ piece).length := by
      rw [List.length_append]
      omega
    rw [Awaits] at there
    simp only [unread, List.length_append] at there less
    simp only [List.length_append, part, if_true, unread, early, shorter, less, List.replicate_succ, List.cons_append,
      there]
  · rw [List.length_append] at part
    have whole : ¬ piece.length < record.length - rBuffer.length := by omega
    simp [unread, early, part, whole]

theorem awaits_known (whole : Record record) (fits : record.length ≤ settings.tlsMaxBuffer)
    (short : rBuffer.length < record.length) (filled : ∀ piece ∈ pieces, piece ≠ [])
    (comes : rBuffer ++ pieces.flatten = record ++ more) :
    Awaits settings record pieces (unread rBuffer (some record.length)) := by
  induction pieces generalizing rBuffer with
  | nil =>
      have lengths := congrArg List.length comes
      simp only [List.flatten_nil, List.append_nil, List.length_append] at lengths
      omega
  | cons piece pieces ih =>
      obtain ⟨first, others⟩ := List.forall_mem_cons.mp filled
      refine awaits_cons whole fits first short (.inl rfl) comes fun part => ih part others ?_
      rw [← comes, List.flatten_cons, List.append_assoc]

theorem feed_short (nonempty : first ≠ []) (short : first.length < 5) (others : ∀ piece ∈ pieces, piece ≠ []) :
    feed settings (first :: pieces) { mode := .tls } = if pieces = [] then [.nothing] else [.nothing, .closed] := by
  have kept : (unread first (some 0)).turn settings = (.nothing, unread first none) := by
    simp [turn, unread, checkRequest, short]
  have start : ({ mode := .tls } : TlsReader).resume settings [.data first] = (.nothing, unread first none) := by
    rw [← kept]
    exact resume_unread nonempty
  rw [feed, start]
  cases pieces with
  | nil => rfl
  | cons second pieces =>
      have lost : (unread (first ++ second) none).turn settings = (.closed, unread (first ++ second) none) := rfl
      simp only [if_true, feed, resume_unread (others second List.mem_cons_self), lost, reduceCtorEq, if_false]

/-- However the record is cut, it is yielded as soon as it is there, and the connection is not
closed before, if and only if the first piece has all of the header. -/
theorem record_awaited_iff (whole : Record record) (fits : record.length ≤ settings.tlsMaxBuffer)
    (filled : ∀ piece ∈ pieces, piece ≠ []) (comes : pieces.flatten = record ++ more) :
    Awaits settings record pieces { mode := .tls } ↔ ∀ first ∈ pieces.head?, 5 ≤ first.length := by
  have header := whole.header
  cases pieces with
  | nil =>
      have lengths := congrArg List.length comes
      simp only [List.flatten_nil, List.length_nil, List.length_append] at lengths
      omega
  | cons first pieces =>
      obtain ⟨nonempty, others⟩ := List.forall_mem_cons.mp filled
      simp only [List.head?_cons, Option.mem_def, Option.some.injEq, forall_eq']
      constructor
      · intro awaited
        by_contra short
        have last := congrArg List.getLast? awaited
        rw [List.getLast?_append, feed_short nonempty (Nat.lt_of_not_le short) others] at last
        split at last <;> simp at last
      · intro there
        refine awaits_cons whole fits nonempty (Nat.lt_of_lt_of_le (by decide) header) (.inr ⟨rfl, there⟩) comes fun part => ?_
        exact awaits_known whole fits part others comes

/-- A server that no proxy stands before. -/
def direct : Settings where
  protocol := ⟨fun _ => false, fun _ => false⟩
  httpMaxBuffer := 65536
  tlsMaxBuffer := 65536
  proxied := fun _ => false

def shortRecord : Str := [22, 3, 1, 0, 1, 1]

theorem record_awaited_whole : Awaits direct shortRecord [[22, 3, 1, 0, 1], [1, 9]] { mode := .tls } ↔
    ∀ first ∈ ([[22, 3, 1, 0, 1], [1, 9]] : List Str).head?, 5 ≤ first.length :=
  @record_awaited_iff direct shortRecord [9] [[22, 3, 1, 0, 1], [1, 9]] ⟨by decide, by decide⟩ (by decide) (by decide) rfl

/-- The first four bytes of a record come alone. -/
theorem record_not_awaited : ¬ ∀ settings record more pieces, Record record → record.length ≤ settings.tlsMaxBuffer →
    (∀ piece ∈ pieces, piece ≠ []) → pieces.flatten = record ++ more →
    Awaits settings record pieces { mode := .tls } := by
  intro awaits
  have awaited := awaits direct shortRecord [] [[22, 3, 1, 0], [1, 1]] ⟨by decide, by decide⟩ (by decide) (by decide) rfl
  have closed : feed direct [[22, 3, 1, 0], [1, 1]] { mode := .tls } = [.nothing, .closed] :=
    feed_short (by decide) (by decide) (by decide)
  rw [Awaits, closed] at awaited
  exact absurd awaited (by decide)

end TlsReader

end ExaProxy.Client
