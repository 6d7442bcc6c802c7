import ExaProxy.Client.Framing
import ExaProxy.Http.Lines

namespace ExaProxy.Client

open ExaProxy.Data ExaProxy.Http

/-- A request without a body: its first line and its headers, and an empty line. -/
def Bodyless (text : Str) : Prop :=
  ∃ lines, lines ≠ [] ∧ (∀ line ∈ lines, line ≠ [] ∧ 13 ∉ line ∧ 10 ∉ line) ∧
    text = terminated crlf lines ++ crlf

variable {text rest buffer : Str} {texts : List Str} {lines : List Str} {pos size length : Nat}

theorem terminated_cons (line : Str) (lines : List Str) :
    terminated crlf (line :: lines) ++ crlf = line ++ (13 :: 10 :: (terminated crlf lines ++ crlf)) := by
  simp [terminated, crlf]

/-- Where a terminator stands that begins in front of the end of a line: at that end, if
another line end follows, or behind it. -/
theorem occurs_line {eor line : Str} (mem : eor ∈ eors) (bare : 13 ∉ line) (plain : 10 ∉ line)
    (unfed : rest[0]? ≠ some 10) (occurs : Str.Occurs eor (line ++ 13 :: 10 :: rest) pos) :
    (eor = crlfcrlf ∧ pos = line.length ∧ rest[0]? = some 13) ∨
      ∃ later, pos = line.length + 2 + later ∧ Str.Occurs eor rest later := by
  have behind : ∀ offset, (line ++ 13 :: 10 :: rest)[line.length + offset]? = (13 :: 10 :: rest)[offset]? := by
    intro offset
    rw [List.getElem?_append_right (Nat.le_add_right ..), Nat.add_sub_cancel_left]
  have first : (line ++ 13 :: 10 :: rest)[pos]? = eor[0]? := occurs.getElem? (List.length_pos_of_ne_nil (eor_ne_nil mem))
  have second : (line ++ 13 :: 10 :: rest)[pos + 1]? = some 10 := by
    obtain rfl | rfl := mem_eors.mp mem
    · exact occurs.getElem? (by decide)
    · exact occurs.getElem? (by decide)
  have outside : line.length ≤ pos := by
    by_contra within
    rw [List.getElem?_append_left (by omega)] at first
    obtain rfl | rfl := mem_eors.mp mem
    · exact bare (List.mem_of_getElem? first)
    · exact plain (List.mem_of_getElem? first)
  obtain ⟨offset, rfl⟩ := Nat.exists_eq_add_of_le outside
  match offset with
  | 0 =>
      obtain rfl | rfl := mem_eors.mp mem
      · have third : (line ++ 13 :: 10 :: rest)[line.length + 2]? = some 13 := occurs.getElem? (by decide)
        rw [behind] at third
        exact .inl ⟨rfl, rfl, third⟩
      · rw [behind] at first
        cases first
  | 1 =>
      rw [Nat.add_assoc, behind] at second
      exact absurd second unfed
  | later + 2 =>
      have gone : (line ++ 13 :: 10 :: rest).drop (line.length + 2) = rest := by
        rw [List.drop_length_add_append]
        rfl
      refine .inr ⟨later, by omega, ?_⟩
      rw [← gone, Str.occurs_drop]
      have place : line.length + (later + 2) = line.length + 2 + later := by omega
      rwa [place] at occurs

theorem terminated_ends {eor : Str} (mem : eor ∈ eors) (clean : ∀ line ∈ lines, line ≠ [] ∧ 13 ∉ line ∧ 10 ∉ line)
    (occurs : Str.Occurs eor (terminated crlf lines ++ crlf) pos) :
    eor = crlfcrlf ∧ pos + 4 = (terminated crlf lines ++ crlf).length := by
  induction lines generalizing pos with
  | nil =>
      have none : ∀ pos < 2, ∀ eor ∈ eors, ¬ Str.Occurs eor crlf pos := by decide
      have bound := occurs.bound (eor_ne_nil mem)
      have positive := List.length_pos_of_ne_nil (eor_ne_nil mem)
      exact absurd occurs (none pos (by rw [show (terminated crlf [] ++ crlf).length = 2 from rfl] at bound; omega) eor mem)
  | cons line lines ih =>
      obtain ⟨⟨_, bare, plain⟩, others⟩ := List.forall_mem_cons.mp clean
      have start : (terminated crlf lines ++ crlf)[0]? ≠ some 10 ∧
          ((terminated crlf lines ++ crlf)[0]? = some 13 → lines = []) := by
        cases lines with
        | nil => exact ⟨by decide, fun _ => rfl⟩
        | cons next lines =>
            obtain ⟨filled, bare, plain⟩ := others next List.mem_cons_self
            obtain ⟨byte, next, rfl⟩ := List.exists_cons_of_ne_nil filled
            rw [terminated_cons]
            refine ⟨fun same => plain ?_, fun same => absurd ?_ bare⟩
            · cases same
              exact List.mem_cons_self
            · cases same
              exact List.mem_cons_self
      rw [terminated_cons] at occurs ⊢
      rw [List.length_append, List.length_cons, List.length_cons]
      obtain ⟨rfl, rfl, blank⟩ | ⟨later, rfl, behind⟩ := occurs_line mem bare plain start.1 occurs
      · cases start.2 blank
        exact ⟨rfl, rfl⟩
      · obtain ⟨same, last⟩ := ih others behind
        exact ⟨same, by omega⟩

namespace Bodyless

theorem ends {eor : Str} (bodyless : Bodyless text) (mem : eor ∈ eors) (occurs : Str.Occurs eor text pos) :
    eor = crlfcrlf ∧ pos + 4 = text.length := by
  obtain ⟨lines, _, clean, rfl⟩ := bodyless
  exact terminated_ends mem clean occurs

theorem exists_head (bodyless : Bodyless text) : ∃ head, head ≠ [] ∧ text = head ++ crlfcrlf := by
  obtain ⟨lines, nonempty, clean, rfl⟩ := bodyless
  refine ⟨Str.join crlf lines, ?_, ?_⟩
  · obtain ⟨line, lines, rfl⟩ := List.exists_cons_of_ne_nil nonempty
    have filled := (clean line List.mem_cons_self).1
    cases lines with
    | nil => simpa [Str.join] using filled
    | cons next lines => simp [Str.join, List.intercalate_cons_cons, filled]
  · rw [← join_terminated crlf nonempty, List.append_assoc]
    rfl

theorem stripped (bodyless : Bodyless text) : Stripped text := by
  obtain ⟨lines, nonempty, clean, rfl⟩ := bodyless
  obtain ⟨line, lines, rfl⟩ := List.exists_cons_of_ne_nil nonempty
  obtain ⟨filled, bare, plain⟩ := clean line List.mem_cons_self
  obtain ⟨byte, line, rfl⟩ := List.exists_cons_of_ne_nil filled
  rw [terminated_cons]
  intro head same member
  cases same
  obtain rfl | rfl : byte = 13 ∨ byte = 10 := by simpa [crlf] using member
  · exact bare List.mem_cons_self
  · exact plain List.mem_cons_self

theorem ne_nil (bodyless : Bodyless text) : text ≠ [] := by
  obtain ⟨head, nonempty, rfl⟩ := bodyless.exists_head
  exact List.append_ne_nil_of_left_ne_nil nonempty crlfcrlf

theorem find_end (bodyless : Bodyless text) (rest : Str) :
    Str.find crlfcrlf (text ++ rest) = some (text.length - 4) := by
  obtain ⟨head, _, same⟩ := bodyless.exists_head
  have length : text.length = head.length + 4 := by rw [same, List.length_append, crlfcrlf_length]
  rw [Str.find_eq_some_iff, length, Nat.add_sub_cancel]
  refine ⟨⟨rest, ?_⟩, fun earlier before occurs => ?_⟩
  · rw [same, List.append_assoc, List.drop_left]
  · have within : Str.Occurs crlfcrlf text earlier := by
      have taken : text = (text ++ rest).take text.length := by rw [List.take_left]
      rw [taken, Str.occurs_take]
      exact ⟨occurs, .inr (by rw [crlfcrlf_length]; omega)⟩
    have last := (bodyless.ends (mem_eors.mpr (.inl rfl)) within).2
    omega

theorem find_part {eor : Str} (bodyless : Bodyless text) (mem : eor ∈ eors) (short : length < text.length) :
    Str.find eor (text.take length) = none := by
  rw [Str.find_eq_none_iff]
  intro pos occurs
  obtain ⟨occurs, empty | within⟩ := (Str.occurs_take length).mp occurs
  · exact absurd empty (eor_ne_nil mem)
  · obtain ⟨rfl, last⟩ := bodyless.ends mem occurs
    rw [crlfcrlf_length] at within
    omega

theorem lstrip_append (bodyless : Bodyless text) (rest : Str) : Str.lstrip crlf (text ++ rest) = text ++ rest := by
  have kept : Str.lstrip crlf text = text := by
    have whole := bodyless.stripped.lstrip_take text.length
    rwa [List.take_length] at whole
  rw [Str.lstrip_append, kept, if_neg bodyless.ne_nil]

theorem readHttp_whole (bodyless : Bodyless text) (even : countQuotes text % 2 = 0) (size : Nat) (rest : Str) :
    (waiting (text ++ rest) 0).readHttp size = (.request text, answered rest) := by
  obtain ⟨head, filled, same⟩ := bodyless.exists_head
  have length : text.length = head.length + 4 := by rw [same, List.length_append, crlfcrlf_length]
  have front : (text ++ rest).take (text.length - 4) = head := by
    rw [length, Nat.add_sub_cancel, same, List.append_assoc, List.take_left]
  have behind : (text ++ rest).drop (text.length - 4 + 4) = rest := by
    rw [length, Nat.add_sub_cancel, ← length, List.drop_left]
  have matching : countQuotes head % 2 = 0 := by
    rw [same, countQuotes_append _ (by decide)] at even
    exact even
  have search : searchEnd crlfcrlf (text ++ rest) 0 = .found text rest 0 := by
    simp only [searchEnd, List.drop_zero, bodyless.find_end, Nat.zero_add, front, filled, matching, if_false, if_true,
      crlfcrlf_length, behind, ← same]
  have cut : checkRequest (Str.lstrip crlf (text ++ rest)) size 0 = some (text, rest, 0) := by
    rw [bodyless.lstrip_append, checkRequest_found size search]
  exact readHttp_request bodyless.ne_nil cut

theorem checkRequest_part (bodyless : Bodyless text) (size : Nat) (short : length < text.length) :
    checkRequest (text.take length) size 0 =
      if size ≠ 0 ∧ (text.take length).length > size then none else some ([], text.take length, 0) := by
  have search : ∀ eor ∈ eors, searchEnd eor (text.take length) 0 = .missed 0 := by
    intro eor mem
    simp only [searchEnd, List.drop_zero, bodyless.find_part mem short]
  simp only [checkRequest, search crlfcrlf (mem_eors.mpr (.inl rfl)), search lflf (mem_eors.mpr (.inr rfl))]

end Bodyless

/-- What is there of the next one of some requests, which is not whole. -/
def Part (buffer : Str) (texts : List Str) : Prop :=
  (texts = [] ∧ buffer = []) ∨ ∃ text later length, texts = text :: later ∧ length < text.length ∧ buffer = text.take length

theorem Part.readHttp (part : Part buffer texts) (bodyless : ∀ text ∈ texts, Bodyless text) (fits : Fits buffer size) :
    (waiting buffer 0).readHttp size = (.nothing, waiting buffer 0) := by
  obtain ⟨rfl, rfl⟩ | ⟨text, later, length, rfl, short, rfl⟩ := part
  · exact readHttp_nil size 0
  · have whole := bodyless text List.mem_cons_self
    refine readHttp_nothing ?_
    rw [whole.stripped.lstrip_take, whole.checkRequest_part size short, if_neg]
    unfold Fits at fits
    omega

theorem Part.exists_next (part : Part buffer texts) (long : ¬ Fits buffer size) : ∃ text later, texts = text :: later := by
  obtain ⟨rfl, rfl⟩ | ⟨text, later, length, same, _⟩ := part
  · exact absurd (.inr (Nat.zero_le size)) long
  · exact ⟨text, later, same⟩

theorem Part.readHttp_long (part : Part buffer texts) (bodyless : ∀ text ∈ texts, Bodyless text)
    (long : ¬ Fits buffer size) : (waiting buffer 0).readHttp size = (.closed, waiting buffer 0) := by
  obtain ⟨rfl, rfl⟩ | ⟨text, later, length, rfl, short, rfl⟩ := part
  · exact absurd (.inr (Nat.zero_le size)) long
  · have whole := bodyless text List.mem_cons_self
    have cut : checkRequest (text.take length) size 0 = none := by
      rw [whole.checkRequest_part size short, if_pos]
      unfold Fits at long
      omega
    simp only [Reader.readHttp, waiting, whole.stripped.lstrip_take, cut]

section Quotes

variable {eor request : Str} {seek next : Nat} {reader : Reader}

theorem searchEnd_even (mem : eor ∈ eors) (found : searchEnd eor buffer seek = .found request rest next) :
    countQuotes request % 2 = 0 := by
  unfold searchEnd at found
  split at found
  · cases found
  · dsimp only at found
    split at found
    · cases found
    · split at found
      · next even =>
          cases found
          rwa [countQuotes_append _ (eor_not_quote mem)]
      · cases found

theorem checkRequest_even (cut : checkRequest buffer size seek = some (request, rest, next)) :
    countQuotes request % 2 = 0 := by
  unfold checkRequest at cut
  split at cut
  · next found =>
      cases cut
      exact searchEnd_even (mem_eors.mpr (.inl rfl)) found
  · split at cut
    · next found =>
        cases cut
        exact searchEnd_even (mem_eors.mpr (.inr rfl)) found
    · split at cut
      · cases cut
      · cases cut
        rfl

/-- Only requests with matching quotes are ever yielded. -/
theorem Reader.turn_even (asked : (reader.turn size).1 = .request request) : countQuotes request % 2 = 0 := by
  unfold turn at asked
  split at asked
  · unfold Reader.readHttp at asked
    dsimp only at asked
    split at asked
    · cases asked
    · next cut =>
        split at asked
        · cases asked
          exact checkRequest_even cut
        · cases asked
  · split at asked
    · cases asked
    · cases asked
    · split at asked <;> cases asked

theorem Reader.resume_even {mode : Mode} {nbToSend : Nat} {recv : Recv}
    (asked : (reader.resume size mode nbToSend recv).1 = .request request) : countQuotes request % 2 = 0 := by
  unfold resume at asked
  dsimp only at asked
  split at asked
  · split at asked
    · cases asked
    · exact turn_even asked
    · cases asked
    · cases asked
  · split at asked
    · exact turn_even asked
    · exact turn_even asked

end Quotes

/-- How many of the requests are whole in the first `length` bytes of their stream, and
how many bytes there are of the next one. -/
def progress : List Str → Nat → Nat × Nat
  | [], length => (0, length)
  | text :: texts, length =>
      if text.length ≤ length then
        ((progress texts (length - text.length)).1 + 1, (progress texts (length - text.length)).2)
      else (0, length)

theorem progress_whole (text : Str) (texts : List Str) (length : Nat) :
    progress (text :: texts) (text.length + length) = ((progress texts length).1 + 1, (progress texts length).2) := by
  rw [progress, if_pos (Nat.le_add_right ..), Nat.add_sub_cancel_left]

theorem progress_append (texts others : List Str) (length : Nat) :
    progress (texts ++ others) (texts.flatten.length + length) =
      (texts.length + (progress others length).1, (progress others length).2) := by
  induction texts with
  | nil => simp
  | cons text texts ih =>
      rw [List.cons_append, List.flatten_cons, List.length_append, Nat.add_assoc, progress_whole, ih, List.length_cons]
      ext
      · exact Nat.add_right_comm ..
      · rfl

theorem Part.progress (part : Part buffer texts) : progress texts buffer.length = (0, buffer.length) := by
  obtain ⟨rfl, rfl⟩ | ⟨text, later, length, rfl, short, rfl⟩ := part
  · rfl
  · rw [Client.progress, if_neg]
    rw [List.length_take]
    omega

theorem part_or_whole (comes : buffer <+: texts.flatten) :
    Part buffer texts ∨ ∃ text later rest, texts = text :: later ∧ buffer = text ++ rest ∧ rest <+: later.flatten := by
  cases texts with
  | nil => exact .inl (.inl ⟨rfl, List.prefix_nil.mp comes⟩)
  | cons text later =>
      rw [List.flatten_cons] at comes
      by_cases whole : text.length ≤ buffer.length
      · obtain ⟨rest, rfl⟩ := List.prefix_of_prefix_length_le (List.prefix_append text later.flatten) comes whole
        exact .inr ⟨text, later, rest, rfl, rfl, (List.prefix_append_right_inj text).mp comes⟩
      · refine .inl (.inr ⟨text, later, buffer.length, rfl, by omega, ?_⟩)
        exact List.prefix_iff_eq_take.mp (List.prefix_of_prefix_length_le comes (List.prefix_append _ _) (by omega))

end ExaProxy.Client
