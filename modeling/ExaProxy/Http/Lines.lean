import ExaProxy.Http.Validated

namespace ExaProxy.Http

open ExaProxy.Data

variable {s sub before after line : Str} {byte : UInt8}

theorem splitTwo_ok (ok : splitTwo [byte] s = .ok (before, after)) :
    s = before ++ byte :: after ∧ byte ∉ before := by
  unfold splitTwo at ok
  cases found : Str.splitOnce [byte] s with
  | none =>
      rw [found] at ok
      cases ok
  | some parts =>
      rw [found] at ok
      cases ok
      exact Str.splitOnce_byte found

theorem RequestLine.init_remaining {data : Str} {request : RequestLine}
    (ok : RequestLine.init data = .ok request) : ∃ head, data = head ++ 10 :: request.remaining := by
  obtain ⟨⟨first, remaining⟩, splits, ok⟩ := bind_ok ok
  have whole : data = first ++ 10 :: remaining := (splitTwo_ok splits).1
  dsimp only at ok
  split at ok
  · cases ok
    exact ⟨first, whole⟩
  · obtain ⟨⟨http, rest⟩, cuts, ok⟩ := bind_ok ok
    have more : remaining = http ++ 10 :: rest := (splitTwo_ok cuts).1
    dsimp only at ok
    split at ok
    · cases ok
      exact ⟨first ++ 10 :: http, by simp [whole, more]⟩
    · cases ok
      exact ⟨first, whole⟩
  · cases ok

theorem Request.parse_line {data : Str} {request : Request} (ok : Request.parse data = .ok request) :
    ∃ line, RequestLine.init data = .ok line ∧ line.parse = .ok request ∧
      request.toRequestLine = line := by
  obtain ⟨line, inits, parses⟩ := bind_ok ok
  obtain ⟨⟨host, port, path⟩, _, rfl⟩ := map_ok parses
  exact ⟨line, inits, parses, rfl⟩

theorem Request.parse_remaining {data : Str} {request : Request} (ok : Request.parse data = .ok request) :
    ∃ head, data = head ++ 10 :: request.remaining := by
  obtain ⟨line, inits, _, rfl⟩ := parse_line ok
  exact RequestLine.init_remaining inits

/-- Each of the lines is followed by the separator. -/
def terminated (separator : Str) (lines : List Str) : Str := lines.flatMap (· ++ separator)

theorem terminated_append (separator : Str) (lines more : List Str) :
    terminated separator (lines ++ more) = terminated separator lines ++ terminated separator more :=
  List.flatMap_append

theorem join_terminated (separator : Str) {lines : List Str} (nonempty : lines ≠ []) :
    Str.join separator lines ++ separator = terminated separator lines := by
  induction lines with
  | nil => exact absurd rfl nonempty
  | cons line rest ih =>
      cases rest with
      | nil => simp [Str.join, terminated]
      | cons next rest =>
          have later := ih (by simp)
          rw [Str.join, List.intercalate_cons_cons, List.append_assoc]
          simp only [Str.join] at later
          rw [later]
          simp [terminated]

theorem splitOn_terminated {ending : Str} (plain : 10 ∉ ending) {lines : List Str}
    (clean : ∀ line ∈ lines, 10 ∉ line) (rest : Str) :
    (terminated (ending ++ [10]) lines ++ rest).splitOn 10 = lines.map (· ++ ending) ++ rest.splitOn 10 := by
  induction lines with
  | nil => rfl
  | cons line lines ih =>
      obtain ⟨first, others⟩ := List.forall_mem_cons.mp clean
      have cut : terminated (ending ++ [10]) (line :: lines) ++ rest =
          (line ++ ending) ++ 10 :: (terminated (ending ++ [10]) lines ++ rest) := by
        simp [terminated]
      have single : (line ++ ending).splitOn 10 = [line ++ ending] :=
        List.splitOn_eq_singleton (by simp [first, plain])
      rw [cut, List.splitOn_append_cons_self, single, ih others]
      rfl

namespace Headers

variable {headers : Headers}

/-- All lines of the headers, in the order in which they are printed. -/
def printed (headers : Headers) : List Str := headers.order.flatMap headers.get

/-- What is printed of the headers, where no header at all is an empty line. -/
def body (headers : Headers) : List Str := if headers.order = [] then [[]] else headers.printed

theorem toStr_body (separator : Str) (filled : ∀ name ∈ headers.order, headers.get name ≠ []) :
    headers.toStr separator ++ separator = terminated separator headers.body := by
  unfold toStr body
  split
  · next empty => simp [empty, Str.join, terminated]
  · next nonempty =>
      rw [join_terminated separator (by simpa using nonempty), printed]
      generalize headers.order = order at filled
      induction order with
      | nil => rfl
      | cons name rest ih =>
          obtain ⟨first, others⟩ := List.forall_mem_cons.mp filled
          rw [List.flatMap_cons, terminated_append, ← ih others, ← join_terminated separator first]
          simp [terminated]

end Headers

namespace Message

variable {message : Message}

/-- The versions that the proxy prints requests of. -/
def Known (message : Message) : Prop :=
  message.request.version = ascii "1.0" ∨ message.request.version = ascii "1.1"

/-- What stands before a line end where the lines of a text are separated. -/
def ending (raw : Str) : Str := if 13 ∈ raw then [13] else []

theorem separatorOf_eq (raw : Str) : separatorOf raw = ending raw ++ [10] := by
  unfold separatorOf ending
  split <;> rfl

theorem ending_plain (raw : Str) : 10 ∉ ending raw := by
  unfold ending
  split <;> simp

theorem toStr_lines (known : message.Known)
    (filled : ∀ name ∈ message.headers.order, message.headers.get name ≠ []) :
    message.toStr = message.request.toStr ++ message.separator ++
      terminated message.separator (message.headers.body ++ [[]]) := by
  have printed : message.toStr = message.request.toStr ++ message.separator ++
      message.headers.toStr message.separator ++ message.separator ++ message.separator := if_pos known
  rw [printed, terminated_append, ← Headers.toStr_body _ filled]
  simp [terminated]

theorem toStr_splitOn (known : message.Known)
    (filled : ∀ name ∈ message.headers.order, message.headers.get name ≠ [])
    (separator : message.separator = separatorOf message.raw)
    (clean : ∀ line ∈ message.headers.body, 10 ∉ line) :
    message.toStr.splitOn 10 = (message.request.toStr ++ ending message.raw).splitOn 10 ++
      (message.headers.body.map (· ++ ending message.raw) ++ [ending message.raw, []]) := by
  have all : ∀ line ∈ message.headers.body ++ [[]], 10 ∉ line := by
    intro line member
    rcases List.mem_append.mp member with member | last
    · exact clean line member
    · rw [List.mem_singleton.mp last]
      exact List.not_mem_nil
  have lines := splitOn_terminated (ending_plain message.raw) all []
  rw [List.append_nil] at lines
  rw [toStr_lines known filled, separator, separatorOf_eq]
  calc (message.request.toStr ++ (ending message.raw ++ [10]) ++
        terminated (ending message.raw ++ [10]) (message.headers.body ++ [[]])).splitOn 10
      = ((message.request.toStr ++ ending message.raw) ++
          10 :: terminated (ending message.raw ++ [10]) (message.headers.body ++ [[]])).splitOn 10 := by
        simp
    _ = _ := by
        rw [List.splitOn_append_cons_self, lines]
        simp [List.splitOn_nil]

end Message

end ExaProxy.Http
