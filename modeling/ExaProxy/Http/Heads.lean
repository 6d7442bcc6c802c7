import ExaProxy.Http.Lines

namespace ExaProxy.Http

open ExaProxy.Data

variable {s before after line : Str} {byte : UInt8}

theorem splitOnce_parts {sep : Str} (found : Str.splitOnce sep s = some (before, after)) :
    (∀ byte ∈ before, byte ∈ s) ∧ ∀ byte ∈ after, byte ∈ s := by
  obtain ⟨pos, _, same⟩ := Option.map_eq_some_iff.mp found
  obtain ⟨rfl, rfl⟩ := Prod.mk.inj same
  exact ⟨fun _ => List.mem_of_mem_take, fun _ => List.mem_of_mem_drop⟩

theorem words_mem {word : Str} (member : word ∈ Str.words s) : ∀ byte ∈ word, byte ∈ s := by
  obtain ⟨among, _⟩ := List.mem_filter.mp member
  exact fun byte inside => (Str.splitOnP_part among byte inside).1

theorem splitProtocol_mem (uri : Str) : ∀ byte ∈ (splitProtocol uri).2, byte ∈ uri := by
  intro byte member
  unfold splitProtocol at member
  split at member
  · next protocol rest found =>
      split at member
      · exact member
      · exact (splitOnce_parts found).2 byte member
  · exact member

theorem splitPort_mem {text host : Str} {port : Nat} (ok : splitPort text = .ok (host, port)) :
    ∀ byte ∈ host, byte ∈ text := by
  unfold splitPort at ok
  split at ok
  · next name digits found =>
      obtain ⟨number, _, same⟩ := map_ok ok
      cases same
      exact (splitOnce_parts found).1
  · cases ok
    exact fun _ => id

theorem splitBracketed_mem {text path : Str} {port : Nat} (ok : splitBracketed text = .ok (port, path)) :
    ∀ byte ∈ path, byte = 47 ∨ byte ∈ text := by
  unfold splitBracketed at ok
  split at ok
  · split at ok
    · next first second parts =>
        have inside : ∀ byte ∈ second, byte ∈ text := by
          have member : second ∈ text.splitOn 47 := by simp [parts]
          rw [List.splitOn_eq_splitOnP] at member
          exact fun byte belongs => (Str.splitOnP_part member byte belongs).1
        have slashed : ∀ byte ∈ ascii "/" ++ second, byte = 47 ∨ byte ∈ text := by
          intro byte member
          rcases List.mem_append.mp member with slash | member
          · exact .inl (List.mem_singleton.mp slash)
          · exact .inr (inside byte member)
        split at ok
        · cases ok
          exact slashed
        · obtain ⟨number, _, same⟩ := map_ok ok
          cases same
          exact slashed
        · cases ok
    · cases ok
  · obtain ⟨number, _, same⟩ := map_ok ok
    cases same
    simp

theorem splitUri_mem {uri host path : Str} {port : Nat} (ok : splitUri uri = .ok (host, port, path)) :
    (∀ byte ∈ host, byte ∈ uri) ∧ ∀ byte ∈ path, byte = 47 ∨ byte ∈ uri := by
  unfold splitUri at ok
  split at ok
  · next name remaining found =>
      obtain ⟨⟨number, rest⟩, splits, same⟩ := map_ok ok
      cases same
      split at found
      · obtain ⟨named, follows⟩ := splitOnce_parts found
        exact ⟨fun byte member => List.mem_of_mem_tail (named byte member), fun byte member =>
          (splitBracketed_mem splits byte member).imp_right fun inside =>
            List.mem_of_mem_tail (follows byte inside)⟩
      · cases found
  · split at ok
    · next name rest found =>
        obtain ⟨⟨name, number⟩, splits, same⟩ := map_ok ok
        cases same
        obtain ⟨named, follows⟩ := splitOnce_parts found
        refine ⟨fun byte member => named byte (splitPort_mem splits byte member), fun byte member => ?_⟩
        rcases List.mem_append.mp member with slash | member
        · exact .inl (List.mem_singleton.mp slash)
        · exact .inr (follows byte member)
    · obtain ⟨⟨name, number⟩, splits, same⟩ := map_ok ok
      cases same
      exact ⟨splitPort_mem splits, fun byte member => .inl (List.mem_singleton.mp member)⟩

/-- A text of one line, or of two of which the second names the protocol. -/
def FewLines (text : Str) : Prop :=
  10 ∉ text ∨ ∃ first second, text = first ++ 10 :: second ∧ 10 ∉ first ∧ 10 ∉ second ∧ isHttp second = true

theorem isHttp_length (http : isHttp line = true) : 5 ≤ line.length := by
  have start := congrArg List.length (of_decide_eq_true http)
  have five : (ascii "HTTP/").length = 5 := rfl
  simp only [five, List.length_take, Str.upper, List.length_map] at start
  omega

theorem upperByte_newline (byte : UInt8) (newline : Str.upperByte byte = 10) : byte = 10 := by
  unfold Str.upperByte at newline
  split at newline
  · next small => grind
  · exact newline

theorem RequestLine.init_lines {data : Str} {line : RequestLine} (ok : RequestLine.init data = .ok line) :
    10 ∉ line.method ∧ 10 ∉ line.uri ∧ FewLines line.raw := by
  obtain ⟨⟨first, remaining⟩, splits, ok⟩ := bind_ok ok
  have clean : 10 ∉ first := (splitTwo_ok splits).2
  have worded : ∀ word ∈ Str.words first, 10 ∉ word ∧ 10 ∉ Str.upper word := by
    intro word member
    have plain : 10 ∉ word := fun inside => clean (words_mem member 10 inside)
    refine ⟨plain, fun inside => ?_⟩
    obtain ⟨byte, among, newline⟩ := List.mem_map.mp inside
    exact plain (upperByte_newline byte newline ▸ among)
  dsimp only at ok
  split at ok
  · next method uri version parts =>
      simp only [parts, List.forall_mem_cons] at worded
      cases ok
      exact ⟨worded.1.2, worded.2.1.1, .inl fun member => clean ((List.rdropWhile_prefix _ _).subset member)⟩
  · next method uri parts =>
      simp only [parts, List.forall_mem_cons] at worded
      obtain ⟨⟨http, rest⟩, cuts, ok⟩ := bind_ok ok
      have plain : 10 ∉ http := (splitTwo_ok cuts).2
      dsimp only at ok
      split at ok
      · next named =>
          cases ok
          refine ⟨worded.1.2, worded.2.1.1, .inr ⟨first, http, ?_, clean, plain, named⟩⟩
          rw [List.append_assoc]
          rfl
      · cases ok
        exact ⟨worded.1.2, worded.2.1.1, .inl clean⟩
  · cases ok

theorem Request.parse_lines {data : Str} {request : Request} (ok : Request.parse data = .ok request) :
    10 ∉ request.method ∧ FewLines request.raw ∧ 10 ∉ request.host ∧ 10 ∉ request.path := by
  obtain ⟨line, inits, parses⟩ := bind_ok ok
  obtain ⟨method, uri, raw⟩ := RequestLine.init_lines inits
  obtain ⟨⟨host, port, path⟩, splits, rfl⟩ := map_ok parses
  have located : ∀ byte ∈ (splitProtocol line.uri).2, byte ∈ line.uri := splitProtocol_mem line.uri
  obtain ⟨named, pathed⟩ := splitUri_mem splits
  have hostless : 10 ∉ host := fun member => uri (located _ (named _ member))
  have pathless : 10 ∉ path := fun member =>
    (pathed _ member).elim (by decide) fun inside => uri (located _ inside)
  exact ⟨method, raw, hostless, pathless⟩

theorem Request.toStr_lines {data : Str} {request : Request} (ok : Request.parse data = .ok request)
    (version : 10 ∉ request.version) : FewLines request.toStr := by
  obtain ⟨method, raw, host, path⟩ := parse_lines ok
  have port : 10 ∉ Str.decimal request.port := fun member =>
    absurd ((Str.isdigit_iff.mp (Str.decimal_isdigit request.port)).2 10 member) (by decide)
  unfold Request.toStr
  split
  · exact raw
  · left
    split
    · split <;> simp [ascii, method, host, port, version]
    · simp [ascii, method, path, version]

theorem splitOn_injective {text other : Str} (same : text.splitOn 10 = other.splitOn 10) : text = other := by
  calc text = [10].intercalate (text.splitOn 10) := (List.intercalate_splitOn 10).symm
    _ = [10].intercalate (other.splitOn 10) := by rw [same]
    _ = other := List.intercalate_splitOn 10

theorem flatMap_split {order : List Str} {get : Str → List Str} {lines rest : List Str}
    (same : order.flatMap get = lines ++ line :: rest) : ∃ earlier key later opened others,
    order = earlier ++ key :: later ∧ get key = opened ++ line :: others ∧
      lines = earlier.flatMap get ++ opened := by
  induction order generalizing lines with
  | nil => simp at same
  | cons key later ih =>
      rw [List.flatMap_cons, List.append_eq_append_iff] at same
      rcases same with ⟨more, rfl, rest⟩ | ⟨more, here, rest⟩
      · obtain ⟨earlier, name, later, opened, others, rfl, lines, rfl⟩ := ih rest
        exact ⟨key :: earlier, name, later, opened, others, rfl, lines, by simp⟩
      · cases more with
        | nil =>
            have start : later.flatMap get = [] ++ line :: _ := rest.symm
            obtain ⟨earlier, name, later, opened, others, rfl, lines, empty⟩ := ih start
            rw [List.append_nil] at here
            exact ⟨key :: earlier, name, later, opened, others, rfl, lines, by
              rw [List.flatMap_cons, List.append_assoc, ← empty, List.append_nil, here]⟩
        | cons first others =>
            obtain ⟨rfl, _⟩ := List.cons.inj rest
            exact ⟨[], key, later, lines, others, rfl, here, rfl⟩

/-- The first line of a request is followed by no blank line of its own. -/
theorem FewLines.cut {text ending piece : Str} {front rest : List Str} (few : FewLines text)
    (plain : 10 ∉ ending) (short : piece.length ≤ 1) (started : front ≠ [])
    (same : (text ++ ending).splitOn 10 = front ++ piece :: rest) : False := by
  rcases few with clean | ⟨first, second, rfl, clean, plainer, named⟩
  · rw [List.splitOn_eq_singleton (by simp [clean, plain])] at same
    cases front with
    | nil => exact started rfl
    | cons head tail => simp at same
  · have last : (second ++ ending).splitOn 10 = [second ++ ending] :=
      List.splitOn_eq_singleton (by simp [plainer, plain])
    rw [List.append_assoc, List.cons_append, List.splitOn_append_cons_self_of_not_mem clean, last] at same
    cases front with
    | nil => exact started rfl
    | cons head tail =>
        cases tail with
        | nil =>
            simp only [List.singleton_append, List.cons.injEq] at same
            have long := isHttp_length named
            rw [← same.2.1, List.length_append] at short
            omega
        | cons next tail => simp at same

namespace Message

variable {message : Message}

/-- What the text of a request is printed from. -/
structure Printable (message : Message) : Prop where
  known : message.Known
  request : FewLines message.request.toStr
  separator : message.separator = separatorOf message.raw
  filled : ∀ name ∈ message.headers.order, message.headers.get name ≠ []
  hidden : ∀ name, Hidden (message.headers.get name)
  clean : ∀ name ∈ message.headers.order, ∀ line ∈ message.headers.get name,
    10 ∉ line ∧ (13 ∉ message.raw → 13 ∉ line)

/-- What comes before a blank line ends in a header whose quotes are open. -/
def InQuotes (message : Message) (before : Str) : Prop :=
  ∃ earlier key later opened others, message.headers.order = earlier ++ key :: later ∧
    message.headers.get key = opened ++ [] :: others ∧ quotesOf opened % 2 = 1 ∧
    before ++ message.separator = message.request.toStr ++ message.separator ++
      terminated message.separator (earlier.flatMap message.headers.get ++ opened)

theorem Printable.body_clean (printable : message.Printable) : ∀ line ∈ message.headers.body,
    10 ∉ line ∧ (13 ∉ message.raw → 13 ∉ line) := by
  intro line member
  unfold Headers.body at member
  split at member
  · rw [List.mem_singleton.mp member]
    simp
  · obtain ⟨name, listed, member⟩ := List.mem_flatMap.mp member
    exact printable.clean name listed line member

/-- A blank piece of a request's text that is neither its first nor one of its last
is a line of its headers. -/
theorem Printable.piece (printable : message.Printable) {piece : Str} {front rest : List Str}
    (blank : piece = [] ∨ piece = [13]) (started : front ≠ []) (more : 1 < rest.length)
    (same : message.toStr.splitOn 10 = front ++ piece :: rest) : ∃ lines others,
    message.headers.body = lines ++ [] :: others ∧ piece = ending message.raw ∧
      front = (message.request.toStr ++ ending message.raw).splitOn 10 ++
        lines.map (· ++ ending message.raw) ∧
      rest = others.map (· ++ ending message.raw) ++ [ending message.raw, []] := by
  have clean := printable.body_clean
  have short : piece.length ≤ 1 := by rcases blank with rfl | rfl <;> simp
  rw [toStr_splitOn printable.known printable.filled printable.separator fun line member =>
    (clean line member).1, List.append_eq_append_iff] at same
  -- the piece is after the lines of the request
  have after : ∃ lines, front = (message.request.toStr ++ ending message.raw).splitOn 10 ++ lines ∧
      message.headers.body.map (· ++ ending message.raw) ++ [ending message.raw, []] =
        lines ++ piece :: rest := by
    rcases same with ⟨lines, front, body⟩ | ⟨between, request, body⟩
    · exact ⟨lines, front, body⟩
    · cases between with
      | nil => exact ⟨[], by simpa using request.symm, by simpa using body.symm⟩
      | cons first between =>
          obtain ⟨rfl, _⟩ := List.cons.inj body
          exact (printable.request.cut (ending_plain message.raw) short started request).elim
  obtain ⟨lines, front, body⟩ := after
  -- and before the two last lines
  obtain ⟨others, mapped, rest⟩ : ∃ others,
      message.headers.body.map (· ++ ending message.raw) = lines ++ piece :: others ∧
        rest = others ++ [ending message.raw, []] := by
    rcases List.append_eq_append_iff.mp body with ⟨between, _, last⟩ | ⟨between, body, last⟩
    · exfalso
      have size := congrArg List.length last
      simp only [List.length_append, List.length_cons, List.length_nil] at size
      omega
    · cases between with
      | nil =>
          exfalso
          have size := congrArg List.length last
          simp only [List.length_append, List.length_cons, List.length_nil] at size
          omega
      | cons first between =>
          obtain ⟨rfl, rest⟩ := List.cons.inj last
          exact ⟨between, body, rest⟩
  obtain ⟨before, remaining, body, rfl, following⟩ := List.map_eq_append_iff.mp mapped
  obtain ⟨line, behind, rfl, whole, rfl⟩ := List.map_eq_cons_iff.mp following
  have empty : line = [] := by
    have member : line ∈ message.headers.body := by simp [body]
    by_cases carriage : 13 ∈ message.raw
    · have ended : ending message.raw = [13] := if_pos carriage
      rw [ended] at whole
      rw [← whole, List.length_append, List.length_singleton] at short
      exact List.eq_nil_of_length_eq_zero (by omega)
    · have ended : ending message.raw = [] := if_neg carriage
      rw [ended, List.append_nil] at whole
      rcases blank with rfl | rfl
      · exact whole
      · exact absurd (whole ▸ List.mem_singleton_self 13) ((clean line member).2 carriage)
  subst empty
  exact ⟨before, behind, body, whole.symm, front, rest⟩

/-- Nothing but line ends follows a blank line, unless it stands in open quotes. -/
theorem Printable.blank_line (printable : message.Printable) {before blank after : Str}
    (text : message.toStr = before ++ blank ++ after)
    (twice : blank = ascii "\r\n\r\n" ∨ blank = ascii "\n\n")
    (more : ∃ byte ∈ after, byte ≠ 13 ∧ byte ≠ 10) : message.InQuotes before := by
  obtain ⟨byte, member, carriage, newline⟩ := more
  obtain ⟨piece, short, cut⟩ : ∃ piece, (piece = [] ∨ piece = [13]) ∧
      message.toStr = (before ++ piece) ++ 10 :: (piece ++ 10 :: after) := by
    rcases twice with rfl | rfl
    · exact ⟨[13], .inr rfl, by rw [text]; simp [ascii]⟩
    · exact ⟨[], .inl rfl, by rw [text]; simp [ascii]⟩
  have clean : 10 ∉ piece := by rcases short with rfl | rfl <;> simp
  have pieces : message.toStr.splitOn 10 = (before ++ piece).splitOn 10 ++ piece :: after.splitOn 10 := by
    rw [cut, List.splitOn_append_cons_self, List.splitOn_append_cons_self_of_not_mem clean]
  have several : 1 < (after.splitOn 10).length := by
    by_contra few
    have last : after.splitOn 10 = [after] := by
      by_cases inside : 10 ∈ after
      · obtain ⟨first, second, rfl⟩ := List.append_of_mem inside
        rw [List.splitOn_append_cons_self, List.length_append] at few
        have first := List.length_pos_of_ne_nil (List.splitOn_ne_nil 10 first)
        have second := List.length_pos_of_ne_nil (List.splitOn_ne_nil 10 second)
        omega
      · exact List.splitOn_eq_singleton inside
    have ends := congrArg List.getLast? pieces
    rw [toStr_splitOn printable.known printable.filled printable.separator fun line member =>
      (printable.body_clean line member).1, last] at ends
    have empty : after = [] := by simpa using ends.symm
    rw [empty] at member
    cases member
  obtain ⟨lines, others, body, rfl, front, rest⟩ :=
    printable.piece short (List.splitOn_ne_nil 10 _) several pieces
  have separator : message.separator = ending message.raw ++ [10] := by
    rw [printable.separator, separatorOf_eq]
  by_cases headers : message.headers.order = []
  · exfalso
    rw [Headers.body, if_pos headers] at body
    obtain ⟨_, rfl⟩ : lines = [] ∧ others = [] := by
      cases lines with
      | nil => simpa using body
      | cons first lines => simp at body
    have same : after = ending message.raw ++ [10] := by
      apply splitOn_injective
      rw [rest, List.splitOn_append_cons_self_of_not_mem (ending_plain message.raw), List.splitOn_nil]
      rfl
    rw [same] at member
    unfold ending at member
    split at member <;> simp_all
  · rw [Headers.body, if_neg headers] at body
    obtain ⟨earlier, key, later, opened, behind, order, got, rfl⟩ := flatMap_split body
    refine ⟨earlier, key, later, opened, behind, order, got, ?_, ?_⟩
    · have odd := printable.hidden key opened.length (by simp [got])
      rwa [got, List.take_left] at odd
    · have plain : ∀ line ∈ earlier.flatMap message.headers.get ++ opened, 10 ∉ line := by
        intro line member
        apply (printable.body_clean line _).1
        rw [Headers.body, if_neg headers, body]
        exact List.mem_append_left _ member
      have lines := splitOn_terminated (ending_plain message.raw) plain []
      apply splitOn_injective
      rw [separator]
      calc (before ++ (ending message.raw ++ [10])).splitOn 10
          = ((before ++ ending message.raw) ++ 10 :: []).splitOn 10 := by simp
        _ = (message.request.toStr ++ ending message.raw).splitOn 10 ++
              ((earlier.flatMap message.headers.get ++ opened).map (· ++ ending message.raw) ++
                [].splitOn 10) := by
            rw [List.splitOn_append_cons_self, front, List.append_assoc]
        _ = ((message.request.toStr ++ ending message.raw) ++ 10 :: (terminated (ending message.raw ++ [10])
              (earlier.flatMap message.headers.get ++ opened) ++ [])).splitOn 10 := by
            rw [List.splitOn_append_cons_self, lines]
        _ = _ := by simp

end Message

end ExaProxy.Http
