import ExaProxy.Client.Terminators

namespace ExaProxy.Client

open ExaProxy.Data ExaProxy.Http

/-- The first `length` bytes end in a terminator with matching quotes before it. -/
def closesAt (stream : Str) (length : Nat) : Bool :=
  eors.any fun eor => eor.length < length ∧ Str.Occurs eor stream (length - eor.length) ∧
    countQuotes (stream.take (length - eor.length)) % 2 = 0

/-- The shortest prefix that is a request, with what follows it. -/
def nextRequest (stream : Str) : Option (Str × Str) :=
  ((List.range (stream.length + 1)).find? (closesAt stream)).map fun length =>
    (stream.take length, stream.drop length)

variable {stream eor other request rest : Str} {pos earlier seek length size : Nat}

theorem closesAt_iff : closesAt stream length = true ↔
    ∃ eor pos, Closes stream eor pos ∧ pos + eor.length = length := by
  simp only [closesAt, List.any_eq_true, decide_eq_true_eq]
  constructor
  · intro given
    obtain ⟨eor, mem, shorter, occurs, even⟩ := given
    exact ⟨eor, length - eor.length, ⟨mem, occurs, by omega, not_quoted_iff.mpr even⟩, by omega⟩
  · intro given
    obtain ⟨eor, pos, closes, rfl⟩ := given
    refine ⟨eor, closes.mem, ?_, ?_, ?_⟩
    · have positive := closes.positive
      omega
    · rw [Nat.add_sub_cancel]
      exact closes.occurs
    · rw [Nat.add_sub_cancel]
      exact not_quoted_iff.mp closes.bare

theorem FirstEnd.unique (first : FirstEnd stream eor pos) (first' : FirstEnd stream other earlier) :
    eor = other ∧ pos = earlier := by
  have least := first.least other earlier first'.toCloses
  have least' := first'.least eor pos first.toCloses
  obtain rfl | rfl := mem_eors.mp first.mem <;> obtain rfl | rfl := mem_eors.mp first'.mem
  · exact ⟨rfl, by omega⟩
  · rw [crlfcrlf_length, lflf_length] at least least'
    obtain order | order := uncrossed first.occurs first'.occurs <;> omega
  · rw [crlfcrlf_length, lflf_length] at least least'
    obtain order | order := uncrossed first'.occurs first.occurs <;> omega
  · exact ⟨rfl, by omega⟩

theorem nextRequest_eq_some_iff : nextRequest stream = some (request, rest) ↔
    ∃ eor pos, FirstEnd stream eor pos ∧ request = stream.take (pos + eor.length) ∧
      rest = stream.drop (pos + eor.length) := by
  simp only [nextRequest, Option.map_eq_some_iff, List.find?_range_eq_some, closesAt_iff,
    Prod.mk.injEq, List.mem_range]
  constructor
  · intro given
    obtain ⟨length, ⟨⟨eor, pos, closes, rfl⟩, _, first⟩, rfl, rfl⟩ := given
    refine ⟨eor, pos, ⟨closes, fun other earlier closes' => ?_⟩, rfl, rfl⟩
    by_contra before
    have never := first (earlier + other.length) (by omega)
    have hit := closesAt_iff.mpr ⟨other, earlier, closes', rfl⟩
    rw [hit] at never
    exact absurd never (by decide)
  · intro given
    obtain ⟨eor, pos, first, rfl, rfl⟩ := given
    have bound := first.occurs.bound (eor_ne_nil first.mem)
    refine ⟨pos + eor.length, ⟨⟨eor, pos, first.toCloses, rfl⟩, by omega, fun length below => ?_⟩,
      rfl, rfl⟩
    rw [Bool.not_eq_true']
    by_contra hit
    obtain ⟨other, earlier, closes', same⟩ := closesAt_iff.mp (by simpa using hit)
    have least := first.least other earlier closes'
    omega

theorem nextRequest_eq_none_iff : nextRequest stream = none ↔
    ∀ eor pos, ¬ Closes stream eor pos := by
  simp only [nextRequest, Option.map_eq_none_iff, List.find?_eq_none, closesAt_iff]
  constructor
  · intro never eor pos closes
    have bound := closes.occurs.bound (eor_ne_nil closes.mem)
    exact never (pos + eor.length) (List.mem_range.mpr (by omega)) ⟨eor, pos, closes, rfl⟩
  · rintro never length _ ⟨eor, pos, closes, _⟩
    exact never eor pos closes

theorem nextRequest_append (next : nextRequest stream = some (request, rest)) :
    request ++ rest = stream := by
  obtain ⟨eor, pos, _, rfl, rfl⟩ := nextRequest_eq_some_iff.mp next
  exact List.take_append_drop _ stream

theorem nextRequest_length (next : nextRequest stream = some (request, rest)) :
    rest.length + 2 < stream.length := by
  obtain ⟨eor, pos, first, rfl, rfl⟩ := nextRequest_eq_some_iff.mp next
  have bound := first.occurs.bound (eor_ne_nil first.mem)
  have positive := first.positive
  have two : 2 ≤ eor.length := by
    obtain rfl | rfl := mem_eors.mp first.mem <;> decide
  rw [List.length_drop]
  omega

theorem lstrip_length (stream : Str) : (Str.lstrip crlf stream).length ≤ stream.length :=
  (List.dropWhile_suffix _).length_le

/-- The requests of a stream in their order, each with what follows it. -/
def requests (stream : Str) : List (Str × Str) :=
  match _next : nextRequest (Str.lstrip crlf stream) with
  | none => []
  | some (request, rest) => (request, rest) :: requests rest
termination_by stream.length
decreasing_by
  have shorter := nextRequest_length _next
  have stripped := lstrip_length stream
  omega

theorem requests_none (next : nextRequest (Str.lstrip crlf stream) = none) :
    requests stream = [] := by
  rw [requests]
  split
  · rfl
  · next found => simp [next] at found

theorem requests_some (next : nextRequest (Str.lstrip crlf stream) = some (request, rest)) :
    requests stream = (request, rest) :: requests rest := by
  rw [requests]
  split
  · next found => simp [next] at found
  · next found =>
      rw [next] at found
      cases found
      rfl

/-- The request cannot be taken for another one, wherever the stream is cut: a
request that ends in two line feeds is not followed by CRLF CRLF, and its end is
the first pair of line feeds behind its first CRLF CRLF; the end of any other
request is its first CRLF CRLF. -/
def Clear (request rest : Str) : Prop :=
  if lflf <:+ request then
    let start := (Str.find crlfcrlf request).elim 0 (· + 4)
    Str.find crlfcrlf rest = none ∧
      Str.find lflf (request.drop start) = some (request.length - 2 - start)
  else Str.find crlfcrlf request = some (request.length - 4)

instance : Decidable (Clear request rest) :=
  inferInstanceAs (Decidable (if lflf <:+ request then _ ∧ _ else _))

/-- Where the search for line feeds starts when the whole request has come. -/
def lineFeedStart (stream : Str) : Nat := (Str.find crlfcrlf stream).elim 0 (· + 4)

/-- What makes the first end of a stream clear, by positions. -/
structure ClearAt (stream eor : Str) (pos : Nat) : Prop where
  carriage : eor = crlfcrlf → ∀ earlier < pos, ¬ Str.Occurs crlfcrlf stream earlier
  alone : eor = lflf → ∀ later, pos + 2 ≤ later → ¬ Str.Occurs crlfcrlf stream later
  first : eor = lflf → ∀ earlier, lineFeedStart stream ≤ earlier → earlier < pos →
    ¬ Str.Occurs lflf stream earlier

/-- Before two line feeds that are clear, every CRLF CRLF is quoted and ends
before them. -/
theorem FirstEnd.quoted_before (first : FirstEnd stream lflf pos) (stripped : Stripped stream)
    (alone : ∀ later, pos + 2 ≤ later → ¬ Str.Occurs crlfcrlf stream later)
    (occurs : Str.Occurs crlfcrlf stream earlier) : Quoted stream earlier ∧ earlier + 4 < pos := by
  have mem : crlfcrlf ∈ eors := mem_eors.mpr (.inl rfl)
  have near : earlier + 3 ≤ pos := by
    obtain before | after := uncrossed occurs first.occurs
    · exact before
    · exact absurd occurs (alone earlier after)
  have quoted : Quoted stream earlier := by
    by_contra bare
    have least := first.least crlfcrlf earlier
      ⟨mem, occurs, stripped.positive mem occurs, bare⟩
    rw [lflf_length, crlfcrlf_length] at least
    omega
  refine ⟨quoted, ?_⟩
  obtain before | after := apart mem occurs quoted first.mem first.occurs first.bare
  · exact before
  · rw [lflf_length] at after
    omega

theorem find_take_eq_some_iff {sub : Str} (nonempty : sub ≠ []) (within : pos + sub.length ≤ length) :
    Str.find sub (stream.take length) = some pos ↔ Str.find sub stream = some pos := by
  simp only [Str.find_eq_some_iff, Str.occurs_take, nonempty, false_or]
  constructor
  · intro given
    obtain ⟨⟨occurs, _⟩, first⟩ := given
    exact ⟨occurs, fun earlier before other => first earlier before ⟨other, by omega⟩⟩
  · intro given
    obtain ⟨occurs, first⟩ := given
    exact ⟨⟨occurs, within⟩, fun earlier before other => first earlier before other.1⟩

theorem lineFeedStart_take (first : FirstEnd stream lflf pos) (stripped : Stripped stream)
    (alone : ∀ later, pos + 2 ≤ later → ¬ Str.Occurs crlfcrlf stream later) :
    lineFeedStart (stream.take (pos + 2)) = lineFeedStart stream ∧ lineFeedStart stream ≤ pos := by
  cases found : Str.find crlfcrlf stream with
  | some earlier =>
      have before := (first.quoted_before stripped alone (Str.find_eq_some_iff.mp found).1).2
      have within : earlier + crlfcrlf.length ≤ pos + 2 := by
        rw [crlfcrlf_length]
        omega
      have same := (find_take_eq_some_iff (by decide) within).mpr found
      simp only [lineFeedStart, found, same, Option.elim_some, true_and]
      omega
  | none =>
      have same : Str.find crlfcrlf (stream.take (pos + 2)) = none := by
        rw [Str.find_eq_none_iff] at found ⊢
        intro earlier occurs
        exact found earlier ((Str.occurs_take _).mp occurs).1
      simp only [lineFeedStart, found, same, Option.elim_none, true_and, Nat.zero_le]

theorem not_suffix_of_carriage (occurs : Str.Occurs crlfcrlf stream pos) :
    ¬ lflf <:+ stream.take (pos + 4) := by
  intro given
  obtain ⟨before, whole⟩ := given
  have bound := occurs.bound (by decide)
  rw [crlfcrlf_length] at bound
  have length := congrArg List.length whole
  rw [List.length_append, lflf_length, List.length_take] at length
  have within : 2 < crlfcrlf.length := by decide
  have byte := occurs.getElem? within
  have clash : (stream.take (pos + 4))[pos + 2]? = some 10 := by
    rw [← whole, List.getElem?_append_right (by omega)]
    have start : pos + 2 - before.length = 0 := by omega
    rw [start]
    rfl
  rw [List.getElem?_take_of_lt (by omega), byte] at clash
  cases clash

theorem clear_carriage_iff (first : FirstEnd stream crlfcrlf pos) :
    Clear (stream.take (pos + 4)) (stream.drop (pos + 4)) ↔ ClearAt stream crlfcrlf pos := by
  have bound := first.occurs.bound (by decide)
  have different : crlfcrlf ≠ lflf := by decide
  have ends := not_suffix_of_carriage first.occurs
  have size : (stream.take (pos + 4)).length - 4 = pos := by
    rw [crlfcrlf_length] at bound
    rw [List.length_take]
    omega
  have seen : Str.find crlfcrlf (stream.take (pos + 4)) = some pos ↔
      Str.find crlfcrlf stream = some pos :=
    find_take_eq_some_iff (by decide) (Nat.le_refl (pos + crlfcrlf.length))
  simp only [Clear, ends, if_false, size, seen, Str.find_eq_some_iff]
  exact ⟨fun found => ⟨fun _ => found.2, fun same => absurd same different,
    fun same => absurd same different⟩, fun clear => ⟨first.occurs, clear.carriage rfl⟩⟩

theorem clear_lineFeeds_iff (first : FirstEnd stream lflf pos) (stripped : Stripped stream) :
    Clear (stream.take (pos + 2)) (stream.drop (pos + 2)) ↔ ClearAt stream lflf pos := by
  have bound := first.occurs.bound (by decide)
  have different : lflf ≠ crlfcrlf := by decide
  have nonempty : lflf ≠ [] := by decide
  have ends : lflf <:+ stream.take (pos + 2) := ⟨stream.take pos, first.occurs.take_append⟩
  have size : (stream.take (pos + 2)).length - 2 = pos := by
    rw [lflf_length] at bound
    rw [List.length_take]
    omega
  have follows : Str.find crlfcrlf (stream.drop (pos + 2)) = none ↔
      ∀ later, pos + 2 ≤ later → ¬ Str.Occurs crlfcrlf stream later := by
    simp only [Str.find_eq_none_iff, Str.occurs_drop]
    refine ⟨fun never later after => ?_, fun never later => never _ (Nat.le_add_right _ _)⟩
    rw [← Nat.add_sub_cancel' after]
    exact never (later - (pos + 2))
  have search : ∀ start offset, Str.Occurs lflf ((stream.take (pos + 2)).drop start) offset ↔
      Str.Occurs lflf stream (start + offset) ∧ start + offset ≤ pos := by
    intro start offset
    rw [Str.occurs_drop, Str.occurs_take, lflf_length]
    simp only [nonempty, false_or, Nat.add_le_add_iff_right]
  simp only [Clear, ends, if_true, size, follows]
  constructor
  · intro given
    obtain ⟨alone, found⟩ := given
    obtain ⟨start, within⟩ := lineFeedStart_take first stripped alone
    have found : Str.find lflf ((stream.take (pos + 2)).drop (lineFeedStart stream)) =
        some (pos - lineFeedStart stream) := by
      rw [← start]
      exact found
    refine ⟨fun same => absurd same different, fun _ => alone, fun _ earlier after before occurs => ?_⟩
    have missing := (Str.find_eq_some_iff.mp found).2 (earlier - lineFeedStart stream) (by omega)
    rw [search, Nat.add_sub_cancel' after] at missing
    exact missing ⟨occurs, by omega⟩
  · intro clear
    refine ⟨clear.alone rfl, ?_⟩
    obtain ⟨start, within⟩ := lineFeedStart_take first stripped (clear.alone rfl)
    have found : Str.find lflf ((stream.take (pos + 2)).drop (lineFeedStart stream)) =
        some (pos - lineFeedStart stream) := by
      rw [Str.find_eq_some_iff, search, Nat.add_sub_cancel' within]
      refine ⟨⟨first.occurs, Nat.le_refl _⟩, fun earlier before occurs => ?_⟩
      rw [search] at occurs
      exact clear.first rfl _ (Nat.le_add_right _ _) (by omega) occurs.1
    rw [← start] at found
    exact found

theorem clear_iff (first : FirstEnd stream eor pos) (stripped : Stripped stream) :
    Clear (stream.take (pos + eor.length)) (stream.drop (pos + eor.length)) ↔
      ClearAt stream eor pos := by
  obtain rfl | rfl := mem_eors.mp first.mem
  · exact clear_carriage_iff first
  · exact clear_lineFeeds_iff first stripped

end ExaProxy.Client
