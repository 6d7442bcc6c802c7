import ExaProxy.Client.Requests

namespace ExaProxy.Client

open ExaProxy.Data ExaProxy.Http

/-! Calls of `checkRequest` on the prefix of a stream that has come so far.  The
position `seek` goes from one call to the next. -/

variable {stream eor other request rest : Str} {pos earlier seek next length size : Nat}

/-- The buffer has not become too long. -/
def Fits (stream : Str) (size : Nat) : Prop := size = 0 ∨ stream.length ≤ size

theorem checkRequest_found (size : Nat) (search : searchEnd crlfcrlf stream seek = .found request rest next) :
    checkRequest stream size seek = some (request, rest, next) := by
  simp only [checkRequest, search]

theorem checkRequest_found_later (size : Nat)
    (search : searchEnd crlfcrlf stream seek = .missed earlier)
    (search' : searchEnd lflf stream earlier = .found request rest next) :
    checkRequest stream size seek = some (request, rest, next) := by
  simp only [checkRequest, search, search']

theorem checkRequest_missed (fits : Fits stream size) (length : Nat)
    (search : searchEnd crlfcrlf (stream.take length) seek = .missed earlier)
    (search' : searchEnd lflf (stream.take length) earlier = .missed next) :
    checkRequest (stream.take length) size seek = some ([], stream.take length, next) := by
  have short : ¬ (size ≠ 0 ∧ (stream.take length).length > size) := by
    rw [List.length_take]
    cases fits <;> omega
  simp only [checkRequest, search, search', short, if_false]

/-- Whatever is cut out ends where some request could end. -/
theorem checkRequest_cases (stripped : Stripped stream) (fits : Fits stream size)
    (length seek : Nat) :
    (∃ next, checkRequest (stream.take length) size seek = some ([], stream.take length, next)) ∨
      ∃ eor pos next, Closes stream eor pos ∧ pos + eor.length ≤ length ∧
        checkRequest (stream.take length) size seek = some (stream.take (pos + eor.length),
          (stream.take length).drop (pos + eor.length), next) := by
  have first : (∃ start, searchEnd crlfcrlf (stream.take length) seek = .missed start) ∨
      ∃ pos, Closes stream crlfcrlf pos ∧ pos + 4 ≤ length ∧
        searchEnd crlfcrlf (stream.take length) seek = .found (stream.take (pos + 4))
          ((stream.take length).drop (pos + 4)) seek := by
    obtain ⟨search, _⟩ | ⟨pos, _, _, within, _, ⟨_, search⟩ | ⟨closes, search⟩⟩ :=
      searchEnd_take stripped (mem_eors.mpr (.inl rfl)) seek length
    · exact .inl ⟨_, search⟩
    · exact .inl ⟨_, search⟩
    · exact .inr ⟨pos, closes, within, search⟩
  obtain ⟨start, search⟩ | ⟨pos, closes, within, search⟩ := first
  · obtain ⟨search', _⟩ | ⟨pos, _, _, within, _, ⟨_, search'⟩ | ⟨closes, search'⟩⟩ :=
      searchEnd_take stripped (mem_eors.mpr (.inr rfl)) start length
    · exact .inl ⟨_, checkRequest_missed fits length search search'⟩
    · exact .inl ⟨_, checkRequest_missed fits length search search'⟩
    · exact .inr ⟨lflf, pos, _, closes, within, checkRequest_found_later size search search'⟩
  · exact .inr ⟨crlfcrlf, pos, _, closes, within, checkRequest_found size search⟩

/-- Where the search may go on before a request whose end is clear. -/
structure Aligned (stream eor : Str) (pos seek : Nat) : Prop where
  before : seek ≤ pos
  around : eor = lflf → seek ≤ lineFeedStart stream - 4 ∨ lineFeedStart stream ≤ seek

theorem aligned_zero (stream eor : Str) (pos : Nat) : Aligned stream eor pos 0 :=
  ⟨Nat.zero_le _, fun _ => .inl (Nat.zero_le _)⟩

theorem lineFeedStart_le (occurs : Str.Occurs crlfcrlf stream pos) :
    lineFeedStart stream ≤ pos + 4 := by
  cases found : Str.find crlfcrlf stream with
  | none => exact absurd occurs (Str.find_eq_none_iff.mp found pos)
  | some first =>
      simp only [lineFeedStart, found, Option.elim_some, Nat.add_le_add_iff_right]
      by_contra before
      exact (Str.find_eq_some_iff.mp found).2 pos (by omega) occurs

theorem occurs_lineFeedStart (positive : 0 < lineFeedStart stream) :
    Str.Occurs crlfcrlf stream (lineFeedStart stream - 4) ∧ 4 ≤ lineFeedStart stream := by
  cases found : Str.find crlfcrlf stream with
  | none => simp [lineFeedStart, found] at positive
  | some first =>
      simp only [lineFeedStart, found, Option.elim_some, Nat.add_sub_cancel]
      exact ⟨(Str.find_eq_some_iff.mp found).1, by omega⟩

/-- The request is cut out by the first call that sees its end. -/
def Cut (stream eor : Str) (pos size seek length : Nat) : Prop :=
  (length < pos + eor.length ∧ ∃ next, Aligned stream eor pos next ∧
    checkRequest (stream.take length) size seek = some ([], stream.take length, next)) ∨
  (pos + eor.length ≤ length ∧ ∃ next,
    checkRequest (stream.take length) size seek = some (stream.take (pos + eor.length),
      (stream.take length).drop (pos + eor.length), next))

theorem cut_carriage (first : FirstEnd stream crlfcrlf pos) (stripped : Stripped stream)
    (clear : ClearAt stream crlfcrlf pos) (aligned : Aligned stream crlfcrlf pos seek)
    (fits : Fits stream size) (length : Nat) : Cut stream crlfcrlf pos size seek length := by
  have different : crlfcrlf ≠ lflf := by decide
  have mem : lflf ∈ eors := mem_eors.mpr (.inr rfl)
  have before := aligned.before
  obtain ⟨search, none⟩ | ⟨found, _, occurs, within, earliest, ends⟩ :=
    searchEnd_take stripped first.mem seek length
  · have unseen := none pos before first.occurs
    refine .inl ⟨unseen, ?_⟩
    rw [crlfcrlf_length] at unseen
    obtain ⟨search', _⟩ | ⟨found, _, occurs, within, _, ⟨quoted, search'⟩ | ⟨closes, _⟩⟩ :=
      searchEnd_take stripped mem seek length
    · exact ⟨seek, aligned, checkRequest_missed fits length search search'⟩
    · refine ⟨found + lflf.length, ⟨?_, fun same => absurd same different⟩,
        checkRequest_missed fits length search search'⟩
      obtain clear | crossing := apart mem occurs quoted first.mem first.occurs first.bare
      · exact Nat.le_of_lt clear
      · rw [lflf_length] at within
        rw [crlfcrlf_length] at crossing
        omega
    · have least := first.least lflf found closes
      rw [crlfcrlf_length, lflf_length] at least
      rw [lflf_length] at within
      omega
  · have same : found = pos := by
      by_contra other
      by_cases order : found < pos
      · exact clear.carriage rfl found order occurs
      · exact earliest pos before (by omega) first.occurs
    subst same
    obtain ⟨quoted, _⟩ | ⟨_, search⟩ := ends
    · exact absurd quoted first.bare
    · exact .inr ⟨within, seek, checkRequest_found size search⟩

theorem search_carriage (first : FirstEnd stream lflf pos) (stripped : Stripped stream)
    (clear : ClearAt stream lflf pos) (aligned : Aligned stream lflf pos seek) (length : Nat) :
    ∃ start, searchEnd crlfcrlf (stream.take length) seek = .missed start ∧
      Aligned stream lflf pos start ∧ (pos + 2 ≤ length → lineFeedStart stream ≤ start) := by
  have quoted : ∀ {earlier}, Str.Occurs crlfcrlf stream earlier →
      Quoted stream earlier ∧ earlier + 4 < pos := fun occurs =>
    first.quoted_before stripped (clear.alone rfl) occurs
  obtain ⟨search, none⟩ | ⟨found, _, occurs, _, _, ends⟩ :=
    searchEnd_take stripped (mem_eors.mpr (.inl rfl)) seek length
  · refine ⟨seek, search, aligned, fun seen => ?_⟩
    by_contra behind
    obtain near | past := aligned.around rfl
    · obtain ⟨occurs, four⟩ := occurs_lineFeedStart (show 0 < lineFeedStart stream by omega)
      have unseen := none _ near occurs
      have before := (quoted occurs).2
      rw [crlfcrlf_length] at unseen
      omega
    · exact behind past
  · obtain ⟨odd, before⟩ := quoted occurs
    obtain ⟨_, search⟩ | ⟨closes, _⟩ := ends
    · have past := lineFeedStart_le occurs
      exact ⟨found + 4, search, ⟨Nat.le_of_lt before, fun _ => .inr past⟩, fun _ => past⟩
    · exact absurd odd closes.bare

theorem cut_lineFeeds (first : FirstEnd stream lflf pos) (stripped : Stripped stream)
    (clear : ClearAt stream lflf pos) (aligned : Aligned stream lflf pos seek)
    (fits : Fits stream size) (length : Nat) : Cut stream lflf pos size seek length := by
  obtain ⟨start, search, aligned, past⟩ := search_carriage first stripped clear aligned length
  have before := aligned.before
  obtain ⟨search', none⟩ | ⟨found, after, occurs, within, earliest, ends⟩ :=
    searchEnd_take stripped first.mem start length
  · exact .inl ⟨none pos before first.occurs, start, aligned,
      checkRequest_missed fits length search search'⟩
  · obtain ⟨quoted, search'⟩ | ⟨closes, search'⟩ := ends
    · have order : found + 2 < pos := by
        obtain order | order := apart first.mem occurs quoted first.mem first.occurs first.bare
        · exact order
        · rw [lflf_length] at order
          exact absurd first.occurs (earliest pos before (by omega))
      have unseen : length < pos + lflf.length := by
        by_contra seen
        rw [lflf_length] at seen
        have behind := past (by omega)
        exact clear.first rfl found (by omega) (by omega) occurs
      refine .inl ⟨unseen, found + 2, ⟨Nat.le_of_lt order, fun _ => ?_⟩,
        checkRequest_missed fits length search search'⟩
      obtain near | past := aligned.around rfl
      · by_cases positive : 0 < lineFeedStart stream
        · obtain ⟨carriage, four⟩ := occurs_lineFeedStart positive
          obtain apart | apart := uncrossed carriage occurs <;> omega
        · omega
      · omega
    · have least := first.least lflf found closes
      have same : found = pos := by
        by_contra other
        rw [lflf_length] at least
        exact earliest pos before (by omega) first.occurs
      subst same
      exact .inr ⟨within, start, checkRequest_found_later size search search'⟩

theorem checkRequest_clear (first : FirstEnd stream eor pos) (stripped : Stripped stream)
    (clear : ClearAt stream eor pos) (aligned : Aligned stream eor pos seek)
    (fits : Fits stream size) (length : Nat) : Cut stream eor pos size seek length := by
  obtain rfl | rfl := mem_eors.mp first.mem
  · exact cut_carriage first stripped clear aligned fits length
  · exact cut_lineFeeds first stripped clear aligned fits length

/-- Every terminator that ends in the prefix was looked at. -/
structure Fresh (stream : Str) (length seek : Nat) : Prop where
  within : seek ≤ length
  after : seek = 0 ∨ ∃ eor ∈ eors, ∃ pos, Str.Occurs eor stream pos ∧ Quoted stream pos ∧
    pos + eor.length = seek
  unseen : ∀ eor ∈ eors, ∀ pos, seek ≤ pos → Str.Occurs eor stream pos → length < pos + eor.length

theorem fresh_zero (stream : Str) : Fresh stream 0 0 := by
  refine ⟨Nat.le_refl 0, .inl rfl, fun eor mem pos _ _ => ?_⟩
  have positive := List.length_pos_of_ne_nil (eor_ne_nil mem)
  omega

theorem Fresh.reaches (fresh : Fresh stream length seek) (closes : Closes stream eor pos)
    (later : length < pos + eor.length) : seek ≤ pos := by
  obtain zero | ⟨other, mem, earlier, occurs, quoted, ends⟩ := fresh.after
  · omega
  · have within := fresh.within
    obtain order | order := apart mem occurs quoted closes.mem closes.occurs closes.bare <;> omega

/-- A terminator that the next byte completes is the only one there is to find. -/
theorem searchEnd_byte (fresh : Fresh stream length seek) (stripped : Stripped stream)
    (mem : eor ∈ eors) :
    (searchEnd eor (stream.take (length + 1)) seek = .missed seek ∧
      ∀ pos, seek ≤ pos → Str.Occurs eor stream pos → length + 1 < pos + eor.length) ∨
    ∃ pos, Str.Occurs eor stream pos ∧ pos + eor.length = length + 1 ∧
      ((Quoted stream pos ∧
          searchEnd eor (stream.take (length + 1)) seek = .missed (length + 1)) ∨
        (Closes stream eor pos ∧ searchEnd eor (stream.take (length + 1)) seek =
          .found (stream.take (length + 1)) [] seek)) := by
  obtain missed | ⟨pos, after, occurs, within, _, ends⟩ :=
    searchEnd_take stripped mem seek (length + 1)
  · exact .inl missed
  · have unseen := fresh.unseen eor mem pos after occurs
    have exact_end : pos + eor.length = length + 1 := by omega
    have nothing : (stream.take (length + 1)).drop (length + 1) = [] :=
      List.drop_of_length_le (List.length_take_le _ _)
    rw [exact_end, nothing] at ends
    exact .inr ⟨pos, occurs, exact_end, ends⟩

/-- One more byte: a request is cut out when it is complete, and not before. -/
theorem checkRequest_byte (fresh : Fresh stream length seek) (stripped : Stripped stream)
    (fits : Fits stream size) :
    (∃ next, checkRequest (stream.take (length + 1)) size seek =
        some ([], stream.take (length + 1), next) ∧ Fresh stream (length + 1) next ∧
      ∀ eor pos, Closes stream eor pos → pos + eor.length ≠ length + 1) ∨
    ∃ eor pos next, Closes stream eor pos ∧ pos + eor.length = length + 1 ∧
      checkRequest (stream.take (length + 1)) size seek =
        some (stream.take (length + 1), [], next) := by
  have carriage : crlfcrlf ∈ eors := mem_eors.mpr (.inl rfl)
  have lineFeeds : lflf ∈ eors := mem_eors.mpr (.inr rfl)
  have within := fresh.within
  have past : ∀ eor ∈ eors, ∀ pos, length + 1 ≤ pos → Str.Occurs eor stream pos →
      length + 1 < pos + eor.length := by
    intro eor mem pos after _
    have positive := List.length_pos_of_ne_nil (eor_ne_nil mem)
    omega
  obtain ⟨search, none⟩ | ⟨found, occurs, ends, ⟨quoted, search⟩ | ⟨closes, search⟩⟩ :=
    searchEnd_byte fresh stripped carriage
  · obtain ⟨search', none'⟩ | ⟨found, occurs, ends, ⟨quoted, search'⟩ | ⟨closes, search'⟩⟩ :=
      searchEnd_byte fresh stripped lineFeeds
    · refine .inl ⟨seek, checkRequest_missed fits _ search search',
        ⟨by omega, fresh.after, ?_⟩, ?_⟩
      · intro eor mem
        obtain rfl | rfl := mem_eors.mp mem
        · exact none
        · exact none'
      · intro eor pos closes ends
        have reaches := fresh.reaches closes (by omega)
        obtain rfl | rfl := mem_eors.mp closes.mem
        · exact absurd ends (Nat.ne_of_gt (none pos reaches closes.occurs))
        · exact absurd ends (Nat.ne_of_gt (none' pos reaches closes.occurs))
    · refine .inl ⟨length + 1, checkRequest_missed fits _ search search',
        ⟨Nat.le_refl _, .inr ⟨lflf, lineFeeds, found, occurs, quoted, ends⟩, past⟩, ?_⟩
      intro eor pos closes ends'
      obtain order | order :=
        apart lineFeeds occurs quoted closes.mem closes.occurs closes.bare <;> omega
    · exact .inr ⟨lflf, found, seek, closes, ends, checkRequest_found_later size search search'⟩
  · have search' : searchEnd lflf (stream.take (length + 1)) (length + 1) =
        .missed (length + 1) := by
      have nothing : (stream.take (length + 1)).drop (length + 1) = [] :=
        List.drop_of_length_le (List.length_take_le _ _)
      simp only [searchEnd, nothing, Str.find, lflf, reduceCtorEq, if_false]
    refine .inl ⟨length + 1, checkRequest_missed fits _ search search',
      ⟨Nat.le_refl _, .inr ⟨crlfcrlf, carriage, found, occurs, quoted, ends⟩, past⟩, ?_⟩
    intro eor pos closes ends'
    obtain order | order :=
      apart carriage occurs quoted closes.mem closes.occurs closes.bare <;> omega
  · exact .inr ⟨crlfcrlf, found, seek, closes, ends, checkRequest_found size search⟩

theorem ends_eq (occurs : Str.Occurs eor stream pos) (nonempty : eor ≠ [])
    (occurs' : Str.Occurs other stream earlier) (nonempty' : other ≠ [])
    (same : stream.take (pos + eor.length) = stream.take (earlier + other.length)) :
    pos + eor.length = earlier + other.length := by
  have bound := occurs.bound nonempty
  have bound' := occurs'.bound nonempty'
  have length := congrArg List.length same
  rw [List.length_take, List.length_take, Nat.min_eq_left bound, Nat.min_eq_left bound'] at length
  exact length

theorem checkRequest_request (stripped : Stripped stream) (nonempty : request ≠ [])
    (cut : checkRequest stream size seek = some (request, rest, next)) :
    (∃ pos, Closes stream crlfcrlf pos ∧ request = stream.take (pos + crlfcrlf.length) ∧
      ∀ earlier, seek ≤ earlier → earlier < pos → ¬ Str.Occurs crlfcrlf stream earlier) ∨
    ∃ start pos, searchEnd crlfcrlf stream seek = .missed start ∧ Closes stream lflf pos ∧
      request = stream.take (pos + lflf.length) ∧ start ≤ pos ∧
      ∀ earlier, start ≤ earlier → earlier < pos → ¬ Str.Occurs lflf stream earlier := by
  have whole : stream.take stream.length = stream := List.take_length
  have search := searchEnd_take stripped (mem_eors.mpr (.inl rfl)) seek stream.length
  rw [whole] at search
  have later : ∀ start, searchEnd crlfcrlf stream seek = .missed start →
      ∃ pos, Closes stream lflf pos ∧ request = stream.take (pos + lflf.length) ∧ start ≤ pos ∧
        ∀ earlier, start ≤ earlier → earlier < pos → ¬ Str.Occurs lflf stream earlier := by
    intro start missed
    have search' := searchEnd_take stripped (mem_eors.mpr (.inr rfl)) start stream.length
    rw [whole] at search'
    have nothing : ∀ after, searchEnd lflf stream start = .missed after → request = [] := by
      intro after missed'
      simp only [checkRequest, missed, missed'] at cut
      split at cut
      · cases cut
      · cases cut
        rfl
    obtain ⟨missed', _⟩ | ⟨pos, after, _, _, earliest, ⟨_, missed'⟩ | ⟨closes, found⟩⟩ := search'
    · exact absurd (nothing _ missed') nonempty
    · exact absurd (nothing _ missed') nonempty
    · have answer := (checkRequest_found_later size missed found).symm.trans cut
      cases answer
      exact ⟨pos, closes, rfl, after, earliest⟩
  obtain ⟨missed, _⟩ | ⟨pos, _, _, _, earliest, ⟨_, missed⟩ | ⟨closes, found⟩⟩ := search
  · obtain ⟨pos, found⟩ := later _ missed
    exact .inr ⟨_, pos, missed, found⟩
  · obtain ⟨pos, found⟩ := later _ missed
    exact .inr ⟨_, pos, missed, found⟩
  · have answer := (checkRequest_found size found).symm.trans cut
    cases answer
    exact .inl ⟨pos, closes, rfl, earliest⟩

theorem take_ne_nil (closes : Closes stream eor pos) : stream.take (pos + eor.length) ≠ [] := by
  have bound := closes.occurs.bound (eor_ne_nil closes.mem)
  have positive := closes.positive
  refine List.ne_nil_of_length_pos ?_
  rw [List.length_take]
  omega

theorem carriage_missed (first : FirstEnd stream crlfcrlf pos) (stripped : Stripped stream)
    (before : earlier < pos) (occurs : Str.Occurs crlfcrlf stream earlier) :
    checkRequest stream size 0 ≠ some (stream.take (pos + crlfcrlf.length), rest, next) := by
  intro cut
  obtain ⟨found, closes, same, earliest⟩ | ⟨_, found, _, closes, same, _⟩ :=
    checkRequest_request stripped (take_ne_nil first.toCloses) cut
  · have ends := ends_eq first.occurs (by decide) closes.occurs (by decide) same
    exact earliest earlier (Nat.zero_le _) (by omega) occurs
  · have ends := ends_eq first.occurs (by decide) closes.occurs (by decide) same
    rw [crlfcrlf_length, lflf_length] at ends
    obtain order | order := uncrossed first.occurs closes.occurs <;> omega

theorem lineFeeds_missed_before (first : FirstEnd stream lflf pos) (stripped : Stripped stream)
    (fresh : Fresh stream (pos + 1) seek) (after : pos + 2 ≤ earlier)
    (occurs : Str.Occurs crlfcrlf stream earlier) :
    checkRequest stream size seek ≠ some (stream.take (pos + lflf.length), rest, next) := by
  intro cut
  obtain ⟨found, closes, same, _⟩ | ⟨start, found, missed, closes, same, before, _⟩ :=
    checkRequest_request stripped (take_ne_nil first.toCloses) cut
  · have ends := ends_eq first.occurs (by decide) closes.occurs (by decide) same
    rw [crlfcrlf_length, lflf_length] at ends
    obtain order | order := uncrossed closes.occurs first.occurs <;> omega
  · have ends := ends_eq first.occurs (by decide) closes.occurs (by decide) same
    have search := searchEnd_take stripped (mem_eors.mpr (.inl rfl)) seek stream.length
    have within := fresh.within
    rw [List.take_length, missed] at search
    obtain ⟨_, none⟩ | ⟨carriage, past, occurs', _, _, ⟨_, same'⟩ | ⟨_, same'⟩⟩ := search
    · have bound := occurs.bound (by decide)
      have unseen := none earlier (by omega) occurs
      omega
    · have unseen := fresh.unseen crlfcrlf (mem_eors.mpr (.inl rfl)) carriage past occurs'
      cases same'
      omega
    · cases same'

theorem lineFeeds_missed_behind (first : FirstEnd stream lflf pos) (stripped : Stripped stream)
    (past : lineFeedStart stream ≤ earlier) (before : earlier < pos)
    (occurs : Str.Occurs lflf stream earlier) :
    checkRequest stream size 0 ≠ some (stream.take (pos + lflf.length), rest, next) := by
  intro cut
  obtain ⟨found, closes, same, _⟩ | ⟨start, found, missed, closes, same, _, earliest⟩ :=
    checkRequest_request stripped (take_ne_nil first.toCloses) cut
  · have ends := ends_eq first.occurs (by decide) closes.occurs (by decide) same
    rw [crlfcrlf_length, lflf_length] at ends
    obtain order | order := uncrossed closes.occurs first.occurs <;> omega
  · have ends := ends_eq first.occurs (by decide) closes.occurs (by decide) same
    have search := searchEnd_take stripped (mem_eors.mpr (.inl rfl)) 0 stream.length
    rw [List.take_length, missed] at search
    have reached : start ≤ earlier := by
      obtain ⟨same', _⟩ | ⟨carriage, _, occurs', _, none, ⟨_, same'⟩ | ⟨_, same'⟩⟩ := search
      · cases same'
        exact Nat.zero_le _
      · have found : Str.find crlfcrlf stream = some carriage := Str.find_eq_some_iff.mpr
          ⟨occurs', fun earlier before => none earlier (Nat.zero_le _) before⟩
        cases same'
        rw [lineFeedStart, found] at past
        exact past
      · cases same'
    exact earliest earlier reached (by omega) occurs

end ExaProxy.Client
