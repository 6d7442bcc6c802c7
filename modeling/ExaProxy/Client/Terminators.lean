import ExaProxy.Client.HttpReader

namespace ExaProxy.Client

open ExaProxy.Data ExaProxy.Http

/-! Where a request ends.  A stream is what the client sends from some point on;
the reader sees a prefix of it. -/

/-- `HTTPClient.eor` -/
def eors : List Str := [crlfcrlf, lflf]

/-- The quotes before the position do not match. -/
def Quoted (stream : Str) (pos : Nat) : Prop := countQuotes (stream.take pos) % 2 = 1

/-- The terminator stands at the position, with something before it. -/
structure Closes (stream eor : Str) (pos : Nat) : Prop where
  mem : eor ∈ eors
  occurs : Str.Occurs eor stream pos
  positive : 0 < pos
  bare : ¬ Quoted stream pos

/-- No terminator that closes a request ends earlier. -/
structure FirstEnd (stream eor : Str) (pos : Nat) : Prop extends Closes stream eor pos where
  least : ∀ other earlier, Closes stream other earlier →
    pos + eor.length ≤ earlier + other.length

/-- A stream from which line ends were stripped. -/
def Stripped (stream : Str) : Prop := ∀ byte ∈ stream.head?, byte ∉ crlf

variable {stream eor other : Str} {pos earlier seek length size : Nat}

theorem stripped_lstrip (s : Str) : Stripped (Str.lstrip crlf s) := by
  intro byte head
  obtain ⟨rest, stripped⟩ := List.head?_eq_some_iff.mp head
  exact Str.lstrip_head stripped

theorem mem_eors : eor ∈ eors ↔ eor = crlfcrlf ∨ eor = lflf := by
  simp [eors]

theorem eor_ne_nil (mem : eor ∈ eors) : eor ≠ [] := by
  obtain rfl | rfl := mem_eors.mp mem <;> decide

theorem eor_not_quote (mem : eor ∈ eors) : 34 ∉ eor := by
  obtain rfl | rfl := mem_eors.mp mem <;> decide

theorem not_quoted_iff : ¬ Quoted stream pos ↔ countQuotes (stream.take pos) % 2 = 0 := by
  rw [Quoted]
  omega

theorem Stripped.positive (stripped : Stripped stream) (mem : eor ∈ eors)
    (occurs : Str.Occurs eor stream pos) : 0 < pos := by
  cases pos with
  | succ pos => exact Nat.succ_pos pos
  | zero =>
      have length := List.length_pos_of_ne_nil (eor_ne_nil mem)
      have head := occurs.getElem? length
      obtain rfl | rfl := mem_eors.mp mem
      · exact absurd (by decide) (stripped 13 (by simpa [crlfcrlf, List.head?_eq_getElem?] using head))
      · exact absurd (by decide) (stripped 10 (by simpa [lflf, List.head?_eq_getElem?] using head))

/-- Quotes match behind a terminator, and within it, as they do before it. -/
theorem quoted_within (mem : eor ∈ eors) (occurs : Str.Occurs eor stream pos) {offset : Nat}
    (within : offset ≤ eor.length) : Quoted stream (pos + offset) ↔ Quoted stream pos := by
  have piece : (stream.drop pos).take offset = eor.take offset := by
    obtain ⟨rest, whole⟩ := occurs
    rw [← whole, List.take_append_of_le_length within]
  have bare : 34 ∉ (stream.drop pos).take offset := by
    rw [piece]
    exact fun quote => eor_not_quote mem (List.mem_of_mem_take quote)
  rw [Quoted, Quoted, List.take_add, countQuotes_append _ bare]

/-- A quoted terminator does not touch one that is not quoted. -/
theorem apart (mem : eor ∈ eors) (occurs : Str.Occurs eor stream pos) (quoted : Quoted stream pos)
    (mem' : other ∈ eors) (occurs' : Str.Occurs other stream earlier)
    (bare : ¬ Quoted stream earlier) :
    pos + eor.length < earlier ∨ earlier + other.length < pos := by
  by_contra touching
  obtain ⟨offset, rfl, within⟩ | ⟨offset, rfl, within⟩ :
      (∃ offset, earlier = pos + offset ∧ offset ≤ eor.length) ∨
        ∃ offset, pos = earlier + offset ∧ offset ≤ other.length := by
    by_cases order : pos ≤ earlier
    · exact .inl ⟨earlier - pos, by omega, by omega⟩
    · exact .inr ⟨pos - earlier, by omega, by omega⟩
  · exact bare ((quoted_within mem occurs within).mpr quoted)
  · exact bare ((quoted_within mem' occurs' within).mp quoted)

theorem uncrossed (occurs : Str.Occurs crlfcrlf stream pos)
    (occurs' : Str.Occurs lflf stream earlier) : pos + 3 ≤ earlier ∨ earlier + 2 ≤ pos := by
  have byte : ∀ offset, offset < 4 → stream[pos + offset]? = crlfcrlf[offset]? :=
    fun _ within => occurs.getElem? within
  have byte' : ∀ offset, offset < 2 → stream[earlier + offset]? = lflf[offset]? :=
    fun _ within => occurs'.getElem? within
  by_contra crossing
  obtain near | near | near | near : earlier = pos + 2 ∨ earlier = pos + 1 ∨ earlier = pos ∨
      earlier + 1 = pos := by omega
  · have clash := byte' 0 (by omega)
    rw [near, Nat.add_zero, byte 2 (by omega)] at clash
    cases clash
  · have clash := byte' 1 (by omega)
    rw [near, Nat.add_assoc, byte 2 (by omega)] at clash
    cases clash
  · have clash := byte' 0 (by omega)
    rw [near, byte 0 (by omega)] at clash
    cases clash
  · have clash := byte' 1 (by omega)
    rw [near, ← Nat.add_zero pos, byte 0 (by omega)] at clash
    cases clash

theorem FirstEnd.quoted (first : FirstEnd stream eor pos) (stripped : Stripped stream)
    (mem : other ∈ eors) (occurs : Str.Occurs other stream earlier)
    (before : earlier + other.length < pos + eor.length) : Quoted stream earlier := by
  by_contra bare
  have least := first.least other earlier ⟨mem, occurs, stripped.positive mem occurs, bare⟩
  omega

theorem searchEnd_take (stripped : Stripped stream) (mem : eor ∈ eors) (seek length : Nat) :
    (searchEnd eor (stream.take length) seek = .missed seek ∧
      ∀ pos, seek ≤ pos → Str.Occurs eor stream pos → length < pos + eor.length) ∨
    ∃ pos, seek ≤ pos ∧ Str.Occurs eor stream pos ∧ pos + eor.length ≤ length ∧
      (∀ earlier, seek ≤ earlier → earlier < pos → ¬ Str.Occurs eor stream earlier) ∧
      ((Quoted stream pos ∧
          searchEnd eor (stream.take length) seek = .missed (pos + eor.length)) ∨
        (Closes stream eor pos ∧ searchEnd eor (stream.take length) seek =
          .found (stream.take (pos + eor.length))
            ((stream.take length).drop (pos + eor.length)) seek)) := by
  have nonempty := eor_ne_nil mem
  have seen : ∀ offset, Str.Occurs eor ((stream.take length).drop seek) offset ↔
      Str.Occurs eor stream (seek + offset) ∧ seek + offset + eor.length ≤ length := by
    intro offset
    rw [Str.occurs_drop, Str.occurs_take]
    simp only [nonempty, false_or]
  cases found : Str.find eor ((stream.take length).drop seek) with
  | none =>
      refine .inl ⟨by simp only [searchEnd, found], fun pos later occurs => ?_⟩
      by_contra within
      have missing := Str.find_eq_none_iff.mp found (pos - seek)
      rw [seen, Nat.add_sub_cancel' later] at missing
      exact missing ⟨occurs, by omega⟩
  | some offset =>
      obtain ⟨here, first⟩ := Str.find_eq_some_iff.mp found
      rw [seen] at here
      have positive := stripped.positive mem here.1
      have bound := here.1.bound nonempty
      have buffer : (stream.take length).take (seek + offset) = stream.take (seek + offset) := by
        rw [List.take_take, Nat.min_eq_left (by omega)]
      have full : stream.take (seek + offset) ≠ [] := by
        refine List.ne_nil_of_length_pos ?_
        rw [List.length_take]
        omega
      refine .inr ⟨seek + offset, Nat.le_add_right _ _, here.1, here.2, ?_, ?_⟩
      · intro earlier later before occurs
        refine first (earlier - seek) (by omega) ?_
        rw [seen, Nat.add_sub_cancel' later]
        exact ⟨occurs, by omega⟩
      · by_cases quoted : Quoted stream (seek + offset)
        · refine .inl ⟨quoted, ?_⟩
          have odd : ¬ countQuotes (stream.take (seek + offset)) % 2 = 0 := by
            rw [Quoted] at quoted
            omega
          simp only [searchEnd, found, buffer, full, odd, if_false]
        · refine .inr ⟨⟨mem, here.1, positive, quoted⟩, ?_⟩
          have whole := here.1.take_append
          simp only [searchEnd, found, buffer, full, not_quoted_iff.mp quoted, whole, if_true,
            if_false]

end ExaProxy.Client
