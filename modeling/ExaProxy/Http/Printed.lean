import ExaProxy.Data.Grouping
import ExaProxy.Http.Hop
import ExaProxy.Http.Lines

namespace ExaProxy.Http

open ExaProxy.Data
open ExaProxy.Data.Grouping

namespace Headers

/-- The header that a line belongs to, after one of `key` whose quotes may be open. -/
def owner (key : Str) (quoted : Bool) (line : Str) : Option Str :=
  if quoted then some key
  else if line = [] then none
  else if Str.isSpace (line.headD 0) then some key
  else (Str.splitOnce (ascii ":") line).map fun (name, _) => Str.lower (Str.strip name)

/-- Whether quotes are open after the line. -/
def opens (quoted : Bool) (line : Str) : Bool := xor quoted (decide (countQuotes line % 2 = 1))

/-- The lines before the first empty one that is in no quotes. -/
def headLines : Bool → List Str → List Str
  | _, [] => []
  | quoted, line :: rest =>
      if quoted = false ∧ line = [] then [] else line :: headLines (opens quoted line) rest

/-- Lines with the names of their headers, as the loop of `parse` comes to them. -/
inductive Filed : Str → Bool → List (Str × Str) → Str → Bool → Prop
  | nil {key : Str} {quoted : Bool} : Filed key quoted [] key quoted
  | cons {key name last line : Str} {quoted final : Bool} {pairs : List (Str × Str)}
      (owned : owner key quoted line = some name) (rest : Filed name (opens quoted line) pairs last final) :
      Filed key quoted ((name, line) :: pairs) last final

/-- The headers that hold these lines. -/
def ofPairs (pairs : List (Str × Str)) : Headers :=
  pairs.foldl (fun headers pair => headers.extend pair.1 pair.2) {}

variable {headers after : Headers} {key name last line : Str} {quoted final : Bool}
  {pairs more : List (Str × Str)} {lines : List Str}

theorem owner_blank (key : Str) : owner key false [] = none := rfl

theorem owner_quoted (key line : Str) : owner key true line = some key := rfl

theorem owner_spaced (nonempty : line ≠ []) (spaced : Str.isSpace (line.headD 0) = true) (key : Str) :
    owner key false line = some key := by
  simp only [owner, nonempty, spaced, Bool.false_eq_true, if_false, if_true]

/-- A line that starts with a space belongs to the header before it, and any other
one to the same header everywhere. -/
theorem owner_cases (owned : owner key false line = some name) :
    (name = key ∧ ∀ start, owner start false line = some start) ∨
      ∀ start, owner start false line = some name := by
  by_cases blank : line = []
  · rw [blank, owner_blank] at owned
    cases owned
  · by_cases spaced : Str.isSpace (line.headD 0) = true
    · have carried := owner_spaced blank spaced
      exact .inl ⟨Option.some.inj (owned.symm.trans (carried key)), carried⟩
    · have named : ∀ start, owner start false line = owner key false line := fun start => by
        simp only [owner, blank, spaced, Bool.false_eq_true, if_false]
      exact .inr fun start => (named start).trans owned

theorem owner_other (owned : owner key false line = some name) (other : name ≠ key) (start : Str) :
    owner start false line = some name :=
  (owner_cases owned).elim (fun carried => absurd carried.1 other) fun named => named start

theorem owner_self (owned : owner key false line = some name) : owner name false line = some name :=
  (owner_cases owned).elim (fun carried => carried.2 name) fun named => named name

theorem parseLines_cons (line : Str) (rest : List Str) (key : Str) (quoted : Bool) (headers : Headers) :
    parseLines (line :: rest) key quoted headers =
      let line := Str.stripChars (ascii "\r") line
      if quoted = false ∧ line = [] then .ok (false, headers)
      else match owner key quoted line with
        | some name => parseLines rest name (opens quoted line) (headers.extend name line)
        | none => .error .problem := by
  simp only [parseLines, owner, opens]
  generalize Str.stripChars (ascii "\r") line = line
  cases quoted with
  | true => simp
  | false =>
      by_cases blank : line = []
      · simp [blank]
      · by_cases spaced : Str.isSpace (line.headD 0) = true
        · simp only [Bool.false_eq_true, if_false, blank, and_false, spaced, if_true, Bool.false_xor]
        · simp only [Bool.false_eq_true, if_false, blank, and_false, spaced, Bool.false_xor]
          cases Str.splitOnce (ascii ":") line with
          | none => rfl
          | some parts => rfl

/-- The loop of `parse` files the lines before the empty one. -/
theorem parseLines_ok_iff {source : List Str} :
    parseLines source key quoted headers = .ok (final, after) ↔
      ∃ pairs last, pairs.map Prod.snd = headLines quoted (source.map (Str.stripChars (ascii "\r"))) ∧
        Filed key quoted pairs last final ∧
        after = pairs.foldl (fun headers pair => headers.extend pair.1 pair.2) headers := by
  induction source generalizing key quoted headers with
  | nil =>
      constructor
      · intro ok
        cases ok
        exact ⟨[], key, rfl, .nil, rfl⟩
      · intro given
        obtain ⟨pairs, last, all, filed, rfl⟩ := given
        rw [List.map_eq_nil_iff.mp all] at filed ⊢
        cases filed
        rfl
  | cons line rest ih =>
      rw [parseLines_cons, List.map_cons, headLines]
      generalize Str.stripChars (ascii "\r") line = line
      by_cases ended : quoted = false ∧ line = []
      · simp only [if_pos ended, List.map_eq_nil_iff]
        constructor
        · intro ok
          cases ok
          exact ⟨[], key, rfl, ended.1 ▸ .nil, rfl⟩
        · intro given
          obtain ⟨pairs, last, rfl, filed, rfl⟩ := given
          cases filed
          rw [ended.1]
      · simp only [if_neg ended]
        constructor
        · intro ok
          cases owned : owner key quoted line with
          | none =>
              rw [owned] at ok
              cases ok
          | some name =>
              rw [owned] at ok
              obtain ⟨pairs, last, all, filed, rfl⟩ := ih.mp ok
              exact ⟨(name, line) :: pairs, last, by rw [List.map_cons, all], .cons owned filed, rfl⟩
        · intro given
          obtain ⟨pairs, last, all, filed, rfl⟩ := given
          cases filed with
          | nil => cases all
          | cons owned filed =>
              obtain ⟨rfl, all⟩ := List.cons.inj all
              rw [owned]
              exact ih.mpr ⟨_, last, all, filed, rfl⟩

namespace Filed

theorem append (first : Filed key quoted pairs name final) {end_ : Bool}
    (second : Filed name final more last end_) : Filed key quoted (pairs ++ more) last end_ := by
  induction first with
  | nil => exact second
  | cons owned _ ih => exact .cons owned (ih second)

theorem concat (first : Filed key quoted pairs last final) (owned : owner last final line = some name) :
    Filed key quoted (pairs ++ [(name, line)]) name (opens final line) :=
  first.append (.cons owned .nil)

theorem concat_inv {pair : Str × Str} (filed : Filed key quoted (pairs ++ [pair]) last final) :
    ∃ before open_, Filed key quoted pairs before open_ ∧ owner before open_ pair.2 = some pair.1 ∧
      last = pair.1 ∧ final = opens open_ pair.2 := by
  induction pairs generalizing key quoted with
  | nil =>
      cases filed with
      | cons owned rest =>
          cases rest
          exact ⟨key, quoted, .nil, owned, rfl, rfl⟩
  | cons head pairs ih =>
      cases filed with
      | cons owned rest =>
          obtain ⟨before, open_, filed, others⟩ := ih rest
          exact ⟨before, open_, .cons owned filed, others⟩

theorem headLines_eq (filed : Filed key quoted pairs last final) :
    headLines quoted (pairs.map Prod.snd) = pairs.map Prod.snd := by
  induction filed with
  | nil => rfl
  | @cons key name last line quoted final pairs owned _ ih =>
      have kept : ¬ (quoted = false ∧ line = []) := by
        intro given
        obtain ⟨rfl, rfl⟩ := given
        rw [owner_blank] at owned
        cases owned
      rw [List.map_cons, headLines, if_neg kept, ih]

theorem last_mem (filed : Filed key quoted pairs last final) : pairs = [] ∧ last = key ∧ final = quoted ∨
    last ∈ names pairs := by
  induction pairs using List.reverseRecOn with
  | nil =>
      cases filed
      exact .inl ⟨rfl, rfl, rfl⟩
  | append_singleton pairs pair =>
      obtain ⟨before, open_, _, _, rfl, _⟩ := filed.concat_inv
      exact .inr (mem_names.mpr ⟨pair, by simp, rfl⟩)

/-- The lines of a name are filed under it without the others as well.  Quotes that
are open are those of the name that is read last. -/
theorem group (filed : Filed [] false pairs last final) (named : [] ∉ names pairs) (member : name ∈ names pairs) :
    ∀ start, Filed start false (group name pairs) name (final && decide (last = name)) := by
  induction pairs using List.reverseRecOn generalizing last final name with
  | nil => simp [names] at member
  | append_singleton pairs pair ih =>
      obtain ⟨before, open_, shorter, owned, rfl, rfl⟩ := filed.concat_inv
      rw [names_concat, mem_addName] at named member
      obtain ⟨named, filled⟩ := not_or.mp named
      have known : open_ = true → pair.1 = before ∧ before ∈ names pairs := by
        intro given
        subst given
        rw [owner_quoted] at owned
        rcases shorter.last_mem with ⟨_, _, opened⟩ | known
        · cases opened
        · exact ⟨(Option.some.inj owned).symm, known⟩
      intro start
      rw [group_concat]
      by_cases same : pair.1 = name
      · subst same
        rw [if_pos rfl, decide_eq_true rfl, Bool.and_true]
        by_cases earlier : pair.1 ∈ names pairs
        · have grouped := ih shorter named earlier start
          cases open_ with
          | true =>
              obtain ⟨current, _⟩ := known rfl
              rw [decide_eq_true current.symm, Bool.and_true] at grouped
              exact grouped.concat (owner_quoted _ _)
          | false =>
              rw [Bool.false_and] at grouped
              exact grouped.concat (owner_self owned)
        · have first : Grouping.group pair.1 pairs = [] := not_not.mp (mt group_ne_nil.mp earlier)
          have closed : open_ = false := by
            by_contra opened
            obtain ⟨current, among⟩ := known (Bool.not_eq_false _ ▸ opened)
            exact earlier (current ▸ among)
          subst closed
          have other : pair.1 ≠ before := by
            rintro same
            rcases shorter.last_mem with ⟨_, first, _⟩ | among
            · exact filled (same.trans first).symm
            · exact earlier (same ▸ among)
          rw [first]
          exact .cons (owner_other owned other start) .nil
      · rw [if_neg same, decide_eq_false same, Bool.and_false]
        have grouped := ih shorter named (member.resolve_right fun last => same last.symm) start
        cases open_ with
        | true =>
            obtain ⟨current, _⟩ := known rfl
            rwa [decide_eq_false (current ▸ same), Bool.and_false] at grouped
        | false => rwa [Bool.false_and] at grouped

/-- Lines may be filed header by header, if no quotes are left open at the end. -/
theorem regroup (filed : Filed [] false pairs last false) (named : [] ∉ names pairs) :
    ∃ last, Filed [] false (regroup pairs) last false := by
  have each : ∀ name ∈ names pairs, ∀ start, Filed start false (Grouping.group name pairs) name false :=
    fun name member => filed.group named member
  unfold Grouping.regroup
  generalize ([] : Str) = start
  generalize names pairs = order at each
  induction order generalizing start with
  | nil => exact ⟨start, .nil⟩
  | cons name order ih =>
      obtain ⟨first, others⟩ := List.forall_mem_cons.mp each
      obtain ⟨last, later⟩ := ih name others
      exact ⟨last, (first start).append later⟩

end Filed

theorem ofPairs_concat (pairs : List (Str × Str)) (pair : Str × Str) :
    ofPairs (pairs ++ [pair]) = (ofPairs pairs).extend pair.1 pair.2 := by
  simp [ofPairs]

theorem ofPairs_order (pairs : List (Str × Str)) : (ofPairs pairs).order = names pairs := by
  induction pairs using List.reverseRecOn with
  | nil => rfl
  | append_singleton pairs pair ih =>
      rw [ofPairs_concat, extend, order_enter, names_concat, ih, addName]
      congr

theorem mem_ofPairs : name ∈ (ofPairs pairs).data ↔ name ∈ names pairs := by
  induction pairs using List.reverseRecOn with
  | nil => simp [ofPairs, names]
  | append_singleton pairs pair ih =>
      rw [ofPairs_concat, extend, mem_enter, names_concat, mem_addName, ih, or_comm]

theorem ofPairs_get (pairs : List (Str × Str)) (name : Str) :
    (ofPairs pairs).get name = (group name pairs).map Prod.snd := by
  induction pairs using List.reverseRecOn with
  | nil => rfl
  | append_singleton pairs pair ih =>
      have listed : (ofPairs pairs).Listed := fun key member => by
        rwa [ofPairs_order, ← mem_ofPairs]
      rw [ofPairs_concat, listed.get_extend, group_concat]
      by_cases same : name = pair.1
      · rw [if_pos same, if_pos same.symm, ← same, ih, List.map_append]
        rfl
      · rw [if_neg same, if_neg (Ne.symm same), ih]

theorem ofPairs_filled (pairs : List (Str × Str)) :
    ∀ name ∈ (ofPairs pairs).order, (ofPairs pairs).get name ≠ [] := by
  intro name member
  rw [ofPairs_order] at member
  rw [ofPairs_get, ne_eq, List.map_eq_nil_iff]
  exact group_ne_nil.mpr member

theorem ofPairs_printed (pairs : List (Str × Str)) :
    (ofPairs pairs).printed = (regroup pairs).map Prod.snd := by
  rw [printed, regroup, List.map_flatMap, ofPairs_order]
  exact List.flatMap_congr fun name _ => ofPairs_get pairs name

theorem headLines_starts (quoted : Bool) (lines : List Str) : headLines quoted lines <+: lines := by
  induction lines generalizing quoted with
  | nil => exact List.prefix_refl _
  | cons line rest ih =>
      rw [headLines]
      split
      · exact List.nil_prefix
      · exact List.cons_prefix_cons.mpr ⟨rfl, ih _⟩

theorem stripChars_idem (chars s : Str) :
    Str.stripChars chars (Str.stripChars chars s) = Str.stripChars chars s := by
  have none : Str.stripChars chars (Str.stripChars chars s ++ []) = _ := Str.stripOf_append (by simp) s
  rwa [List.append_nil] at none

/-- A line as the loop of `parse` looks at it. -/
def Trimmed (line : Str) : Prop := 10 ∉ line ∧ Str.stripChars (ascii "\r") line = line

theorem linesOf_trimmed {text : Str} (member : line ∈ linesOf text) : Trimmed line := by
  obtain ⟨part, among, rfl⟩ := List.mem_map.mp member
  exact ⟨fun inside => Str.splitOn_part among (Str.stripOf_mem inside), stripChars_idem _ _⟩

theorem join_concat (separator : Str) (lines : List Str) (last : Str) :
    Str.join separator (lines ++ [last]) = terminated separator lines ++ last := by
  have all := join_terminated separator (List.concat_ne_nil last lines)
  rw [terminated_append, terminated, terminated, List.flatMap_singleton, ← List.append_assoc] at all
  exact List.append_cancel_right all

/-- Lines that are joined are read again, whatever stands of CR before their ends. -/
theorem linesOf_join {ending : Str} (returns : ∀ byte ∈ ending, byte = 13)
    (trimmed : ∀ line ∈ lines, Trimmed line) (nonempty : lines ≠ []) :
    linesOf (Str.join (ending ++ [10]) lines) = lines := by
  obtain ⟨lines, last, rfl⟩ : ∃ start last, lines = start ++ [last] :=
    ⟨_, _, (List.dropLast_append_getLast nonempty).symm⟩
  have plain : 10 ∉ ending := fun member => absurd (returns 10 member) (by decide)
  have clean : ∀ line ∈ lines, 10 ∉ line := fun line member =>
    (trimmed line (List.mem_append_left _ member)).1
  obtain ⟨single, stripped⟩ := trimmed last (by simp)
  rw [linesOf, join_concat, splitOn_terminated plain clean, List.splitOn_eq_singleton single, List.map_append,
    List.map_singleton, stripped, List.map_map]
  congr 1
  conv_rhs => rw [← List.map_id lines]
  refine List.map_congr_left fun line member => ?_
  have own := (trimmed line (List.mem_append_left _ member)).2
  have dropped : Str.stripChars (ascii "\r") (Str.stripChars (ascii "\r") line ++ ending) = _ :=
    Str.stripOf_append (fun byte member => by rw [returns byte member]; rfl) line
  rw [own] at dropped
  exact dropped.trans own

theorem toStr_printed (separator : Str) (filled : ∀ name ∈ headers.order, headers.get name ≠ [])
    (nonempty : headers.order ≠ []) : headers.toStr separator = Str.join separator headers.printed := by
  have some : headers.printed ≠ [] := by
    obtain ⟨name, member⟩ := List.exists_mem_of_ne_nil _ nonempty
    rw [printed, ne_eq, List.flatMap_eq_nil_iff]
    exact fun none => filled name member (none name member)
  have text := toStr_body separator filled
  rw [body, if_neg nonempty, ← join_terminated separator some] at text
  exact List.append_cancel_right text

/-- The headers hold the lines of a text, each under the header that it belongs to. -/
structure Holds (headers : Headers) (pairs : List (Str × Str)) (text : Str) : Prop where
  lines : pairs.map Prod.snd = headLines false (linesOf text)
  filed : ∃ last, Filed [] false pairs last false
  order : headers.order = names pairs
  get : ∀ name, headers.get name = (group name pairs).map Prod.snd

variable {text httpVersion separator : Str} {expect : Bool}

theorem read_iff : Read text headers ↔ ∃ pairs last, pairs.map Prod.snd = headLines false (linesOf text) ∧
    Filed [] false pairs last false ∧ headers = ofPairs pairs :=
  parseLines_ok_iff

theorem Filed.first (filed : Filed [] false ((name, line) :: pairs) last final) (named : name ≠ []) :
    line ≠ [] ∧ Str.isSpace (line.headD 0) = false := by
  cases filed with
  | cons owned _ =>
      have nonempty : line ≠ [] := by
        intro same
        subst same
        cases owned
      refine ⟨nonempty, Bool.eq_false_iff.mpr fun spaced => ?_⟩
      rw [owner_spaced nonempty spaced] at owned
      exact named (Option.some.inj owned).symm

theorem headD_join (separator : Str) (nonempty : line ≠ []) (lines : List Str) :
    (Str.join separator (line :: lines)).headD 0 = line.headD 0 := by
  obtain ⟨byte, rest, rfl⟩ := List.exists_cons_of_ne_nil nonempty
  cases lines with
  | nil => simp [Str.join]
  | cons next lines => simp [Str.join, List.intercalate_cons_cons]

theorem parse_join {ending : Str} (returns : ∀ byte ∈ ending, byte = 13)
    (trimmed : ∀ pair ∈ pairs, Trimmed pair.2) (filed : Filed [] false pairs last false)
    (named : [] ∉ names pairs) :
    parse httpVersion expect true (Str.join (ending ++ [10]) (pairs.map Prod.snd)) = .ok (ofPairs pairs) := by
  cases pairs with
  | nil => rfl
  | cons pair pairs =>
      have own : pair.1 ≠ [] := fun empty => named (mem_names.mpr ⟨pair, List.mem_cons_self, empty⟩)
      obtain ⟨nonempty, unspaced⟩ := filed.first own
      apply parse_transparent
      · intro given
        obtain ⟨_, spaced⟩ := given
        rw [List.map_cons, headD_join _ nonempty, unspaced] at spaced
        cases spaced
      · refine read_iff.mpr ⟨_, last, ?_, filed, rfl⟩
        rw [linesOf_join returns (List.forall_mem_map.mpr trimmed) (by simp), filed.headLines_eq]
      · rwa [mem_ofPairs]

/-- The headers of a text that is accepted are its lines, header by header, and they
are read again from what is printed of them. -/
theorem parse_printed (accepted : parse httpVersion expect true text = .ok headers)
    (ends : separator = ascii "\r\n" ∨ separator = ascii "\n") :
    ∃ pairs, headers.Holds pairs text ∧ headers.printed = (regroup pairs).map Prod.snd ∧
      headers.printed.Perm (headLines false (linesOf text)) ∧
      (headers.printed ≠ [] → linesOf (headers.toStr separator) = headers.printed) ∧
      ∃ again, parse httpVersion expect true (headers.toStr separator) = .ok again ∧
        again.order = headers.order ∧ ∀ name, again.get name = headers.get name := by
  obtain ⟨_, read, reads, same, unnamed⟩ := parse_read accepted
  cases same
  obtain ⟨pairs, last, lines, filed, rfl⟩ := read_iff.mp reads
  rw [mem_ofPairs] at unnamed
  obtain ⟨ending, returns, rfl⟩ : ∃ ending : Str, (∀ byte ∈ ending, byte = 13) ∧ separator = ending ++ [10] := by
    rcases ends with rfl | rfl
    · exact ⟨[13], by simp, rfl⟩
    · exact ⟨[], by simp, rfl⟩
  have perm := (regroup_perm pairs).map Prod.snd
  have trimmed : ∀ pair ∈ regroup pairs, Trimmed pair.2 := by
    intro pair member
    have among := List.mem_map_of_mem (f := Prod.snd) ((regroup_perm pairs).mem_iff.mp member)
    rw [lines] at among
    exact linesOf_trimmed ((headLines_starts _ _).subset among)
  have joined : (ofPairs pairs).toStr (ending ++ [10]) =
      Str.join (ending ++ [10]) ((regroup pairs).map Prod.snd) := by
    by_cases empty : pairs = []
    · subst empty
      rfl
    · rw [toStr_printed _ (ofPairs_filled pairs), ofPairs_printed]
      rw [ofPairs_order]
      obtain ⟨pair, member⟩ := List.exists_mem_of_ne_nil _ empty
      exact List.ne_nil_of_mem (mem_names.mpr ⟨pair, member, rfl⟩)
  obtain ⟨final, regrouped⟩ := filed.regroup unnamed
  refine ⟨pairs, ⟨lines, ⟨last, filed⟩, ofPairs_order pairs, ofPairs_get pairs⟩, ofPairs_printed pairs,
    by rwa [ofPairs_printed, ← lines], ?_, ofPairs (regroup pairs), ?_, ?_, ?_⟩
  · intro some
    rw [ofPairs_printed] at some ⊢
    rw [joined, linesOf_join returns (List.forall_mem_map.mpr trimmed) some]
  · rw [joined]
    exact parse_join returns trimmed regrouped (by rwa [names_regroup])
  · rw [ofPairs_order, ofPairs_order, names_regroup]
  · intro name
    rw [ofPairs_get, ofPairs_get, group_regroup]

/-- A header that comes twice, the second time with an empty line in its quotes and
a line that continues it. -/
def foldedText : Str := ascii "A: 1\r\nB: 2\r\na: \"\r\n\r\nx\"\r\n more\r\n\r\nrest"

theorem parse_foldedText : ∃ headers pairs, parse (ascii "1.1") true true foldedText = .ok headers ∧
    headers.Holds pairs foldedText ∧ headers.printed = (regroup pairs).map Prod.snd ∧
    headers.printed.Perm (headLines false (linesOf foldedText)) ∧
    (headers.printed ≠ [] → linesOf (headers.toStr (ascii "\r\n")) = headers.printed) ∧
    ∃ again, parse (ascii "1.1") true true (headers.toStr (ascii "\r\n")) = .ok again ∧
      again.order = headers.order ∧ ∀ name, again.get name = headers.get name := by
  have parsed : (parse (ascii "1.1") true true foldedText).map (·.order) = .ok [ascii "a", ascii "b"] := by
    decide +kernel
  obtain ⟨headers, accepted, _⟩ := map_ok parsed
  obtain ⟨pairs, all⟩ := parse_printed accepted (.inl rfl)
  exact ⟨headers, pairs, accepted, all⟩

end Headers

end ExaProxy.Http
