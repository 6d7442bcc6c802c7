import ExaProxy.Dns.Pointers

namespace ExaProxy.Dns

open ExaProxy.Data

/-! What stands in a packet, told by its bytes alone: names up to the root or a pointer, the
places that pointers lead to, and questions and records one behind another. -/

/-- A name at the head of the data: its labels, the place that its pointer leads to if it ends
in one, and how many bytes it takes. -/
inductive Standing : Str → List Str → Option Nat → Nat → Prop where
  | root (rest : Str) : Standing (0 :: rest) [] none 1
  | pointer (high low : UInt8) (rest : Str) (marked : 0xc0 ≤ u8 high) :
      Standing (high :: low :: rest) [] (some (((u8 high - 0xc0) <<< 8) + u8 low)) 2
  | label (length : UInt8) (rest : Str) {labels : List Str} {next : Option Nat} {size : Nat}
      (nonzero : u8 length ≠ 0) (short : u8 length < 0xc0) (room : u8 length < rest.length)
      (later : Standing (rest.drop (u8 length)) labels next size) :
      Standing (length :: rest) (rest.take (u8 length) :: labels) next (u8 length + 1 + size)

/-- The labels at the head of the data come to the end of it. -/
inductive Stops : Str → Prop where
  | nil : Stops []
  | cut (length : UInt8) (rest : Str) (nonzero : u8 length ≠ 0) (short : u8 length < 0xc0)
      (little : rest.length ≤ u8 length) : Stops (length :: rest)
  | label (length : UInt8) (rest : Str) (nonzero : u8 length ≠ 0) (short : u8 length < 0xc0)
      (room : u8 length < rest.length) (later : Stops (rest.drop (u8 length))) : Stops (length :: rest)

/-- The labels at the head of the data lead to a pointer of which only the
first byte is there. -/
inductive BreaksOff : Str → Prop where
  | pointer (char : UInt8) (high : 0xc0 ≤ u8 char) : BreaksOff [char]
  | label (char : UInt8) (rest : Str) (short : u8 char < 0xc0) (nonzero : u8 char ≠ 0)
      (room : u8 char < rest.length) (later : BreaksOff (rest.drop (u8 char))) :
      BreaksOff (char :: rest)

/-- Pointers lead from `ptr` to another place, past labels of so many characters. -/
inductive Leads (packet : Str) (ptr : Nat) : Nat → Nat → Prop where
  | here : Leads packet ptr 0 ptr
  | hop {characters middle target size : Nat} {labels : List Str} (earlier : Leads packet ptr characters middle)
      (stands : Standing (packet.drop middle) labels (some target) size) :
      Leads packet ptr (characters + (joinDots labels).length) target

variable {packet data s : Str} {labels parts : List Str} {next : Option Nat}
  {size ptr target characters last fuel : Nat}

/-- What stands at the head of any data. -/
theorem standing_or (s : Str) : (∃ labels next size, Standing s labels next size) ∨ Stops s ∨ BreaksOff s := by
  induction length : s.length using Nat.strong_induction_on generalizing s with
  | _ length ih =>
      cases s with
      | nil => exact .inr (.inl .nil)
      | cons char rest =>
          by_cases marked : 0xc0 ≤ u8 char
          · cases rest with
            | nil => exact .inr (.inr (.pointer char marked))
            | cons low rest => exact .inl ⟨_, _, _, .pointer char low rest marked⟩
          · have short := Nat.lt_of_not_le marked
            by_cases nonzero : u8 char = 0
            · have zero : char = 0 := UInt8.toNat_inj.mp nonzero
              subst zero
              exact .inl ⟨_, _, _, .root rest⟩
            · by_cases room : u8 char < rest.length
              · rw [List.length_cons] at length
                rcases ih (rest.drop (u8 char)).length (by rw [List.length_drop]; omega) _ rfl with
                  ⟨labels, next, size, stands⟩ | stops | breaks
                · exact .inl ⟨_, _, _, .label char rest nonzero short room stands⟩
                · exact .inr (.inl (.label char rest nonzero short room stops))
                · exact .inr (.inr (.label char rest short nonzero room breaks))
              · exact .inr (.inl (.cut char rest nonzero short (Nat.le_of_not_lt room)))

theorem Standing.labels_filled (stands : Standing s labels next size) : ∀ label ∈ labels, label ≠ [] := by
  induction stands with
  | root => simp
  | pointer => simp
  | label length rest nonzero short room later ih =>
      refine List.forall_mem_cons.mpr ⟨fun empty => ?_, ih⟩
      rcases List.take_eq_nil_iff.mp empty with zero | none
      · exact nonzero zero
      · rw [none] at room
        exact Nat.not_lt_zero _ room

theorem Standing.joinDots_eq_nil (stands : Standing s labels next size) : joinDots labels = [] ↔ labels = [] :=
  Dns.joinDots_eq_nil stands.labels_filled

theorem remaining_label {remaining : Int} {char : UInt8} {rest : Str} (counted : remaining = (char :: rest).length)
    (room : u8 char < rest.length) : remaining - (u8 char + 1) = (rest.drop (u8 char)).length ∧
      ¬ remaining - (u8 char + 1) ≤ 0 := by
  rw [counted, List.length_cons, List.length_drop]
  omega

theorem Standing.loop (stands : Standing s labels next size) {remaining : Int} (counted : remaining = s.length)
    (bytesRead : Nat) (parts : List Str) :
    dnsStringLoop remaining bytesRead parts s = .ok (some (bytesRead + size), parts ++ labels, next) := by
  induction stands generalizing remaining bytesRead parts with
  | root rest =>
      rw [dnsStringLoop_zero (by rfl), List.append_nil]
  | pointer high low rest marked =>
      rw [dnsStringLoop.eq_def]
      simp only [ge_iff_le, marked, if_true, List.append_nil]
  | label length rest nonzero short room later ih =>
      obtain ⟨more, enough⟩ := remaining_label counted room
      rw [dnsStringLoop_label (Nat.not_le.mpr short) nonzero enough, ih more]
      simp only [List.append_assoc, List.singleton_append]
      congr 3
      omega

theorem Stops.loop (stops : Stops s) {remaining : Int} (counted : remaining = s.length) (bytesRead : Nat)
    (parts : List Str) : ∃ count, dnsStringLoop remaining bytesRead parts s = .ok (count, [], none) := by
  induction stops generalizing remaining bytesRead parts with
  | nil => exact ⟨some bytesRead, by rw [dnsStringLoop.eq_def]⟩
  | cut length rest nonzero short little =>
      have ended : remaining - (u8 length + 1) ≤ 0 := by
        rw [counted, List.length_cons]
        omega
      exact ⟨none, dnsStringLoop_cut (Nat.not_le.mpr short) nonzero ended⟩
  | label length rest nonzero short room later ih =>
      obtain ⟨more, enough⟩ := remaining_label counted room
      rw [dnsStringLoop_label (Nat.not_le.mpr short) nonzero enough]
      exact ih more _ _

theorem Standing.read (stands : Standing s labels next size) :
    dnsString s = .ok (some size, some (joinDots labels), next) := by
  simp only [dnsString, stands.loop rfl, bind, Except.bind, pure, Except.pure, Nat.zero_add, List.nil_append]

theorem Stops.read (stops : Stops s) : ∃ count, dnsString s = .ok (count, some [], none) := by
  obtain ⟨count, ends⟩ := stops.loop rfl 0 []
  exact ⟨count, by simp only [dnsString, ends, bind, Except.bind]; rfl⟩

theorem BreaksOff.read (breaks : BreaksOff s) : ∃ fault, dnsString s = .error fault := by
  have raises : ∀ {remaining : Int}, remaining = s.length → ∀ bytesRead parts,
      ∃ fault, dnsStringLoop remaining bytesRead parts s = .error fault := by
    induction breaks with
    | pointer char high =>
        intro remaining _ bytesRead parts
        refine ⟨.indexError, ?_⟩
        rw [dnsStringLoop.eq_def]
        simp only [ge_iff_le, high, if_true]
    | label char rest short nonzero room later ih =>
        intro remaining counted bytesRead parts
        obtain ⟨more, enough⟩ := remaining_label counted room
        rw [dnsStringLoop_label (Nat.not_le.mpr short) nonzero enough]
        exact ih more _ _
  obtain ⟨fault, raised⟩ := raises rfl 0 []
  exact ⟨fault, by simp only [dnsString, raised, bind, Except.bind]⟩

theorem Standing.not_breaksOff (stands : Standing s labels next size) : ¬ BreaksOff s := by
  intro breaks
  obtain ⟨fault, raised⟩ := breaks.read
  cases stands.read.symm.trans raised

theorem Standing.not_stops (stands : Standing s labels next size) : ¬ Stops s := by
  intro stops
  induction stands with
  | root => cases stops <;> contradiction
  | pointer high low rest marked => cases stops <;> omega
  | label length rest nonzero short room later ih =>
      cases stops with
      | cut length rest nonzero short little => exact Nat.not_lt.mpr little room
      | label length rest nonzero short room stops => exact ih stops

theorem Stops.not_breaksOff (stops : Stops s) : ¬ BreaksOff s := by
  intro breaks
  obtain ⟨fault, raised⟩ := breaks.read
  obtain ⟨count, read⟩ := stops.read
  cases read.symm.trans raised

theorem dnsString_breaksOff : BreaksOff s ↔ ∃ fault, dnsString s = .error fault := by
  refine ⟨BreaksOff.read, fun raised => ?_⟩
  obtain ⟨fault, raised⟩ := raised
  rcases standing_or s with ⟨labels, next, size, stands⟩ | stops | breaks
  · cases stands.read.symm.trans raised
  · obtain ⟨count, read⟩ := stops.read
    cases read.symm.trans raised
  · exact breaks

theorem dnsString_pointed {count : Option Nat} {name : Str} :
    dnsString s = .ok (count, some name, some target) ↔
      ∃ labels size, Standing s labels (some target) size ∧ count = some size ∧ name = joinDots labels := by
  constructor
  · intro read
    rcases standing_or s with ⟨labels, next, size, stands⟩ | stops | breaks
    · cases stands.read.symm.trans read
      exact ⟨labels, size, stands, rfl, rfl⟩
    · obtain ⟨_, ends⟩ := stops.read
      cases ends.symm.trans read
    · obtain ⟨fault, raised⟩ := breaks.read
      cases raised.symm.trans read
  · intro given
    obtain ⟨labels, size, stands, rfl, rfl⟩ := given
    exact stands.read

theorem leads_iff : Leads packet ptr characters last ↔ Chain packet ptr characters last := by
  constructor
  · intro leads
    induction leads with
    | here => exact .here
    | hop _ stands ih => exact ih.hop stands.read
  · intro chain
    induction chain with
    | here => exact .here
    | hop _ read ih =>
        obtain ⟨labels, size, stands, _, rfl⟩ := dnsString_pointed.mp read
        exact ih.hop stands

/-- The name at the head of the data can be read: neither it nor a name that
its pointers lead to within 500 characters breaks off, and they do not lead to
a circle. -/
def NameReadable (packet data : Str) : Prop :=
  ¬ BreaksOff data ∧ ∀ labels target size, Standing data labels (some target) size →
    ¬ BreaksOff (packet.drop target) ∧
    ∀ characters last, Leads packet target characters last → (joinDots labels).length + characters ≤ 500 →
      ¬ BreaksOff (packet.drop last) ∧ ¬ Circular packet last

/-- There are labels, here or behind the pointer, and at no time more than 500 characters of them. -/
structure Collected (packet : Str) (labels : List Str) (target : Nat) : Prop where
  within : ∀ characters last, Leads packet target characters last → (joinDots labels).length + characters ≤ 500
  ended : ∀ characters last more size, Leads packet target characters last →
    Standing (packet.drop last) more none size →
      (joinDots labels).length + characters + (joinDots more).length ≤ 500
  labelled : labels ≠ [] ∨ ∃ characters last, Leads packet target characters last ∧
    (0 < characters ∨ ∃ more size, Standing (packet.drop last) more none size ∧ more ≠ [])

/-- The data start with a name that is not empty, which takes so many bytes of them. -/
def Named (packet data : Str) (size : Nat) : Prop :=
  ∃ labels next, Standing data labels next size ∧
    ((next = none ∧ labels ≠ []) ∨ ∃ target, next = some target ∧ Collected packet labels target)

theorem Standing.unique {others : List Str} {other : Option Nat} {size' : Nat} (stands : Standing s labels next size)
    (again : Standing s others other size') : labels = others ∧ next = other ∧ size = size' := by
  have first := stands.loop rfl 0 []
  rw [again.loop rfl 0 []] at first
  simp only [Except.ok.injEq, Prod.mk.injEq, Option.some.injEq, Nat.zero_add, List.nil_append] at first
  exact ⟨first.2.1.symm, first.2.2.symm, first.1.symm⟩

end ExaProxy.Dns
