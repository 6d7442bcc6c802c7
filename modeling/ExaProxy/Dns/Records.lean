import ExaProxy.Dns.Codec
import ExaProxy.Dns.Wire

namespace ExaProxy.Dns

open ExaProxy.Data

/-- The number in two bytes of the data. -/
def word (data : Str) (place : Nat) : Nat :=
  u8 (data.getD place 0) * 256 + u8 (data.getD (place + 1) 0)

/-- A question at the head of the data, and how many bytes it takes: a name, a type and a class. -/
def QuestionAt (named : Str → Nat → Prop) (data : Str) (size : Nat) : Prop :=
  ∃ name, named data name ∧ name + 4 ≤ data.length ∧ size = name + 4

/-- A record at the head of the data, how many bytes it takes, its type and its own data, which are
as many as the last two of the ten bytes behind the owner name tell. -/
def RecordAt (owned : Str → Nat → Prop) (data : Str) (size querytype : Nat) (rdata : Str) : Prop :=
  ∃ owner, owned data owner ∧ owner + 10 + word (data.drop owner) 8 ≤ data.length ∧
    size = owner + (10 + word (data.drop owner) 8) ∧ querytype = word (data.drop owner) 0 ∧
    rdata = Str.slice (data.drop owner) 10 (10 + word (data.drop owner) 8)

/-- So many entries stand one behind another, and leave `rest`. -/
inductive Row (entry : Str → Nat → Prop) : Nat → Str → Str → Prop where
  | nil (data : Str) : Row entry 0 data data
  | cons {data rest : Str} {size count : Nat} (first : entry data size)
      (later : Row entry count (data.drop size) rest) : Row entry (count + 1) data rest

/-- The entries that the header announces, section behind section. -/
def Announced (question record : Str → Nat → Prop) (packet : Str) : Prop :=
  ∃ answers authorities additionals rest, Row question (word packet 4) (packet.drop 12) answers ∧
    Row record (word packet 6) answers authorities ∧ Row record (word packet 8) authorities additionals ∧
    Row record (word packet 10) additionals rest

/-- The owner name of a record, as the decoder takes it: the root too. -/
def Owner (packet data : Str) (size : Nat) : Prop := (data.head? = some 0 ∧ size = 1) ∨ Named packet data size

/-- A record, as the decoder takes it. -/
def Taken (packet data : Str) (size : Nat) : Prop :=
  ∃ querytype rdata, RecordAt (Owner packet) data size querytype rdata

/-- The labels of a name up to the root, behind pointers too. -/
inductive Whole (packet : Str) : Str → List Str → Prop where
  | ended {data : Str} {labels : List Str} {size : Nat} (stands : Standing data labels none size) :
      Whole packet data labels
  | pointed {data : Str} {labels more : List Str} {target size : Nat}
      (stands : Standing data labels (some target) size) (later : Whole packet (packet.drop target) more) :
      Whole packet data (labels ++ more)

/-- A name as RFC 1035 wants it, and how many bytes it takes here: it goes on to the root, in labels of
at most 63 bytes, and is of at most 255 bytes in all. -/
def Proper (packet data : Str) (size : Nat) : Prop :=
  (∃ labels next, Standing data labels next size) ∧ ∃ labels, Whole packet data labels ∧
    (∀ label ∈ labels, label.length ≤ 63) ∧ (labels.map fun label => label.length + 1).sum + 1 ≤ 255

/-- Addresses are of their size. -/
def Sized (definitions : List Definition) (querytype : Nat) (rdata : Str) : Prop :=
  ∀ definition ∈ byvalue definitions querytype,
    (definition.querytype = .ipv4 → rdata.length = 4) ∧ (definition.querytype = .ipv6 → rdata.length = 16)

/-- Names fill the data that are to be names; in a SOA, the type 6, two names and five numbers do. -/
def Filled (definitions : List Definition) (packet : Str) (querytype : Nat) (rdata : Str) : Prop :=
  ∀ definition ∈ byvalue definitions querytype, definition.querytype = .string →
    if querytype = 6 then ∃ first second, Proper packet rdata first ∧ Proper packet (rdata.drop first) second ∧
      rdata.length = first + second + 20
    else Proper packet rdata rdata.length

/-- A record with a proper owner name, and data that suit its type. -/
def Sound (definitions : List Definition) (packet data : Str) (size : Nat) : Prop :=
  ∃ querytype rdata, RecordAt (Proper packet) data size querytype rdata ∧
    Sized definitions querytype rdata ∧ Filled definitions packet querytype rdata

/-- A message that is not malformed: its header is whole, and the questions and records announced are
there.  What follows them is not looked at. -/
def WellFormed (definitions : List Definition) (packet : Str) : Prop :=
  12 ≤ packet.length ∧ Announced (QuestionAt (Proper packet)) (Sound definitions packet) packet

/-- A response that is not marked as truncated, with something in it and all of it there for the decoder. -/
def Full (packet : Str) : Prop :=
  word packet 2 >>> 15 = 1 ∧ (word packet 2 >>> 9) &&& 1 = 0 ∧
    0 < word packet 4 + word packet 6 + word packet 8 + word packet 10 ∧
    Announced (QuestionAt (Named packet)) (Taken packet) packet

/-- Where all of a message is there for the decoder, its names are proper, and fill the data that
are to be names. -/
def Strict (definitions : List Definition) (packet : Str) : Prop :=
  Full packet → Announced
    (fun data size => QuestionAt (Named packet) data size ∧ ∃ name, Proper packet data name)
    (fun data size => Taken packet data size ∧ (∃ owner, Proper packet data owner) ∧
      ∀ querytype rdata, RecordAt (Owner packet) data size querytype rdata → Filled definitions packet querytype rdata)
    packet

/-- The entries that are come to are all of a kind: the next one is looked at where this one is there. -/
def Along (held : Str → Prop) (entry : Str → Nat → Prop) : Nat → Str → Prop
  | 0, _ => True
  | count + 1, data => held data ∧ ∀ size, entry data size → Along held entry count (data.drop size)

/-- The owner name of a resource can be read, and the ten bytes of its fixed part follow it. -/
def ResourceReadable (packet data : Str) : Prop :=
  (data.head? = some 0 ∨ NameReadable packet data) ∧ ∀ owner, Owner packet data owner → owner + 10 ≤ data.length

/-- The data of a record suit the conversion its type asks for. -/
def RdataReadable (definitions : List Definition) (packet : Str) (querytype : Nat) (rdata : Str) : Prop :=
  Sized definitions querytype rdata ∧
    ∀ definition ∈ byvalue definitions querytype, definition.querytype = .string → NameReadable packet rdata

/-- A section of resources: each record the decoder comes to is readable, and when all of them are complete
their data can be converted. -/
def SectionReadable (definitions : List Definition) (packet : Str) (count : Nat) (data : Str) : Prop :=
  Along (ResourceReadable packet) (Taken packet) count data ∧
    ∀ rest, Row (Taken packet) count data rest → Along (fun data => ∀ size querytype rdata,
      RecordAt (Owner packet) data size querytype rdata → RdataReadable definitions packet querytype rdata)
      (Taken packet) count data

/-- Sections that follow each other: a section is looked at where the one before it is complete. -/
def SectionsReadable (definitions : List Definition) (packet : Str) : List Nat → Str → Prop
  | [], _ => True
  | count :: later, data => SectionReadable definitions packet count data ∧
      ∀ rest, Row (Taken packet) count data rest → SectionsReadable definitions packet later rest

/-- A message the decoder survives: it is empty, or its header is whole and, where it is a response,
everything the header announces can be read as far as the decoder looks at it. -/
def Survives (definitions : List Definition) (packet : Str) : Prop :=
  packet ≠ [] → 12 ≤ packet.length ∧ (word packet 2 >>> 15 = 1 →
    Along (NameReadable packet) (QuestionAt (Named packet)) (word packet 4) (packet.drop 12) ∧
      ∀ rest, Row (QuestionAt (Named packet)) (word packet 4) (packet.drop 12) rest →
        SectionsReadable definitions packet [word packet 6, word packet 8, word packet 10] rest)

variable {definitions : List Definition} {packet data rest last rdata : Str} {count size other querytype : Nat}

section Rows

variable {entry finer : Str → Nat → Prop} {held found : Str → Prop}

theorem Row.mono (each : ∀ data size, entry data size → finer data size) (row : Row entry count data rest) :
    Row finer count data rest := by
  induction row with
  | nil data => exact .nil data
  | cons first _ ih => exact .cons (each _ _ first) ih

/-- Two ways to look at the same row. -/
theorem Row.both (agree : ∀ data size other, entry data size → finer data other → size = other)
    (row : Row entry count data rest) (again : Row finer count data last) :
    last = rest ∧ Row (fun data size => entry data size ∧ finer data size) count data rest := by
  induction row with
  | nil data =>
      cases again
      exact ⟨rfl, .nil _⟩
  | cons first _ ih =>
      cases again with
      | cons second later =>
          cases agree _ _ _ first second
          obtain ⟨same, both⟩ := ih later
          exact ⟨same, .cons ⟨first, second⟩ both⟩

theorem Row.along (row : Row entry count data rest) (along : Along held entry count data) :
    Row (fun data size => entry data size ∧ held data) count data rest := by
  induction row with
  | nil data => exact .nil data
  | cons first _ ih => exact .cons ⟨first, along.1⟩ (ih (along.2 _ first))

theorem along_congr {left right : Str → Nat → Prop}
    (entries : ∀ data, held data → ∀ size, left data size ↔ right data size) :
    Along held left count data ↔ Along held right count data := by
  induction count generalizing data with
  | zero => exact Iff.rfl
  | succ count ih =>
      refine and_congr_right fun readable => forall_congr' fun size => ?_
      rw [entries data readable size, ih]

theorem row_congr {left right : Str → Nat → Prop}
    (entries : ∀ data, held data → ∀ size, left data size ↔ right data size)
    (along : Along held left count data) : Row left count data rest ↔ Row right count data rest := by
  constructor
  · intro row
    exact (row.along along).mono fun data size given => (entries data given.2 size).mp given.1
  · intro row
    exact (row.along ((along_congr entries).mp along)).mono fun data size given =>
      (entries data given.2 size).mpr given.1

/-- What is found along the entries that can be read, when entries and findings are told in two ways. -/
theorem along_of_along {left right : Str → Nat → Prop} {told : Str → Prop}
    (entries : ∀ data, held data → ∀ size, left data size ↔ right data size)
    (each : ∀ data, held data → (found data ↔ told data)) (along : Along held left count data) :
    Along found left count data ↔ Along told right count data := by
  induction count generalizing data with
  | zero => exact Iff.rfl
  | succ count ih =>
      refine and_congr (each data along.1) (forall_congr' fun size => ?_)
      rw [← entries data along.1 size]
      exact imp_congr_right fun first => ih (along.2 size first)

end Rows

section Sizes

theorem owner_proper (owner : Owner packet data size) (proper : Proper packet data other) : size = other := by
  obtain ⟨⟨labels, next, stands⟩, _⟩ := proper
  rcases owner with ⟨root, rfl⟩ | ⟨labels', next', again, _⟩
  · cases stands with
    | root rest => rfl
    | pointer high low rest marked =>
        cases root
        exact absurd marked (by decide)
    | label length rest nonzero short room later =>
        cases root
        exact absurd rfl nonzero
  · exact (again.unique stands).2.2

theorem named_proper (named : Named packet data size) (proper : Proper packet data other) : size = other :=
  owner_proper (.inr named) proper

theorem owner_unique (first : Owner packet data size) (second : Owner packet data other) : size = other := by
  have bare : ∀ {rest : Str} {size : Nat}, ¬ Named packet (0 :: rest) size := by
    intro rest size named
    obtain ⟨labels, next, stands, shape⟩ := named
    obtain ⟨rfl, rfl, _⟩ := stands.unique (.root rest)
    simp at shape
  have headed : ∀ {size : Nat}, data.head? = some 0 → ¬ Named packet data size := by
    intro size root
    cases data with
    | nil => cases root
    | cons char rest =>
        cases root
        exact bare
  rcases first with ⟨root, rfl⟩ | named
  · rcases second with ⟨_, rfl⟩ | again
    · rfl
    · exact absurd again (headed root)
  · rcases second with ⟨root, _⟩ | again
    · exact absurd named (headed root)
    · obtain ⟨_, _, stands, _⟩ := named
      obtain ⟨_, _, others, _⟩ := again
      exact (stands.unique others).2.2

theorem QuestionAt.agree {named finer : Str → Nat → Prop}
    (agree : ∀ data size other, named data size → finer data other → size = other)
    (question : QuestionAt named data size) (again : QuestionAt finer data other) : size = other := by
  obtain ⟨name, first, _, rfl⟩ := question
  obtain ⟨name', second, _, rfl⟩ := again
  rw [agree _ _ _ first second]

theorem RecordAt.agree {owned finer : Str → Nat → Prop} {type' : Nat} {rdata' : Str}
    (agree : ∀ data size other, owned data size → finer data other → size = other)
    (record : RecordAt owned data size querytype rdata) (again : RecordAt finer data other type' rdata') :
    size = other ∧ querytype = type' ∧ rdata = rdata' := by
  obtain ⟨owner, first, _, rfl, rfl, rfl⟩ := record
  obtain ⟨owner', second, _, rfl, rfl, rfl⟩ := again
  rw [agree _ _ _ first second]
  exact ⟨rfl, rfl, rfl⟩

theorem question_unique (first : QuestionAt (Named packet) data size)
    (second : QuestionAt (Named packet) data other) : size = other :=
  first.agree (fun _ _ _ named again => owner_unique (.inr named) (.inr again)) second

theorem taken_unique (first : Taken packet data size) (second : Taken packet data other) : size = other := by
  obtain ⟨_, _, record⟩ := first
  obtain ⟨_, _, again⟩ := second
  exact (record.agree (fun _ _ _ => owner_unique) again).1

end Sizes

/-! Messages that are there in full for the decoder, and those that are well formed. -/

section Strictness

/-- Rows of every section are taken together. -/
theorem Announced.both {question record asked found : Str → Nat → Prop}
    (questions : ∀ data size other, question data size → asked data other → size = other)
    (records : ∀ data size other, record data size → found data other → size = other)
    (announced : Announced question record packet) (again : Announced asked found packet) :
    Announced (fun data size => question data size ∧ asked data size)
      (fun data size => record data size ∧ found data size) packet := by
  obtain ⟨answers, authorities, additionals, rest, first, second, third, fourth⟩ := announced
  obtain ⟨_, _, _, _, first', second', third', fourth'⟩ := again
  obtain ⟨rfl, first⟩ := first.both questions first'
  obtain ⟨rfl, second⟩ := second.both records second'
  obtain ⟨rfl, third⟩ := third.both records third'
  obtain ⟨rfl, fourth⟩ := fourth.both records fourth'
  exact ⟨_, _, _, _, first, second, third, fourth⟩

theorem Announced.mono {question record asked found : Str → Nat → Prop}
    (questions : ∀ data size, question data size → asked data size)
    (records : ∀ data size, record data size → found data size) (announced : Announced question record packet) :
    Announced asked found packet := by
  obtain ⟨answers, authorities, additionals, rest, first, second, third, fourth⟩ := announced
  exact ⟨answers, authorities, additionals, rest, first.mono questions, second.mono records, third.mono records,
    fourth.mono records⟩

theorem SectionReadable.sized (readable : SectionReadable definitions packet count data)
    (row : Row (Taken packet) count data rest) : Row (fun data size => Taken packet data size ∧
      ∀ querytype rdata, RecordAt (Owner packet) data size querytype rdata → Sized definitions querytype rdata)
      count data rest := by
  refine (row.along (readable.2 rest row)).mono fun data size given => ⟨given.1, fun querytype rdata record => ?_⟩
  exact (given.2 size querytype rdata record).1

/-- In a message that the decoder survives and takes in full the addresses are of their size. -/
theorem Full.sized (survives : Survives definitions packet) (full : Full packet) :
    Announced (QuestionAt (Named packet)) (fun data size => Taken packet data size ∧
      ∀ querytype rdata, RecordAt (Owner packet) data size querytype rdata → Sized definitions querytype rdata)
      packet := by
  obtain ⟨response, _, _, answers, authorities, additionals, rest, first, second, third, fourth⟩ := full
  have filled : packet ≠ [] := by
    rintro rfl
    exact absurd response (by decide)
  have sections := ((survives filled).2 response).2 answers first
  simp only [SectionsReadable] at sections
  obtain ⟨one, sections⟩ := sections
  obtain ⟨two, sections⟩ := sections authorities second
  obtain ⟨three, _⟩ := sections additionals third
  exact ⟨answers, authorities, additionals, rest, first, one.sized second, two.sized third, three.sized fourth⟩

theorem sound_of_taken (taken : Taken packet data size)
    (sized : ∀ querytype rdata, RecordAt (Owner packet) data size querytype rdata → Sized definitions querytype rdata)
    (proper : ∃ owner, Proper packet data owner) (filled : ∀ querytype rdata,
      RecordAt (Owner packet) data size querytype rdata → Filled definitions packet querytype rdata) :
    Sound definitions packet data size := by
  obtain ⟨querytype, rdata, record⟩ := taken
  refine ⟨querytype, rdata, ?_, sized _ _ record, filled _ _ record⟩
  obtain ⟨owner, owned, room, counted⟩ := record
  obtain ⟨owner', proper⟩ := proper
  cases owner_proper owned proper
  exact ⟨owner, proper, room, counted⟩

theorem strict_iff (survives : Survives definitions packet) :
    Strict definitions packet ↔ (Full packet → WellFormed definitions packet) := by
  refine imp_congr_right fun full => ?_
  have filled : packet ≠ [] := by
    rintro rfl
    exact absurd full.1 (by decide)
  constructor
  · intro strict
    refine ⟨(survives filled).1, ?_⟩
    refine (strict.both ?_ ?_ (full.sized survives)).mono ?_ ?_
    · exact fun _ _ _ first second => question_unique first.1 second
    · exact fun _ _ _ first second => taken_unique first.1 second.1
    · intro data size given
      obtain ⟨⟨⟨name, named, room, counted⟩, name', proper⟩, _⟩ := given
      cases named_proper named proper
      exact ⟨name, proper, room, counted⟩
    · intro data size given
      obtain ⟨⟨taken, proper, filled⟩, _, sized⟩ := given
      exact sound_of_taken taken sized proper filled
  · intro wellFormed
    refine (full.2.2.2.both ?_ ?_ wellFormed.2).mono ?_ ?_
    · exact fun _ _ _ first second => first.agree (fun _ _ _ => named_proper) second
    · intro data size other taken sound
      obtain ⟨_, _, record⟩ := taken
      obtain ⟨_, _, again, _⟩ := sound
      exact (record.agree (fun _ _ _ => owner_proper) again).1
    · intro data size given
      obtain ⟨named, name, proper, _⟩ := given
      exact ⟨named, name, proper⟩
    · intro data size given
      obtain ⟨taken, querytype, rdata, sound, _, filled⟩ := given
      refine ⟨taken, ?_, fun type' rdata' record => ?_⟩
      · obtain ⟨owner, proper, _⟩ := sound
        exact ⟨owner, proper⟩
      · obtain ⟨_, rfl, rfl⟩ := record.agree (fun _ _ _ => owner_proper) sound
        exact filled

end Strictness

end ExaProxy.Dns
