import ExaProxy.Dns.Fields

namespace ExaProxy.Dns

open ExaProxy.Data

/-! Which packets the decoder survives.  It goes wrong in four ways: a pointer
that lacks its second byte, a circle of pointers, a resource without its ten
fixed bytes, and an address of the wrong size. -/

variable {packet data s rest : Str} {parts : List Str} {fuel size count : Nat} {definitions : List Definition}

theorem dnsToIpv4_ok_iff : (∃ value, dnsToIpv4 s = .ok value) ↔ s.length = 4 := by
  match s with
  | [] | [_] | [_, _] | [_, _, _] => simp [dnsToIpv4, inetNtoa, throw, throwThe, MonadExceptOf.throw]
  | [_, _, _, _] => simp [dnsToIpv4, inetNtoa, pure, Except.pure]
  | _ :: _ :: _ :: _ :: _ :: _ =>
      simp [dnsToIpv4, inetNtoa, throw, throwThe, MonadExceptOf.throw]

theorem inetNtop6_isSome_iff : (inetNtop6 s).isSome ↔ s.length = 16 := by
  by_cases size : s.length = 16
  · simp only [size, iff_true]
    obtain ⟨a, b, c, d, last⟩ : ∃ a b c d, s.drop 12 = [a, b, c, d] := by
      have rest : (s.drop 12).length = 4 := by rw [List.length_drop, size]
      match tail : s.drop 12, rest with
      | [a, b, c, d], _ => exact ⟨a, b, c, d, rfl⟩
    simp only [inetNtop6, size, ne_eq, not_true_eq_false, if_false, last, inetNtoa, Option.map_some]
    split
    · rfl
    · split <;> rfl
  · simp [inetNtop6, size]

theorem dnsToIpv6_ok_iff : (∃ value, dnsToIpv6 s = .ok value) ↔ s.length = 16 := by
  rw [← inetNtop6_isSome_iff, dnsToIpv6]
  cases inetNtop6 s with
  | none => simp [throw, throwThe, MonadExceptOf.throw]
  | some text => simp [pure, Except.pure]

theorem dnsToString_stable (s packet : Str) : Stable fun fuel => dnsToString fuel s packet :=
  (dnsToStringInfo_stable s packet).bind fun _ => stable_const _

theorem dnsToString_completes_iff :
    Completes (fun fuel => dnsToString fuel data packet) ↔ NameReadable packet data := by
  rw [← nameReadable_iff]
  exact (completes_bind (dnsToStringInfo_stable data packet) fun _ => stable_const _).trans
    (and_iff_left fun _ _ => completes_pure _)

theorem map_some_ok_iff {first : Except Fault Str} :
    Completes (fun _ => some <$> first) ↔ ∃ value, first = .ok value := by
  cases first with
  | error fault => simp [Completes, Returns, Functor.map, Except.map]
  | ok value => simp [Completes, Returns, Functor.map, Except.map]

theorem decodeRdata_stable (definitions : List Definition) (packet : Str)
    (resource : DNSResource) : Stable (decodeRdata definitions packet resource) := by
  unfold decodeRdata
  cases byvalue definitions resource.querytype with
  | none => exact stable_const _
  | some definition =>
      cases conversion : definition.querytype with
      | ipv4 => simpa only [conversion, Conversion.decode] using stable_const _
      | ipv6 => simpa only [conversion, Conversion.decode] using stable_const _
      | string =>
          simpa only [conversion, Conversion.decode] using dnsToString_stable resource.rdata packet
      | unimplemented => simpa only [conversion, Conversion.decode] using stable_const _

theorem decodeRdata_completes_iff {resource : DNSResource} : Completes (decodeRdata definitions packet resource) ↔
    RdataReadable definitions packet resource.querytype resource.rdata := by
  unfold decodeRdata RdataReadable Sized
  cases byvalue definitions resource.querytype with
  | none => simp
  | some definition =>
      simp only [Option.mem_some_iff, forall_eq']
      cases definition.querytype with
      | ipv4 => simpa [Conversion.decode] using map_some_ok_iff.trans dnsToIpv4_ok_iff
      | ipv6 => simpa [Conversion.decode] using map_some_ok_iff.trans dnsToIpv6_ok_iff
      | string => simpa [Conversion.decode] using dnsToString_completes_iff
      | unimplemented => simp [Conversion.decode]

theorem decodeResource_stable (definitions : List Definition) (packet : Str)
    (resource : DNSResource) : Stable (decodeResource definitions packet resource) :=
  (decodeRdata_stable definitions packet resource).bind fun _ => stable_const _

theorem decodeResource_completes_iff {resource : DNSResource} :
    Completes (decodeResource definitions packet resource) ↔
      RdataReadable definitions packet resource.querytype resource.rdata := by
  rw [← decodeRdata_completes_iff]
  exact (completes_bind (decodeRdata_stable definitions packet resource)
    fun _ => stable_const _).trans (and_iff_left fun _ _ => completes_pure _)

section Records

variable {ρ : Type} {decoder : Str → Nat → Except Fault (Option ρ)} {len : ρ → Nat}
  {readable : Str → Prop} {records : List ρ}

/-- A record that the decoder reads, and how many bytes it takes. -/
def Decodes (decoder : Str → Nat → Except Fault (Option ρ)) (len : ρ → Nat) (data : Str) (size : Nat) : Prop :=
  ∃ record, Returns (decoder data) (some record) ∧ len record = size

theorem decodeRecords_stable (each : ∀ data, Stable (decoder data)) (count : Nat) (data : Str) :
    Stable fun fuel => decodeRecords decoder len fuel count data := by
  induction count generalizing data with
  | zero => exact stable_const _
  | succ count ih =>
      refine (each data).bind fun found => ?_
      cases found with
      | none => exact stable_const _
      | some record => exact (ih _).bind fun _ => stable_const _

theorem decodeRecords_completes_iff (each : ∀ data, Stable (decoder data))
    (decoded : ∀ data, Completes (decoder data) ↔ readable data) :
    Completes (fun fuel => decodeRecords decoder len fuel count data) ↔
      Along readable (Decodes decoder len) count data := by
  induction count generalizing data with
  | zero => exact iff_of_true (completes_pure _) trivial
  | succ count ih =>
      refine (completes_bind (each data) fun found => ?_).trans (and_congr (decoded data) ?_)
      · cases found with
        | none => exact stable_const _
        | some record => exact (decodeRecords_stable each count _).bind fun _ => stable_const _
      constructor
      · intro later size first
        obtain ⟨record, returned, rfl⟩ := first
        exact ih.mp ((completes_bind_of_completes (decodeRecords_stable each count _)
          (fun _ => stable_const _) (fun _ => completes_pure _)).mp (later (some record) returned))
      · intro later found returned
        cases found with
        | none => exact completes_pure _
        | some record =>
            exact (completes_bind_of_completes (decodeRecords_stable each count _)
              (fun _ => stable_const _) (fun _ => completes_pure _)).mpr
                (ih.mpr (later (len record) ⟨record, returned, rfl⟩))

theorem decodeRecords_row (returned : decodeRecords decoder len fuel count data = .ok (some records, rest)) :
    records.length = count ∧ Row (Decodes decoder len) count data rest := by
  induction count generalizing data records rest with
  | zero =>
      cases returned
      exact ⟨rfl, .nil _⟩
  | succ count ih =>
      obtain ⟨found, first, later⟩ := bind_eq_ok.mp returned
      cases found with
      | none => cases later
      | some record =>
          obtain ⟨⟨others, after⟩, tail, last⟩ := bind_eq_ok.mp later
          cases others with
          | none => cases last
          | some others =>
              cases last
              obtain ⟨counted, row⟩ := ih tail
              exact ⟨congrArg Nat.succ counted, .cons ⟨record, ⟨fuel, first⟩, rfl⟩ row⟩

/-- The records are read in full exactly where they stand one behind another. -/
theorem decodeRecords_iff (each : ∀ data, Stable (decoder data)) :
    (∃ records, Returns (fun fuel => decodeRecords decoder len fuel count data) (some records, rest)) ↔
      Row (Decodes decoder len) count data rest := by
  constructor
  · intro given
    obtain ⟨records, fuel, returned⟩ := given
    exact (decodeRecords_row returned).2
  · intro row
    induction row with
    | nil data => exact ⟨[], 0, rfl⟩
    | @cons data rest size count first later ih =>
        obtain ⟨record, returned, rfl⟩ := first
        obtain ⟨others, tail⟩ := ih
        refine ⟨record :: others, ?_⟩
        obtain ⟨low, returned⟩ := returned
        obtain ⟨high, tail⟩ := tail
        have early := each data low _ returned (max low high) (Nat.le_max_left low high)
        have late := decodeRecords_stable each _ _ high _ tail (max low high) (Nat.le_max_right low high)
        refine ⟨max low high, bind_eq_ok.mpr ⟨some record, early, ?_⟩⟩
        exact bind_eq_ok.mpr ⟨_, late, rfl⟩

/-- What is true of all records that were read, as something to be found along the data. -/
theorem decodeRecords_forall (each : ∀ data, Stable (decoder data)) {held : ρ → Prop}
    (returned : decodeRecords decoder len fuel count data = .ok (some records, rest)) :
    (∀ record ∈ records, held record) ↔ Along
      (fun data => ∀ record, Returns (decoder data) (some record) → held record) (Decodes decoder len) count data := by
  induction count generalizing data records rest with
  | zero =>
      cases returned
      exact iff_of_true (by simp) trivial
  | succ count ih =>
      obtain ⟨found, first, later⟩ := bind_eq_ok.mp returned
      cases found with
      | none => cases later
      | some record =>
          obtain ⟨⟨others, after⟩, tail, last⟩ := bind_eq_ok.mp later
          have read : Returns (decoder data) (some record) := ⟨fuel, first⟩
          have only : ∀ other, Returns (decoder data) (some other) → other = record :=
            fun other again => Option.some.inj (again.unique (each data) read)
          cases others with
          | none => cases last
          | some others =>
              cases last
              rw [List.forall_mem_cons, ih tail, Along]
              refine and_congr ?_ ?_
              · exact ⟨fun one other again => only other again ▸ one, fun all => all record read⟩
              · constructor
                · intro along size decodes
                  obtain ⟨other, again, rfl⟩ := decodes
                  rw [only other again]
                  exact along
                · exact fun all => all _ ⟨record, read, rfl⟩

theorem decodeRecords_left (returned : decodeRecords decoder len fuel count data = .ok (none, rest)) : rest = [] := by
  induction count generalizing data rest with
  | zero => cases returned
  | succ count ih =>
      obtain ⟨found, first, later⟩ := bind_eq_ok.mp returned
      cases found with
      | none =>
          cases later
          rfl
      | some record =>
          obtain ⟨⟨others, after⟩, tail, last⟩ := bind_eq_ok.mp later
          cases others with
          | none =>
              cases last
              exact ih tail
          | some others => cases last

end Records

section Sections

theorem decodes_question (data : Str) (readable : NameReadable packet data) (size : Nat) :
    Decodes (DNSQuery.read packet) DNSQuery.len data size ↔ QuestionAt (Named packet) data size :=
  query_iff readable

theorem decodes_taken (data : Str) (readable : ResourceReadable packet data) (size : Nat) :
    Decodes (DNSResource.read packet) DNSResource.len data size ↔ Taken packet data size := by
  simp only [Taken, ← resource_iff readable.1]
  constructor
  · intro decodes
    obtain ⟨resource, returned, counted⟩ := decodes
    exact ⟨_, _, resource, returned, counted, rfl, rfl⟩
  · intro taken
    obtain ⟨_, _, resource, returned, counted, _⟩ := taken
    exact ⟨resource, returned, counted⟩

theorem decodeQueries_stable (definitions : List Definition) (packet : Str) (count : Nat)
    (data : Str) : Stable (decodeQueries definitions packet count data) :=
  (decodeRecords_stable (query_stable packet) count data).bind fun _ => stable_const _

theorem decodeQueries_completes_iff :
    Completes (decodeQueries definitions packet count data) ↔
      Along (NameReadable packet) (QuestionAt (Named packet)) count data := by
  rw [← along_congr decodes_question]
  exact (completes_bind_of_completes (decodeRecords_stable (query_stable packet) count data)
    (fun _ => stable_const _) (fun _ => completes_pure _)).trans
    (decodeRecords_completes_iff (query_stable packet) fun _ => query_completes_iff)

theorem decodeQueries_iff (along : Along (NameReadable packet) (QuestionAt (Named packet)) count data) :
    (∃ queries, Returns (decodeQueries definitions packet count data) (some queries, rest)) ↔
      Row (QuestionAt (Named packet)) count data rest := by
  rw [← row_congr decodes_question ((along_congr decodes_question).mpr along), ← decodeRecords_iff (query_stable packet)]
  constructor
  · intro given
    obtain ⟨queries, fuel, returned⟩ := given
    obtain ⟨⟨records, after⟩, read, last⟩ := bind_eq_ok.mp returned
    cases records with
    | none => cases last
    | some records =>
        cases last
        exact ⟨records, fuel, read⟩
  · intro given
    obtain ⟨records, fuel, read⟩ := given
    exact ⟨_, fuel, bind_eq_ok.mpr ⟨_, read, rfl⟩⟩

theorem decodeAll_stable (definitions : List Definition) (packet : Str)
    (found : Option (List DNSResource) × Str) : Stable (decodeAll definitions packet found) := by
  obtain ⟨resources, data⟩ := found
  cases resources with
  | none => exact stable_const _
  | some resources =>
      exact (stable_mapM (decodeResource_stable definitions packet) resources).bind
        fun _ => stable_const _

theorem decodeAll_completes_iff (resources : List DNSResource) (rest : Str) :
    Completes (decodeAll definitions packet (some resources, rest)) ↔
      ∀ resource ∈ resources, RdataReadable definitions packet resource.querytype resource.rdata := by
  have decoded := (completes_bind_of_completes
    (g := fun decoded _ => (pure (some decoded, rest) : Except Fault (Option (List DNSResourceType) × Str)))
    (stable_mapM (decodeResource_stable definitions packet) resources)
    (fun _ => stable_const _) (fun _ => completes_pure _)).trans
    (completes_mapM (decodeResource_stable definitions packet) resources)
  exact decoded.trans (forall₂_congr fun _ _ => decodeResource_completes_iff)

theorem decodeResources_stable (definitions : List Definition) (packet : Str) (count : Nat)
    (data : Str) : Stable (decodeResources definitions packet count data) :=
  (decodeRecords_stable (resource_stable packet) count data).bind
    (decodeAll_stable definitions packet)

theorem taken_rdata (data : Str) (readable : ResourceReadable packet data) :
    (∀ resource, Returns (DNSResource.read packet data) (some resource) →
      RdataReadable definitions packet resource.querytype resource.rdata) ↔
    ∀ size querytype rdata, RecordAt (Owner packet) data size querytype rdata →
      RdataReadable definitions packet querytype rdata := by
  constructor
  · intro all size querytype rdata record
    obtain ⟨resource, returned, _, rfl, rfl⟩ := (resource_iff readable.1).mpr record
    exact all resource returned
  · intro all resource returned
    exact all _ _ _ ((resource_iff readable.1).mp ⟨resource, returned, rfl, rfl, rfl⟩)

theorem decodeResources_completes_iff :
    Completes (decodeResources definitions packet count data) ↔
      SectionReadable definitions packet count data := by
  refine (completes_bind (decodeRecords_stable (resource_stable packet) count data)
    (decodeAll_stable definitions packet)).trans ?_
  rw [decodeRecords_completes_iff (resource_stable packet) fun _ => resource_completes_iff,
    along_congr decodes_taken, SectionReadable]
  refine and_congr_right fun along => ?_
  have decodes := (along_congr decodes_taken).mpr along
  have told : ∀ {resources : List DNSResource} {rest : Str},
      Returns (fun fuel => decodeRecords (DNSResource.read packet) DNSResource.len fuel count data)
        (some resources, rest) →
      (Completes (decodeAll definitions packet (some resources, rest)) ↔ Along
        (fun data => ∀ size querytype rdata, RecordAt (Owner packet) data size querytype rdata →
          RdataReadable definitions packet querytype rdata) (Taken packet) count data) := by
    intro resources rest returned
    obtain ⟨fuel, returned⟩ := returned
    rw [decodeAll_completes_iff, decodeRecords_forall (resource_stable packet) returned]
    exact along_of_along decodes_taken taken_rdata decodes
  constructor
  · intro later rest row
    obtain ⟨resources, returned⟩ := (decodeRecords_iff (resource_stable packet)).mpr
      ((row_congr decodes_taken decodes).mpr row)
    exact (told returned).mp (later _ returned)
  · intro readable found returned
    obtain ⟨resources, rest⟩ := found
    cases resources with
    | none => exact completes_pure _
    | some resources =>
        have row := (decodeRecords_iff (resource_stable packet)).mp ⟨resources, returned⟩
        exact (told returned).mpr (readable rest ((row_congr decodes_taken decodes).mp row))

theorem decodeResources_iff (readable : SectionReadable definitions packet count data) :
    (∃ resources, Returns (decodeResources definitions packet count data) (some resources, rest)) ↔
      Row (Taken packet) count data rest := by
  have decodes := (along_congr decodes_taken).mpr readable.1
  rw [← row_congr decodes_taken decodes, ← decodeRecords_iff (resource_stable packet)]
  have bound : ∀ found, Returns (decodeResources definitions packet count data) found ↔ ∃ records,
      Returns (fun fuel => decodeRecords (DNSResource.read packet) DNSResource.len fuel count data) records ∧
        Returns (decodeAll definitions packet records) found := fun _ =>
    returns_bind (decodeRecords_stable (resource_stable packet) count data) (decodeAll_stable definitions packet)
  constructor
  · intro given
    obtain ⟨resources, returned⟩ := given
    obtain ⟨⟨records, after⟩, read, fuel, last⟩ := (bound _).mp returned
    cases records with
    | none => cases last
    | some records =>
        obtain ⟨decoded, _, last⟩ := bind_eq_ok.mp last
        cases last
        exact ⟨records, read⟩
  · intro given
    obtain ⟨records, read⟩ := given
    obtain ⟨⟨resources, after⟩, returned⟩ := decodeResources_completes_iff.mpr readable
    obtain ⟨found, again, last⟩ := (bound _).mp returned
    cases again.unique (decodeRecords_stable (resource_stable packet) count data) read
    obtain ⟨fuel, last⟩ := last
    obtain ⟨decoded, each, last⟩ := bind_eq_ok.mp last
    cases last
    exact ⟨decoded, returned⟩

/-- A section that is not complete leaves nothing to read for those behind it. -/
theorem decodeResources_left (returned : Returns (decodeResources definitions packet count data) (none, rest)) :
    rest = [] := by
  obtain ⟨fuel, returned⟩ := returned
  obtain ⟨⟨records, after⟩, read, last⟩ := bind_eq_ok.mp returned
  cases records with
  | none =>
      cases last
      exact decodeRecords_left read
  | some records =>
      obtain ⟨decoded, _, last⟩ := bind_eq_ok.mp last
      cases last

theorem decodeQueries_left (returned : Returns (decodeQueries definitions packet count data) (none, rest)) :
    rest = [] := by
  obtain ⟨fuel, returned⟩ := returned
  obtain ⟨⟨records, after⟩, read, last⟩ := bind_eq_ok.mp returned
  cases records with
  | none =>
      cases last
      exact decodeRecords_left read
  | some records => cases last

end Sections

section Responses

theorem not_owner_nil : ¬ Owner packet [] size := by
  intro owner
  rcases owner with ⟨root, _⟩ | ⟨labels, next, stands, _⟩
  · cases root
  · cases stands

theorem not_taken_nil : ¬ Taken packet [] size := by
  intro taken
  obtain ⟨_, _, owner, owned, _⟩ := taken
  exact not_owner_nil owned

theorem sectionReadable_nil : SectionReadable definitions packet count [] := by
  have readable : ResourceReadable packet [] := by
    refine ⟨.inr ⟨fun breaks => ?_, fun labels target size stands => ?_⟩, fun owner owned => ?_⟩
    · cases breaks
    · cases stands
    · exact absurd owned not_owner_nil
  cases count with
  | zero => exact ⟨trivial, fun _ _ => trivial⟩
  | succ count =>
      refine ⟨⟨readable, fun size taken => absurd taken not_taken_nil⟩, fun rest row => ?_⟩
      cases row with
      | cons first _ => exact absurd first not_taken_nil

theorem sectionsReadable_nil (counts : List Nat) : SectionsReadable definitions packet counts [] := by
  induction counts with
  | nil => trivial
  | cons count later ih =>
      refine ⟨sectionReadable_nil, fun rest row => ?_⟩
      cases row with
      | nil => exact ih
      | cons first _ => exact absurd first not_taken_nil

/-- Reading goes on where a section is complete; behind one that is not there is nothing left to read. -/
theorem resources_then_iff {later : Str → Prop} (nothing : later []) :
    (Completes (decodeResources definitions packet count data) ∧
      ∀ found, Returns (decodeResources definitions packet count data) found → later found.2) ↔
    SectionReadable definitions packet count data ∧ ∀ rest, Row (Taken packet) count data rest → later rest := by
  rw [decodeResources_completes_iff]
  refine and_congr_right fun readable => ?_
  constructor
  · intro onward rest row
    obtain ⟨resources, returned⟩ := (decodeResources_iff readable).mpr row
    exact onward _ returned
  · intro onward found returned
    obtain ⟨resources, rest⟩ := found
    cases resources with
    | none => exact (decodeResources_left returned) ▸ nothing
    | some resources => exact onward rest ((decodeResources_iff readable).mp ⟨resources, returned⟩)

theorem queries_then_iff {later : Str → Prop} (nothing : later []) :
    (Completes (decodeQueries definitions packet count data) ∧
      ∀ found, Returns (decodeQueries definitions packet count data) found → later found.2) ↔
    Along (NameReadable packet) (QuestionAt (Named packet)) count data ∧
      ∀ rest, Row (QuestionAt (Named packet)) count data rest → later rest := by
  rw [decodeQueries_completes_iff]
  refine and_congr_right fun along => ?_
  constructor
  · intro onward rest row
    obtain ⟨queries, returned⟩ := (decodeQueries_iff along).mpr row
    exact onward _ returned
  · intro onward found returned
    obtain ⟨queries, rest⟩ := found
    cases queries with
    | none => exact (decodeQueries_left returned) ▸ nothing
    | some queries => exact onward rest ((decodeQueries_iff along).mp ⟨queries, returned⟩)

theorem header_readable (enough : 12 ≤ packet.length) : ∃ header, DNSHeader.read packet = .ok header := by
  have first := u16_slice packet 0 (by omega)
  have second := u16_slice packet 2 (by omega)
  have third := u16_slice packet 4 (by omega)
  have fourth := u16_slice packet 6 (by omega)
  have fifth := u16_slice packet 8 (by omega)
  have sixth := u16_slice packet 10 (by omega)
  simp only [Nat.zero_add, Nat.reduceAdd] at first second third fourth fifth sixth
  simp only [DNSHeader.read, first, second, third, fourth, fifth, sixth, bind, Except.bind, pure,
    Except.pure, Except.ok.injEq, exists_eq']

theorem header_whole {header : DNSHeader} (read : DNSHeader.read packet = .ok header) : 12 ≤ packet.length := by
  by_contra short
  have cut := u16_slice_cut packet 10 (by omega)
  simp only [Nat.reduceAdd] at cut
  obtain ⟨_, _, read⟩ := bind_eq_ok.mp read
  obtain ⟨_, _, read⟩ := bind_eq_ok.mp read
  obtain ⟨_, _, read⟩ := bind_eq_ok.mp read
  obtain ⟨_, _, read⟩ := bind_eq_ok.mp read
  obtain ⟨_, _, read⟩ := bind_eq_ok.mp read
  obtain ⟨_, last, _⟩ := bind_eq_ok.mp read
  rw [cut] at last
  cases last

/-- The header tells what stands in the first bytes. -/
structure Heads (packet : Str) (header : DNSHeader) : Prop where
  qr : header.qr = word packet 2 >>> 15
  tc : header.tc = (word packet 2 >>> 9) &&& 1
  queryLen : header.queryLen = word packet 4
  responseLen : header.responseLen = word packet 6
  authorityLen : header.authorityLen = word packet 8
  additionalLen : header.additionalLen = word packet 10

theorem header_words {header : DNSHeader} (read : DNSHeader.read packet = .ok header) : Heads packet header := by
  have enough := header_whole read
  have first := u16_slice packet 0 (by omega)
  have second := u16_slice packet 2 (by omega)
  have third := u16_slice packet 4 (by omega)
  have fourth := u16_slice packet 6 (by omega)
  have fifth := u16_slice packet 8 (by omega)
  have sixth := u16_slice packet 10 (by omega)
  simp only [Nat.zero_add, Nat.reduceAdd] at first second third fourth fifth sixth
  simp only [DNSHeader.read, first, second, third, fourth, fifth, sixth, bind, Except.bind, pure, Except.pure,
    Except.ok.injEq] at read
  subst read
  exact ⟨rfl, rfl, rfl, rfl, rfl, rfl⟩

theorem decodeSections_stable (definitions : List Definition) (packet : Str) (header : DNSHeader) :
    Stable (decodeSections definitions packet header) :=
  (decodeQueries_stable definitions packet _ _).bind fun _ =>
    (decodeResources_stable definitions packet _ _).bind fun _ =>
      (decodeResources_stable definitions packet _ _).bind fun _ =>
        (decodeResources_stable definitions packet _ _).bind fun _ => stable_const _

theorem decodeSections_completes_iff {header : DNSHeader} :
    Completes (decodeSections definitions packet header) ↔
      Along (NameReadable packet) (QuestionAt (Named packet)) header.queryLen (packet.drop 12) ∧
        ∀ rest, Row (QuestionAt (Named packet)) header.queryLen (packet.drop 12) rest →
          SectionsReadable definitions packet [header.responseLen, header.authorityLen, header.additionalLen] rest := by
  have stable := fun (data : Str) (count : Nat) => decodeResources_stable definitions packet count data
  rw [← queries_then_iff (sectionsReadable_nil _)]
  refine (completes_bind (decodeQueries_stable definitions packet _ _) fun _ => (stable _ _).bind fun _ =>
    (stable _ _).bind fun _ => (stable _ _).bind fun _ => stable_const _).trans (and_congr_right fun _ => ?_)
  refine forall₂_congr fun queries _ => ?_
  rw [SectionsReadable, ← resources_then_iff (sectionsReadable_nil _)]
  refine (completes_bind (stable _ _) fun _ => (stable _ _).bind fun _ => (stable _ _).bind fun _ =>
    stable_const _).trans (and_congr_right fun _ => ?_)
  refine forall₂_congr fun responses _ => ?_
  rw [SectionsReadable, ← resources_then_iff (sectionsReadable_nil _)]
  refine (completes_bind (stable _ _) fun _ => (stable _ _).bind fun _ =>
    stable_const _).trans (and_congr_right fun _ => ?_)
  refine forall₂_congr fun authorities _ => ?_
  refine (completes_bind_of_completes (stable _ _) (fun _ => stable_const _)
    fun _ => completes_pure _).trans ?_
  simp only [SectionsReadable, implies_true, and_true]
  exact decodeResources_completes_iff

theorem decodeResponse_completes_iff (some : packet ≠ []) :
    Completes (decodeResponse definitions packet) ↔ Survives definitions packet := by
  simp only [Survives, ne_eq, some, not_false_eq_true, forall_const]
  by_cases enough : 12 ≤ packet.length
  · obtain ⟨header, read⟩ := header_readable enough
    have heads := header_words read
    simp only [enough, true_and, ← heads.qr, ← heads.queryLen, ← heads.responseLen, ← heads.authorityLen,
      ← heads.additionalLen]
    by_cases response : header.qr = 1
    · have same : decodeResponse definitions packet = decodeSections definitions packet header := by
        funext fuel
        simp only [decodeResponse, read, bind, Except.bind, response, if_true]
      simp only [same, response, forall_const]
      exact decodeSections_completes_iff
    · have same : decodeResponse definitions packet = fun _ =>
          .ok (.new header.identifier (header.tc = 0) none none none none) := by
        funext fuel
        simp only [decodeResponse, read, bind, Except.bind, response, if_false]
        rfl
      rw [same]
      exact iff_of_true (completes_pure _) fun given => absurd given response
  · refine iff_of_false (fun given => enough ?_) (fun given => enough given.1)
    obtain ⟨decoded, fuel, returned⟩ := given
    obtain ⟨header, read, _⟩ := bind_eq_ok.mp returned
    exact header_whole read

/-- A response object with empty sections. -/
def Empty (decoded : DNSResponseType) : Prop :=
  decoded.queries = [] ∧ decoded.responses = [] ∧ decoded.authorities = [] ∧ decoded.additionals = []

theorem new_empty {identifier : Nat} {complete : Bool} {queries : Option (List DNSQueryType)}
    {responses authorities additionals : Option (List DNSResourceType)}
    (partly : queries = none ∨ responses = none ∨ authorities = none ∨ additionals = none) :
    Empty (.new identifier complete queries responses authorities additionals) := by
  cases complete with
  | false => exact ⟨rfl, rfl, rfl, rfl⟩
  | true =>
      match queries, responses, authorities, additionals with
      | some _, some _, some _, some _ => simp at partly
      | none, _, _, _ => exact ⟨rfl, rfl, rfl, rfl⟩
      | some _, none, _, _ => exact ⟨rfl, rfl, rfl, rfl⟩
      | some _, some _, none, _ => exact ⟨rfl, rfl, rfl, rfl⟩
      | some _, some _, some _, none => exact ⟨rfl, rfl, rfl, rfl⟩

theorem new_empty_iff {identifier : Nat} {complete : Bool} {queries : List DNSQueryType}
    {responses authorities additionals : List DNSResourceType} :
    Empty (.new identifier complete (some queries) (some responses) (some authorities) (some additionals)) ↔
      ¬ (complete = true ∧
        0 < queries.length + responses.length + authorities.length + additionals.length) := by
  cases complete with
  | false => exact iff_of_true ⟨rfl, rfl, rfl, rfl⟩ (by simp)
  | true =>
      simp only [DNSResponseType.new, Empty, true_and, ← List.length_eq_zero_iff]
      omega

theorem decodeQueries_length {queries : List DNSQueryType}
    (returned : Returns (decodeQueries definitions packet count data) (some queries, rest)) :
    queries.length = count := by
  obtain ⟨fuel, returned⟩ := returned
  obtain ⟨⟨records, after⟩, read, last⟩ := bind_eq_ok.mp returned
  cases records with
  | none => cases last
  | some records =>
      cases last
      rw [List.length_map, (decodeRecords_row read).1]

theorem decodeResources_length {resources : List DNSResourceType}
    (returned : Returns (decodeResources definitions packet count data) (some resources, rest)) :
    resources.length = count := by
  obtain ⟨fuel, returned⟩ := returned
  obtain ⟨⟨records, after⟩, read, last⟩ := bind_eq_ok.mp returned
  cases records with
  | none => cases last
  | some records =>
      obtain ⟨decoded, each, last⟩ := bind_eq_ok.mp last
      cases last
      rw [mapM_length each, (decodeRecords_row read).1]

/-- What a section leaves, and how much it holds, where all of it is there. -/
theorem decodeResources_whole {found : Option (List DNSResourceType) × Str}
    (readable : SectionReadable definitions packet count data)
    (returned : Returns (decodeResources definitions packet count data) found)
    (row : Row (Taken packet) count data rest) :
    ∃ resources, found = (some resources, rest) ∧ resources.length = count := by
  obtain ⟨resources, again⟩ := (decodeResources_iff readable).mpr row
  exact ⟨resources, returned.unique (decodeResources_stable definitions packet count data) again,
    decodeResources_length again⟩

/-- The sections of a response are kept exactly where it is complete and all it announces is there. -/
theorem decodeSections_empty_iff {header : DNSHeader} {decoded : DNSResponseType}
    (survives : Survives definitions packet) (read : DNSHeader.read packet = .ok header)
    (response : word packet 2 >>> 15 = 1)
    (returned : decodeSections definitions packet header fuel = .ok decoded) : Empty decoded ↔ ¬ Full packet := by
  have heads := header_words read
  have filled : packet ≠ [] := by
    rintro rfl
    cases read
  obtain ⟨along, sections⟩ := (survives filled).2 response
  obtain ⟨queries, first, returned⟩ := bind_eq_ok.mp returned
  obtain ⟨responses, second, returned⟩ := bind_eq_ok.mp returned
  obtain ⟨authorities, third, returned⟩ := bind_eq_ok.mp returned
  obtain ⟨additionals, fourth, returned⟩ := bind_eq_ok.mp returned
  cases returned
  rw [heads.queryLen] at first
  rw [heads.responseLen] at second
  rw [heads.authorityLen] at third
  rw [heads.additionalLen] at fourth
  simp only [Full, response, true_and, ← heads.tc]
  by_cases announced : Announced (QuestionAt (Named packet)) (Taken packet) packet
  · simp only [announced, and_true]
    obtain ⟨_, _, _, _, asked, told, vouched, added⟩ := announced
    obtain ⟨questions, again⟩ := (decodeQueries_iff along).mpr asked
    obtain rfl := Returns.unique (decodeQueries_stable definitions packet _ _) ⟨fuel, first⟩ again
    obtain ⟨one, sections⟩ := sections _ asked
    obtain ⟨_, rfl, answers⟩ := decodeResources_whole one ⟨fuel, second⟩ told
    obtain ⟨two, sections⟩ := sections _ told
    obtain ⟨_, rfl, vouchers⟩ := decodeResources_whole two ⟨fuel, third⟩ vouched
    obtain ⟨three, _⟩ := sections _ vouched
    obtain ⟨_, rfl, others⟩ := decodeResources_whole three ⟨fuel, fourth⟩ added
    rw [new_empty_iff, decodeQueries_length again, answers, vouchers, others, decide_eq_true_eq]
  · refine iff_of_true (new_empty ?_) fun full => announced full.2.2
    by_contra whole
    obtain ⟨queries, answers⟩ := queries
    obtain ⟨responses, authority⟩ := responses
    obtain ⟨authorities, additional⟩ := authorities
    obtain ⟨additionals, last⟩ := additionals
    simp only [not_or, ← ne_eq, Option.ne_none_iff_exists'] at whole
    obtain ⟨⟨_, rfl⟩, ⟨_, rfl⟩, ⟨_, rfl⟩, _, rfl⟩ := whole
    have asked := (decodeQueries_iff along).mp ⟨_, fuel, first⟩
    obtain ⟨one, sections⟩ := sections _ asked
    have told := (decodeResources_iff one).mp ⟨_, fuel, second⟩
    obtain ⟨two, sections⟩ := sections _ told
    have vouched := (decodeResources_iff two).mp ⟨_, fuel, third⟩
    obtain ⟨three, _⟩ := sections _ vouched
    have added := (decodeResources_iff three).mp ⟨_, fuel, fourth⟩
    exact announced ⟨_, _, _, _, asked, told, vouched, added⟩

theorem decodeResponse_empty_iff {decoded : DNSResponseType} (survives : Survives definitions packet)
    (returned : decodeResponse definitions packet fuel = .ok decoded) : Empty decoded ↔ ¬ Full packet := by
  obtain ⟨header, read, returned⟩ := bind_eq_ok.mp returned
  have heads := header_words read
  rw [heads.qr] at returned
  by_cases response : word packet 2 >>> 15 = 1
  · rw [if_pos response] at returned
    exact decodeSections_empty_iff survives read response returned
  · rw [if_neg response] at returned
    cases returned
    exact iff_of_true (new_empty (.inl rfl)) fun full => response full.1

/-- The message in a packet; over TCP it is what follows the two bytes of its length. -/
def carried (response : Str) (extended : Bool) : Str :=
  if extended then if word response 0 = response.length - 2 then response.drop 2 else [] else response

theorem message_carried (response : Str) (extended : Bool) :
    message response extended = .ok (carried response extended) := by
  cases extended with
  | false => rfl
  | true =>
      have read := u16_slice (response ++ [0, 0]) 0 (by simp)
      have same : word (response ++ [0, 0]) 0 = word response 0 := by
        match response with
        | [] | [_] | _ :: _ :: _ => rfl
      rw [same] at read
      simp only [Nat.zero_add] at read
      simp only [message, read, bind, Except.bind, pure, Except.pure, if_true, carried, List.length_drop, ne_eq,
        ite_not]

/-- `(False, None)`, or a response object with empty sections. -/
def Empties : Bool × Option DNSResponseType → Prop
  | (read, none) => read = false
  | (_, some decoded) => Empty decoded

theorem normalizeResponse_carried (definitions : List Definition) (response : Str) (extended : Bool) :
    normalizeResponse definitions response extended = fun fuel =>
      if carried response extended = [] then .ok (false, none)
      else do
        let decoded ← decodeResponse definitions (carried response extended) fuel
        return (true, some decoded) := by
  funext fuel
  by_cases empty : carried response extended = []
  · simp only [normalizeResponse, message_carried, bind, Except.bind, empty, ne_eq, not_true_eq_false,
      if_false, if_true, pure, Except.pure]
  · simp only [normalizeResponse, message_carried, bind, Except.bind, empty, ne_eq, not_false_eq_true,
      if_false, if_true, pure, Except.pure]

/-- `normalizeResponse` returns, and empty sections for a malformed message, exactly where the decoder
survives the message and, if all of it is there, its names are as they should be. -/
theorem normalizeResponse_returns_iff (definitions : List Definition) (response : Str) (extended : Bool) :
    (∃ answer, Returns (normalizeResponse definitions response extended) answer ∧
      (¬ WellFormed definitions (carried response extended) → Empties answer)) ↔
    Survives definitions (carried response extended) ∧ Strict definitions (carried response extended) := by
  rw [normalizeResponse_carried]
  by_cases nothing : carried response extended = []
  · simp only [nothing, if_true]
    refine iff_of_true ⟨(false, none), returns_const.mpr rfl, fun _ => rfl⟩ ⟨fun some => absurd rfl some, ?_⟩
    exact fun full => absurd full.1 (by decide)
  · simp only [nothing, if_false]
    constructor
    · intro given
      obtain ⟨answer, ⟨fuel, returned⟩, empties⟩ := given
      obtain ⟨decoded, read, last⟩ := bind_eq_ok.mp returned
      cases last
      have survives := (decodeResponse_completes_iff nothing).mp ⟨decoded, fuel, read⟩
      refine ⟨survives, (strict_iff survives).mpr fun full => ?_⟩
      by_contra malformed
      exact (decodeResponse_empty_iff survives read).mp (empties malformed) full
    · intro given
      obtain ⟨survives, strict⟩ := given
      obtain ⟨decoded, fuel, read⟩ := (decodeResponse_completes_iff nothing).mpr survives
      refine ⟨(true, some decoded), ⟨fuel, bind_eq_ok.mpr ⟨decoded, read, rfl⟩⟩, fun malformed => ?_⟩
      exact (decodeResponse_empty_iff survives read).mpr fun full => malformed ((strict_iff survives).mp strict full)

-- the root is a CNAME of a name that is cut inside its only label: malformed, and taken for an answer
example : (normalizeResponse [⟨ascii "CNAME", 5, .string⟩]
    [0, 1, 0x80, 0, 0, 0, 0, 1, 0, 0, 0, 0, 0, 0, 5, 0, 1, 0, 0, 0, 0, 0, 2, 3, 97] false 0).toOption.map
      (fun answer => answer.2.map fun decoded => decoded.responses.length) = some (some 1) := by
  decide +kernel

/-- One byte is not a header: `struct.unpack` raises. -/
theorem normalizeResponse_one_byte :
    (¬ ∃ definitions fuel, normalizeResponse definitions [0] false fuel ≠ .error .structError) ∧
      ¬ ∃ definitions answer, Returns (normalizeResponse definitions [0] false) answer := by
  have raises : ∀ definitions fuel, normalizeResponse definitions [0] false fuel = .error .structError :=
    fun _ _ => rfl
  constructor
  · exact fun ⟨definitions, fuel, other⟩ => other (raises definitions fuel)
  · intro given
    obtain ⟨definitions, answer, fuel, returned⟩ := given
    rw [raises definitions fuel] at returned
    cases returned

end Responses

end ExaProxy.Dns
