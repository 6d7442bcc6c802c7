import ExaProxy.Dns.Names

namespace ExaProxy.Dns

open ExaProxy.Data

inductive RecordType where
  | a
  | ns
  | cname
  | aaaa
deriving DecidableEq, Repr

/-- The line of the type definitions. -/
def RecordType.definition : RecordType → Definition
  | .a => ⟨ascii "A", 1, .ipv4⟩
  | .ns => ⟨ascii "NS", 2, .string⟩
  | .cname => ⟨ascii "CNAME", 5, .string⟩
  | .aaaa => ⟨ascii "AAAA", 28, .ipv6⟩

/-- Type definitions that the codec accepts, no name and no value twice, with
the lines of the four types. -/
structure Standard (definitions : List Definition) : Prop where
  listed : ∀ type : RecordType, type.definition ∈ definitions
  names : (definitions.map Definition.name).Nodup
  values : (definitions.map Definition.value).Nodup

structure Question where
  name : DomainName
  type : RecordType

inductive RecordData where
  | a (address : Str) (size : address.length = 4)
  | ns (name : DomainName)
  | cname (name : DomainName)
  | aaaa (address : Str) (size : address.length = 16)

structure Record where
  owner : DomainName
  data : RecordData
  ttl : Nat
  bounded : ttl < 2 ^ 32

structure Message where
  identifier : Nat
  questions : List Question
  answers : List Record
  authorities : List Record
  additionals : List Record
  identified : identifier < 2 ^ 16
  counted : ∀ count ∈ [questions.length, answers.length, authorities.length, additionals.length],
    count < 2 ^ 16

def RecordData.type : RecordData → RecordType
  | .a _ _ => .a
  | .ns _ => .ns
  | .cname _ => .cname
  | .aaaa _ _ => .aaaa

/-- The value of a record, addresses as their texts. -/
def RecordData.value : RecordData → Option Str
  | .a address _ => inetNtoa address
  | .ns name | .cname name => some name.text
  | .aaaa address _ => inetNtop6 address

def Question.query (question : Question) : DNSQueryType where
  querytype := some question.type.definition.name
  question := question.name.text

def Record.resource (record : Record) : DNSResourceType where
  querytype := some record.data.type.definition.name
  question := record.owner.text
  response := record.data.value
  ttl := record.ttl

/-- The response that says what the message does. -/
def Message.response (message : Message) : DNSResponseType where
  identifier := message.identifier
  complete := true
  queries := message.questions.map Question.query
  responses := message.answers.map Record.resource
  authorities := message.authorities.map Record.resource
  additionals := message.additionals.map Record.resource

def be16 (number : Nat) : Str := [UInt8.ofNat (number / 2 ^ 8), UInt8.ofNat (number % 2 ^ 8)]

def be32 (number : Nat) : Str := be16 (number / 2 ^ 16) ++ be16 (number % 2 ^ 16)

/-- The bytes at `start` are the data of a record; names in it may be
compressed too. -/
def RecordData.Written (packet : Str) (start : Nat) (rdata : Str) : RecordData → Prop
  | .a address _ | .aaaa address _ => rdata = address
  | .ns name | .cname name => Spells packet start rdata name.labels

/-- The bytes at `start` are a question of class 1. -/
def Question.Written (packet : Str) (start : Nat) (bytes : Str) (question : Question) : Prop :=
  ∃ name, Spells packet start name question.name.labels ∧
    bytes = name ++ (be16 question.type.definition.value ++ be16 1)

/-- The bytes at `start` are a record of class 1. -/
def Record.Written (packet : Str) (start : Nat) (bytes : Str) (record : Record) : Prop :=
  ∃ owner rdata, Spells packet start owner record.owner.labels ∧
    record.data.Written packet (start + owner.length + 10) rdata ∧
    bytes = owner ++ (be16 record.data.type.definition.value ++ be16 1 ++ be32 record.ttl ++
      be16 rdata.length ++ rdata)

/-- Items written one after another from `start` on. -/
inductive Laid {τ : Type} (written : Nat → Str → τ → Prop) : Nat → Str → List τ → Prop where
  | nil {start : Nat} : Laid written start [] []
  | cons {start : Nat} {bytes more : Str} {item : τ} {items : List τ} (first : written start bytes item)
      (later : Laid written (start + bytes.length) more items) :
      Laid written start (bytes ++ more) (item :: items)

def Message.header (message : Message) (flags : Nat) : Str :=
  be16 message.identifier ++ be16 flags ++ be16 message.questions.length ++ be16 message.answers.length ++
    be16 message.authorities.length ++ be16 message.additionals.length

/-- The packet is the message as a response that is not truncated; its other
flags may be any. -/
inductive Serialised (packet : Str) (message : Message) : Prop where
  | intro {flags : Nat} {questions answers authorities additionals : Str} (bounded : flags < 2 ^ 16)
      (response : flags.testBit 15 = true) (whole : flags.testBit 9 = false)
      (asked : Laid (Question.Written packet) 12 questions message.questions)
      (answered : Laid (Record.Written packet) (12 + questions.length) answers message.answers)
      (authorised : Laid (Record.Written packet) (12 + questions.length + answers.length) authorities
        message.authorities)
      (added : Laid (Record.Written packet) (12 + questions.length + answers.length + authorities.length)
        additionals message.additionals)
      (bytes : packet = message.header flags ++ (questions ++ (answers ++ (authorities ++ additionals))))

variable {definitions : List Definition} {packet bytes data rest : Str} {labels : List Str}
  {start number : Nat}
  {message : Message}

theorem DomainName.text_ne_nil (name : DomainName) : name.text ≠ [] :=
  mt (joinDots_eq_nil fun label member => (name.sized label member).1).mp name.filled

theorem u16_be16 (small : number < 2 ^ 16) : u16 (be16 number) = .ok number := by
  rw [be16, u16, u8_ofNat (by omega), u8_ofNat (by omega), Nat.div_add_mod']

theorem u32_be32 (small : number < 2 ^ 32) : u32 (be32 number) = .ok number := by
  simp only [be32, be16, List.cons_append, List.nil_append, u32]
  rw [u8_ofNat (by omega), u8_ofNat (by omega), u8_ofNat (by omega), u8_ofNat (by omega)]
  congr 1
  omega

theorem find_line {κ : Type} [DecidableEq κ] {key : Definition → κ} {line : Definition}
    (unique : (definitions.map key).Nodup) (listed : line ∈ definitions) :
    definitions.find? (fun other => key other = key line) = some line := by
  cases found : definitions.find? (fun other => key other = key line) with
  | none => simpa using List.find?_eq_none.mp found line listed
  | some other =>
      have same : key other = key line := by simpa using List.find?_some found
      exact congrArg some (List.inj_on_of_nodup_map unique (List.mem_of_find?_eq_some found) listed same)

theorem byvalue_standard (standard : Standard definitions) (type : RecordType) :
    byvalue definitions type.definition.value = some type.definition :=
  find_line standard.values (standard.listed type)

/-- The records of a section are read, each one up to the place where the next
one starts. -/
theorem decodeRecords_laid {ρ τ : Type} {decoder : Str → Nat → Except Fault (Option ρ)} {len : ρ → Nat}
    {written : Nat → Str → τ → Prop} {matched : ρ → τ → Prop} {items : List τ}
    (stable : ∀ data, Stable (decoder data))
    (each : ∀ start bytes item rest, written start bytes item → ∃ found,
      Returns (decoder (bytes ++ rest)) (some found) ∧ len found = bytes.length ∧ matched found item)
    (laid : Laid written start bytes items) (rest : Str) :
    ∃ found, List.Forall₂ matched found items ∧
      Returns (fun fuel => decodeRecords decoder len fuel items.length (bytes ++ rest)) (some found, rest) := by
  induction laid with
  | nil => exact ⟨[], .nil, 0, rfl⟩
  | @cons start bytes more item items first later ih =>
      obtain ⟨records, matching, returned⟩ := ih
      obtain ⟨record, read, counted, same⟩ := each start bytes item (more ++ rest) first
      refine ⟨record :: records, .cons same matching, ?_⟩
      obtain ⟨low, early⟩ := read
      obtain ⟨high, late⟩ := returned
      rw [List.append_assoc]
      refine ⟨max low high, bind_eq_ok.mpr ⟨some record,
        stable _ low _ early _ (Nat.le_max_left low high), ?_⟩⟩
      simp only [counted, List.drop_left]
      exact bind_eq_ok.mpr ⟨(some records, rest),
        decodeRecords_stable stable _ _ high _ late _ (Nat.le_max_right low high), rfl⟩

theorem query_readFields {owner text : Str} {querytype queryclass : Nat} (filled : text ≠ [])
    (typed : querytype < 2 ^ 16) (classed : queryclass < 2 ^ 16) (rest : Str) :
    DNSQuery.readFields (owner ++ (be16 querytype ++ be16 queryclass ++ rest))
      (some owner.length, some text) = .ok (some ⟨text, querytype, queryclass, owner.length + 4⟩) := by
  have first : Str.slice (be16 querytype ++ be16 queryclass ++ rest) 0 2 = be16 querytype := rfl
  have second : Str.slice (be16 querytype ++ be16 queryclass ++ rest) 2 4 = be16 queryclass := rfl
  have enough : (be16 querytype ++ be16 queryclass ++ rest).length ≥ 4 := by simp [be16]
  cases text with
  | nil => exact absurd rfl filled
  | cons char label =>
      simp only [DNSQuery.readFields, Option.getD_some, List.drop_left, enough, if_true, first, second,
        u16_be16 typed, u16_be16 classed, addRead, bind, Except.bind, pure, Except.pure]

theorem RecordType.value_lt (type : RecordType) : type.definition.value < 2 ^ 16 := by
  cases type <;> decide

theorem Question.Written.read {question : Question} (standard : Standard definitions)
    (written : question.Written packet start bytes) (rest : Str) :
    ∃ query, Returns (DNSQuery.read packet (bytes ++ rest)) (some query) ∧ query.len = bytes.length ∧
      decodeQuery definitions query = question.query := by
  obtain ⟨owner, spelled, rfl⟩ := written
  have named := spelled.returns question.name.bounded
    (be16 question.type.definition.value ++ be16 1 ++ rest)
  refine ⟨⟨question.name.text, question.type.definition.value, 1, owner.length + 4⟩, ?_, ?_, ?_⟩
  · rw [List.append_assoc]
    refine (returns_bind (dnsToStringInfo_stable _ packet) fun _ => stable_const _).mpr
      ⟨_, named, returns_const.mpr ?_⟩
    exact query_readFields question.name.text_ne_nil question.type.value_lt (by decide) rest
  · simp [be16]
  · simp only [decodeQuery, byvalue_standard standard, Option.map_some, Question.query]

theorem Spells.head (spelled : Spells packet start bytes labels) (filled : labels ≠ []) (rest : Str) :
    (bytes ++ rest).head? ≠ some 0 := by
  intro zero
  cases spelled with
  | root => exact filled rfl
  | @label _ _ label _ nonempty short =>
      have size : u8 (UInt8.ofNat label.length) = label.length := u8_ofNat (by omega)
      have positive := List.length_pos_iff.mpr nonempty
      rw [List.cons_append, List.head?_cons, Option.some.injEq] at zero
      rw [zero] at size
      exact absurd size.symm (Nat.ne_of_gt positive)
  | @pointer _ target _ _ _ _ low =>
      have high : u8 (UInt8.ofNat (0xc0 + target / 256)) = 0xc0 + target / 256 := u8_ofNat (by omega)
      rw [pointerTo, List.cons_append, List.head?_cons, Option.some.injEq] at zero
      rw [zero] at high
      have positive : (0 : Nat) < 0xc0 + target / 256 := by omega
      exact absurd high.symm (Nat.ne_of_gt positive)

theorem resource_readFields {owner text rdata : Str} {querytype queryclass ttl : Nat} (filled : text ≠ [])
    (typed : querytype < 2 ^ 16) (classed : queryclass < 2 ^ 16) (lasting : ttl < 2 ^ 32)
    (sized : rdata.length < 2 ^ 16) (rest : Str) :
    DNSResource.readFields
      (owner ++ (be16 querytype ++ be16 queryclass ++ be32 ttl ++ be16 rdata.length ++ rdata ++ rest))
      (some owner.length, some text) =
      .ok (some ⟨text, querytype, queryclass, ttl, rdata, owner.length + (10 + rdata.length)⟩) := by
  let fields := be16 querytype ++ be16 queryclass ++ be32 ttl ++ be16 rdata.length ++ rdata ++ rest
  have first : Str.slice fields 0 2 = be16 querytype := rfl
  have second : Str.slice fields 2 4 = be16 queryclass := rfl
  have third : Str.slice fields 4 8 = be32 ttl := rfl
  have fourth : Str.slice fields 8 10 = be16 rdata.length := rfl
  have last : Str.slice fields 10 (10 + rdata.length) = rdata := by
    rw [Str.slice, Nat.add_sub_cancel_left]
    exact List.take_left
  have enough : fields.length ≥ 10 + rdata.length := by
    simp only [fields, be16, be32, List.length_append, List.length_cons, List.length_nil]
    omega
  change DNSResource.readFields (owner ++ fields) _ = _
  cases text with
  | nil => exact absurd rfl filled
  | cons char label =>
      simp only [DNSResource.readFields, Option.getD_some, List.drop_left, first, second, third, fourth, last,
        u16_be16 sized, u16_be16 typed, u16_be16 classed, u32_be32 lasting, enough, if_true, addRead, bind,
        Except.bind, pure, Except.pure]

/-- The name at the head of a record is not taken for the root. -/
theorem readName_spelled {name : DomainName} (spelled : Spells packet start bytes name.labels) (rest : Str) :
    Returns (DNSResource.readName packet (bytes ++ rest)) (some bytes.length, some name.text) := by
  obtain ⟨fuel, returned⟩ := spelled.returns name.bounded rest
  refine ⟨fuel, ?_⟩
  rw [DNSResource.readName, if_neg (spelled.head name.filled rest)]
  exact returned

theorem DomainName.wireLength_le (name : DomainName) : wireLength name.labels ≤ 256 := by
  have counted := joinDots_length name.filled
  have bounded := name.bounded
  omega

theorem RecordData.Written.length_lt {value : RecordData} {rdata : Str}
    (written : value.Written packet start rdata) : rdata.length < 2 ^ 16 := by
  have spelled : ∀ name : DomainName, Spells packet start rdata name.labels → rdata.length < 2 ^ 16 := by
    intro name spells
    have bound := spells.length_le
    have small := name.wireLength_le
    omega
  cases value with
  | a address size | aaaa address size =>
      have same : rdata = address := written
      rw [same, size]
      decide
  | ns name | cname name => exact spelled name written

theorem dnsToIpv4_value (size : data.length = 4) : some <$> dnsToIpv4 data = .ok (inetNtoa data) := by
  obtain ⟨text, returned⟩ := dnsToIpv4_ok_iff.mpr size
  rw [dnsToIpv4] at returned ⊢
  cases given : inetNtoa data with
  | none => rw [given] at returned; cases returned
  | some text => rfl

theorem dnsToIpv6_value (size : data.length = 16) : some <$> dnsToIpv6 data = .ok (inetNtop6 data) := by
  obtain ⟨text, returned⟩ := dnsToIpv6_ok_iff.mpr size
  rw [dnsToIpv6] at returned ⊢
  cases given : inetNtop6 data with
  | none => rw [given] at returned; cases returned
  | some text => rfl

theorem dnsToString_spelled {name : DomainName} (spelled : Spells packet start bytes name.labels) :
    Returns (fun fuel => dnsToString fuel bytes packet) (some name.text) := by
  have named := spelled.returns name.bounded []
  rw [List.append_nil] at named
  exact (returns_bind (dnsToStringInfo_stable bytes packet) fun _ => stable_const _).mpr
    ⟨_, named, 0, rfl⟩

theorem decodeRdata_written {resource : DNSResource} {value : RecordData} (standard : Standard definitions)
    (typed : resource.querytype = value.type.definition.value)
    (written : value.Written packet start resource.rdata) :
    Returns (decodeRdata definitions packet resource) value.value := by
  have found := byvalue_standard standard value.type
  rw [← typed] at found
  unfold decodeRdata
  rw [found]
  cases value with
  | a address size =>
      have same : resource.rdata = address := written
      rw [same]
      exact returns_const.mpr (dnsToIpv4_value size)
  | aaaa address size =>
      have same : resource.rdata = address := written
      rw [same]
      exact returns_const.mpr (dnsToIpv6_value size)
  | ns name => exact dnsToString_spelled written
  | cname name => exact dnsToString_spelled written

theorem Record.Written.read {record : Record} (standard : Standard definitions)
    (written : record.Written packet start bytes) (rest : Str) :
    ∃ resource, Returns (DNSResource.read packet (bytes ++ rest)) (some resource) ∧
      resource.len = bytes.length ∧ Returns (decodeResource definitions packet resource) record.resource := by
  obtain ⟨owner, rdata, spelled, value, rfl⟩ := written
  let type := record.data.type
  refine ⟨⟨record.owner.text, type.definition.value, 1, record.ttl, rdata,
    owner.length + (10 + rdata.length)⟩, ?_, ?_, ?_⟩
  · rw [List.append_assoc]
    refine (returns_bind (readName_stable packet _) fun _ => stable_const _).mpr
      ⟨_, readName_spelled spelled _, returns_const.mpr ?_⟩
    exact resource_readFields record.owner.text_ne_nil type.value_lt (by decide) record.bounded
      value.length_lt rest
  · simp only [be16, be32, List.length_append, List.length_cons, List.length_nil]
  · refine (returns_bind (decodeRdata_stable definitions packet _) fun _ => stable_const _).mpr
      ⟨record.data.value, decodeRdata_written standard rfl value, returns_const.mpr ?_⟩
    simp only [byvalue_standard standard, Option.map_some, Record.resource, type, pure, Except.pure]

theorem decodeQueries_laid {questions : List Question} (standard : Standard definitions)
    (laid : Laid (Question.Written packet) start bytes questions) (rest : Str) :
    Returns (decodeQueries definitions packet questions.length (bytes ++ rest))
      (some (questions.map Question.query), rest) := by
  obtain ⟨found, matching, returned⟩ := decodeRecords_laid (query_stable packet)
    (fun _ _ _ rest written => written.read standard rest) laid rest
  have same : found.map (decodeQuery definitions) = questions.map Question.query := by
    rw [← List.forall₂_eq_eq_eq]
    exact List.forall₂_map_left_iff.mpr (List.forall₂_map_right_iff.mpr matching)
  refine (returns_bind (decodeRecords_stable (query_stable packet) _ _) fun _ => stable_const _).mpr
    ⟨_, returned, returns_const.mpr ?_⟩
  simp only [Option.map_some, same, pure, Except.pure]

theorem decodeResources_laid {records : List Record} (standard : Standard definitions)
    (laid : Laid (Record.Written packet) start bytes records) (rest : Str) :
    Returns (decodeResources definitions packet records.length (bytes ++ rest))
      (some (records.map Record.resource), rest) := by
  obtain ⟨found, matching, returned⟩ := decodeRecords_laid (resource_stable packet)
    (fun _ _ _ rest written => written.read standard rest) laid rest
  have decoded : Returns (fun fuel => found.mapM fun resource => decodeResource definitions packet resource fuel)
      (records.map Record.resource) :=
    returns_mapM (decodeResource_stable definitions packet) (List.forall₂_map_right_iff.mpr matching)
  refine (returns_bind (decodeRecords_stable (resource_stable packet) _ _)
    (decodeAll_stable definitions packet)).mpr ⟨_, returned, ?_⟩
  exact (returns_bind (g := fun decoded _ => pure (some decoded, rest))
    (stable_mapM (decodeResource_stable definitions packet) found) fun _ => stable_const _).mpr
    ⟨_, decoded, 0, rfl⟩

theorem header_read {flags : Nat} (bounded : flags < 2 ^ 16) (rest : Str) :
    ∃ header, DNSHeader.read (message.header flags ++ rest) = .ok header ∧
      header.identifier = message.identifier ∧ header.qr = flags >>> 15 ∧ header.tc = (flags >>> 9) &&& 1 ∧
      header.queryLen = message.questions.length ∧ header.responseLen = message.answers.length ∧
      header.authorityLen = message.authorities.length ∧
      header.additionalLen = message.additionals.length := by
  have counted := message.counted
  simp only [List.forall_mem_cons] at counted
  obtain ⟨asked, answered, authorised, added, -⟩ := counted
  let packet := message.header flags ++ rest
  have first : packet.slice 0 2 = be16 message.identifier := rfl
  have second : packet.slice 2 4 = be16 flags := rfl
  have third : packet.slice 4 6 = be16 message.questions.length := rfl
  have fourth : packet.slice 6 8 = be16 message.answers.length := rfl
  have fifth : packet.slice 8 10 = be16 message.authorities.length := rfl
  have sixth : packet.slice 10 12 = be16 message.additionals.length := rfl
  change ∃ header, DNSHeader.read packet = .ok header ∧ _
  simp only [DNSHeader.read, first, second, third, fourth, fifth, sixth, u16_be16 message.identified,
    u16_be16 bounded, u16_be16 asked, u16_be16 answered, u16_be16 authorised, u16_be16 added, bind, Except.bind,
    pure, Except.pure, Except.ok.injEq, exists_eq_left', and_self]

theorem response_bit {flags : Nat} (bounded : flags < 2 ^ 16) (response : flags.testBit 15 = true) :
    flags >>> 15 = 1 := by
  rw [Nat.testBit_eq_decide_div_mod_eq, decide_eq_true_eq] at response
  rw [Nat.shiftRight_eq_div_pow]
  omega

theorem truncated_bit {flags : Nat} (whole : flags.testBit 9 = false) : (flags >>> 9) &&& 1 = 0 := by
  rw [Nat.testBit_eq_decide_div_mod_eq, decide_eq_false_iff_not] at whole
  rw [Nat.shiftRight_eq_div_pow, Nat.and_one_is_mod]
  omega

/-- A message is read back in full, however its names are compressed. -/
theorem Serialised.returns (standard : Standard definitions) (serialised : Serialised packet message) :
    Returns (decodeResponse definitions packet) message.response := by
  obtain @⟨flags, questions, answers, authorities, additionals, bounded, response, whole, asked, answered,
    authorised, added, bytes⟩ := serialised
  obtain ⟨header, read, identified, reply, complete, queries, responses, authority, additional⟩ :=
    header_read bounded (questions ++ (answers ++ (authorities ++ additionals)))
  rw [← bytes] at read
  have body : packet.drop 12 = questions ++ (answers ++ (authorities ++ additionals)) := by
    rw [bytes]
    rfl
  have last := decodeResources_laid standard added []
  rw [List.append_nil] at last
  have sections : Returns (decodeSections definitions packet header) message.response := by
    have stable := fun (data : Str) (count : Nat) => decodeResources_stable definitions packet count data
    unfold decodeSections
    rw [body, queries, responses, authority, additional]
    refine (returns_bind (decodeQueries_stable definitions packet _ _) fun _ => (stable _ _).bind fun _ =>
      (stable _ _).bind fun _ => (stable _ _).bind fun _ => stable_const _).mpr
      ⟨_, decodeQueries_laid standard asked _, ?_⟩
    refine (returns_bind (stable _ _) fun _ => (stable _ _).bind fun _ => (stable _ _).bind fun _ =>
      stable_const _).mpr ⟨_, decodeResources_laid standard answered _, ?_⟩
    refine (returns_bind (stable _ _) fun _ => (stable _ _).bind fun _ => stable_const _).mpr
      ⟨_, decodeResources_laid standard authorised _, ?_⟩
    refine (returns_bind (stable _ _) fun _ => stable_const _).mpr ⟨_, last, returns_const.mpr ?_⟩
    simp only [identified, complete, truncated_bit whole, decide_true, DNSResponseType.new, Message.response,
      pure, Except.pure]
  rw [response_bit bounded response] at reply
  obtain ⟨fuel, returned⟩ := sections
  refine ⟨fuel, bind_eq_ok.mpr ⟨header, read, ?_⟩⟩
  rw [if_pos reply]
  exact returned

end ExaProxy.Dns
