import ExaProxy.Data.Methods
import ExaProxy.Dns.Lookup
import ExaProxy.Dns.Messages

namespace ExaProxy.Dns

open ExaProxy.Data

/-! Encoding a DNS response, and that decoding undoes it.  Here `none` is for a
call that raises an exception. -/

/-- The functions of `socket` that read the texts of addresses. -/
structure Sockets where
  inetAton : Str → Option Str
  inetPton6 : Str → Option Str

/-- `string_to_dns`, which catches the `OverflowError` of a label that is too
long for its length to be a byte. -/
def stringToDns (s : Str) : Option Str :=
  let parts := Str.split (ascii ".") (Str.rstrip (ascii ".") s ++ ascii ".")
  if ∀ part ∈ parts, part.length < 256 then
    some (parts.flatMap fun part => UInt8.ofNat part.length :: part)
  else none

def Conversion.encode (sockets : Sockets) (response : Str) : Conversion → Option Str
  | .ipv4 => sockets.inetAton response
  | .ipv6 => sockets.inetPton6 response
  | .string => stringToDns response
  | .unimplemented => none

/-- `self.byname.get(name)` -/
def byname (definitions : List Definition) (name : Str) : Option Definition :=
  definitions.find? fun definition => definition.name = name

def encodeQuery (definitions : List Definition) (query : DNSQueryType) : Option (Nat × Str) := do
  let definition ← byname definitions (← query.querytype)
  return (definition.value, query.question)

def encodeResource (definitions : List Definition) (sockets : Sockets) (resource : DNSResourceType) :
    Option (Nat × Str × Str × Nat) := do
  let definition ← byname definitions (← resource.querytype)
  let encoded ← definition.querytype.encode sockets (← resource.response)
  return (definition.value, resource.question, encoded, resource.ttl)

/-- `struct.pack('>H', number)` -/
def packH (number : Nat) : Option Str := if number < 2 ^ 16 then some (be16 number) else none

/-- `struct.pack('>I', number)` -/
def packI (number : Nat) : Option Str := if number < 2 ^ 32 then some (be32 number) else none

/-- What the loop over the queries adds to the packet. -/
def addQuery (definitions : List Definition) (packet : Str) (query : DNSQueryType) : Option Str := do
  let (dnstype, question) ← encodeQuery definitions query
  let name ← stringToDns question
  return packet ++ (name ++ ((← packH dnstype) ++ (← packH query.dnsclass)))

def addResource (definitions : List Definition) (sockets : Sockets) (packet : Str)
    (resource : DNSResourceType) : Option Str := do
  let (dnstype, question, decoded, ttl) ← encodeResource definitions sockets resource
  let name ← stringToDns question
  return packet ++ (name ++ ((← packH dnstype) ++ (← packH resource.dnsclass) ++ (← packI ttl) ++
    (← packH decoded.length) ++ decoded))

def encodeResponse (definitions : List Definition) (sockets : Sockets) (response : DNSResponseType) :
    Option Str := do
  let header := (← packH response.identifier) ++ (← packH (1 <<< 15)) ++ (← packH response.queries.length) ++
    (← packH response.responses.length) ++ (← packH response.authorities.length) ++
    (← packH response.additionals.length)
  let asked ← response.queries.foldlM (addQuery definitions) header
  response.resources.foldlM (addResource definitions sockets) asked

/-- A name in full. -/
def plain (labels : List Str) : Str := labels.flatMap (fun label => UInt8.ofNat label.length :: label) ++ [0]

variable {definitions : List Definition} {sockets : Sockets} {packet text : Str} {labels : List Str} {start : Nat}

theorem spells_plain (sized : ∀ label ∈ labels, label ≠ [] ∧ label.length ≤ 63) :
    Spells packet start (plain labels) labels := by
  induction labels generalizing start with
  | nil => exact .root
  | cons label labels ih =>
      rw [List.forall_mem_cons] at sized
      have whole : plain (label :: labels) = UInt8.ofNat label.length :: (label ++ plain labels) := by
        simp [plain]
      rw [whole]
      exact .label sized.1.1 sized.1.2 (ih sized.2)

/-- The texts between the dots, `hostname.split('.')`. -/
def dotParts (text : Str) : List Str := text.splitOn 46

/-- The text without the dots at its end. -/
def undotted (text : Str) : Str := Str.rstrip (ascii ".") text

theorem dotParts_append (before after : Str) :
    dotParts (before ++ 46 :: after) = dotParts before ++ dotParts after :=
  List.splitOn_append_cons_self ..

theorem joinDots_dotParts (text : Str) : joinDots (dotParts text) = text :=
  List.intercalate_splitOn 46

theorem dotParts_ne_nil (text : Str) : dotParts text ≠ [] := List.splitOn_ne_nil 46 text

theorem split_dot (text : Str) : Str.split (ascii ".") text = dotParts text := by
  have dot : ascii "." = [46] := rfl
  induction size : text.length using Nat.strong_induction_on generalizing text with
  | _ size ih =>
      rw [dot, Str.split_eq (by simp)]
      cases found : Str.splitOnce [46] text with
      | none =>
          have absent : 46 ∉ text := fun member => by
            obtain ⟨parts, splits⟩ := Str.splitOnce_returns.mpr member
            rw [found] at splits
            cases splits
          exact (List.splitOn_eq_singleton absent).symm
      | some parts =>
          obtain ⟨before, after⟩ := parts
          obtain ⟨rfl, absent⟩ := Str.splitOnce_byte found
          have single : dotParts before = [before] := List.splitOn_eq_singleton absent
          have later := ih after.length (by rw [← size]; simp; omega) after rfl
          rw [dot] at later
          rw [dotParts_append, single, ← later]
          rfl

theorem joinDots_suffix (filled : labels ≠ []) : labels.getLast filled <:+ joinDots labels := by
  induction labels with
  | nil => exact absurd rfl filled
  | cons label labels ih =>
      by_cases last : labels = []
      · subst last
        simp [joinDots_singleton]
      · rw [joinDots_cons label last, List.getLast_cons last]
        exact (ih last).trans ((List.suffix_cons _ _).trans (List.suffix_append _ _))

theorem rstrip_text (name : DomainName) : Str.rstrip (ascii ".") name.text = name.text := by
  rw [Str.rstrip, List.rdropWhile_eq_self_iff]
  intro nonempty
  have member := List.getLast_mem name.filled
  have shown := (name.sized _ member).1
  obtain ⟨firsts, whole⟩ := joinDots_suffix name.filled
  have last : name.text.getLast nonempty = (name.labels.getLast name.filled).getLast shown := by
    simp only [DomainName.text, ← whole]
    exact List.getLast_append_of_ne_nil _ shown
  have inside := List.getLast_mem shown
  rw [last]
  intro dot
  have same : (name.labels.getLast name.filled).getLast shown = 46 := by simpa [ascii] using dot
  rw [same] at inside
  exact name.dotless _ member inside

theorem stringToDns_parts (small : ∀ part ∈ dotParts (undotted text), part.length < 256) :
    stringToDns text = some (plain (dotParts (undotted text))) := by
  have ended : dotParts (undotted text ++ [46]) = dotParts (undotted text) ++ [[]] := dotParts_append _ []
  have parts : Str.split (ascii ".") (Str.rstrip (ascii ".") text ++ ascii ".") =
      dotParts (undotted text) ++ [[]] := (split_dot _).trans ended
  have within : ∀ part ∈ dotParts (undotted text) ++ [[]], part.length < 256 := by
    intro part member
    rcases List.mem_append.mp member with member | last
    · exact small part member
    · rw [List.mem_singleton.mp last]
      decide
  simp only [stringToDns, parts, if_pos within, plain, List.flatMap_append]
  rfl

theorem stringToDns_text (name : DomainName) : stringToDns name.text = some (plain name.labels) := by
  have parts : dotParts (undotted name.text) = name.labels := by
    rw [undotted, rstrip_text]
    exact List.splitOn_intercalate 46 name.dotless name.filled
  rw [stringToDns_parts, parts]
  intro part member
  have sized := (name.sized part (parts ▸ member)).2
  omega

/-- The text of an address is read back as the address. -/
def RecordData.Readable (sockets : Sockets) : RecordData → Prop
  | .a address _ => (inetNtoa address).bind sockets.inetAton = some address
  | .ns _ | .cname _ => True
  | .aaaa address _ => (inetNtop6 address).bind sockets.inetPton6 = some address

def Message.records (message : Message) : List Record :=
  message.answers ++ message.authorities ++ message.additionals

def RecordData.encoded : RecordData → Str
  | .a address _ | .aaaa address _ => address
  | .ns name | .cname name => plain name.labels

def Question.encoded (question : Question) : Str :=
  plain question.name.labels ++ (be16 question.type.definition.value ++ be16 1)

def Record.encoded (record : Record) : Str :=
  plain record.owner.labels ++ (be16 record.data.type.definition.value ++ be16 1 ++ be32 record.ttl ++
    be16 record.data.encoded.length ++ record.data.encoded)

theorem RecordData.written_encoded (packet : Str) (start : Nat) (value : RecordData) :
    value.Written packet start value.encoded := by
  cases value with
  | a | aaaa => rfl
  | ns name | cname name => exact spells_plain name.sized

theorem Question.written_encoded (packet : Str) (start : Nat) (question : Question) :
    question.Written packet start question.encoded :=
  ⟨_, spells_plain question.name.sized, rfl⟩

theorem Record.written_encoded (packet : Str) (start : Nat) (record : Record) :
    record.Written packet start record.encoded :=
  ⟨_, _, spells_plain record.owner.sized, record.data.written_encoded packet _, rfl⟩

theorem laid_flatMap {τ : Type} {written : Nat → Str → τ → Prop} {encoded : τ → Str}
    (each : ∀ start item, written start (encoded item) item) (start : Nat) (items : List τ) :
    Laid written start (items.flatMap encoded) items := by
  induction items generalizing start with
  | nil => exact .nil
  | cons item items ih => exact .cons (each start item) (ih _)

theorem laid_one {τ : Type} {written : Nat → Str → τ → Prop} {bytes : Str} {item : τ}
    (first : written start bytes item) : Laid written start bytes [item] := by
  simpa using Laid.cons first .nil

theorem byname_standard (standard : Standard definitions) (type : RecordType) :
    byname definitions type.definition.name = some type.definition :=
  find_line standard.names (standard.listed type)

theorem packH_small {number : Nat} (small : number < 2 ^ 16) : packH number = some (be16 number) :=
  if_pos small

theorem addQuery_query (standard : Standard definitions) (packet : Str) (question : Question) :
    addQuery definitions packet question.query = some (packet ++ question.encoded) := by
  simp only [addQuery, encodeQuery, Question.query, byname_standard standard, stringToDns_text,
    packH_small question.type.value_lt, packH_small (show 1 < 2 ^ 16 by decide), Option.bind_eq_bind,
    Option.bind_some, Option.pure_def, Question.encoded]

theorem encode_value {value : RecordData} (readable : value.Readable sockets) :
    value.value.bind (fun response => value.type.definition.querytype.encode sockets response) =
      some value.encoded := by
  cases value with
  | a => exact readable
  | aaaa => exact readable
  | ns name => exact stringToDns_text name
  | cname name => exact stringToDns_text name

theorem addResource_resource (standard : Standard definitions) {record : Record}
    (readable : record.data.Readable sockets) (packet : Str) :
    addResource definitions sockets packet record.resource = some (packet ++ record.encoded) := by
  obtain ⟨response, given, encoded⟩ := Option.bind_eq_some_iff.mp (encode_value readable)
  have sized := RecordData.Written.length_lt (record.data.written_encoded packet 0)
  have lasting : packI record.ttl = some (be32 record.ttl) := if_pos record.bounded
  simp only [addResource, encodeResource, Record.resource, byname_standard standard, given, encoded,
    stringToDns_text, packH_small record.data.type.value_lt, packH_small (show 1 < 2 ^ 16 by decide),
    packH_small sized, lasting, Option.bind_eq_bind, Option.bind_some, Option.pure_def, Record.encoded]

theorem foldlM_encoded {τ ρ : Type} {add : Str → ρ → Option Str} {shown : τ → ρ} {encoded : τ → Str}
    {items : List τ} (each : ∀ packet, ∀ item ∈ items, add packet (shown item) = some (packet ++ encoded item))
    (packet : Str) : (items.map shown).foldlM add packet = some (packet ++ items.flatMap encoded) := by
  induction items generalizing packet with
  | nil => simp
  | cons item items ih =>
      have later : ∀ packet, ∀ item ∈ items, add packet (shown item) = some (packet ++ encoded item) :=
        fun packet item member => each packet item (List.mem_cons_of_mem _ member)
      rw [List.map_cons, List.foldlM_cons, each packet item List.mem_cons_self, Option.bind_eq_bind,
        Option.bind_some, ih later, List.flatMap_cons, List.append_assoc]

theorem encodeResponse_serialised (standard : Standard definitions) {message : Message}
    (readable : ∀ record ∈ message.records, record.data.Readable sockets) :
    ∃ packet, encodeResponse definitions sockets message.response = some packet ∧
      Serialised packet message := by
  let packet := message.header (1 <<< 15) ++ (message.questions.flatMap Question.encoded ++
    (message.answers.flatMap Record.encoded ++ (message.authorities.flatMap Record.encoded ++
      message.additionals.flatMap Record.encoded)))
  have laid := laid_flatMap (Record.written_encoded packet)
  refine ⟨packet, ?_, .intro (by decide) (by decide) (by decide)
    (laid_flatMap (Question.written_encoded packet) _ _) (laid _ _) (laid _ _) (laid _ _) rfl⟩
  have counted := message.counted
  simp only [List.forall_mem_cons] at counted
  obtain ⟨asked, answered, authorised, added, -⟩ := counted
  have queries : message.response.queries = message.questions.map Question.query := rfl
  have resources : message.response.resources = message.records.map Record.resource := by
    simp [DNSResponseType.resources, Message.response, Message.records]
  have queried : ∀ packet, (message.questions.map Question.query).foldlM (addQuery definitions) packet =
      some (packet ++ message.questions.flatMap Question.encoded) :=
    foldlM_encoded fun packet question _ => addQuery_query standard packet question
  have followed : ∀ packet, (message.records.map Record.resource).foldlM (addResource definitions sockets)
      packet = some (packet ++ message.records.flatMap Record.encoded) :=
    foldlM_encoded fun packet record member => addResource_resource standard (readable record member) packet
  rw [encodeResponse, queries, resources]
  simp only [Message.response, List.length_map, packH_small message.identified, packH_small asked,
    packH_small answered, packH_small authorised, packH_small added, packH_small (show 1 <<< 15 < 2 ^ 16 by decide),
    Option.bind_eq_bind, Option.bind_some, queried, followed]
  simp only [packet, Message.header, Message.records, List.flatMap_append, List.append_assoc]

/-- Whatever pointers a message is compressed with, decoding returns the response
that says what the message does, and what that response is encoded as is decoded
to it again. -/
theorem decodeResponse_faithful (standard : Standard definitions) (message : Message) :
    (∀ packet, Serialised packet message → Returns (decodeResponse definitions packet) message.response) ∧
    ∀ sockets, (∀ record ∈ message.records, record.data.Readable sockets) →
      ∃ packet, encodeResponse definitions sockets message.response = some packet ∧
        Returns (decodeResponse definitions packet) message.response := by
  constructor
  · intro packet serialised
    exact serialised.returns standard
  · intro sockets readable
    obtain ⟨packet, encoded, serialised⟩ := encodeResponse_serialised standard readable
    exact ⟨packet, encoded, serialised.returns standard⟩

/-- The types of the shipped definitions that are not implemented. -/
def unimplemented : List (String × Nat) := [
    ("MD", 3), ("MF", 4), ("MB", 7), ("MG", 8), ("MR", 9), ("NULL", 10), ("WKS", 11), ("PTR", 12),
    ("HINFO", 13), ("MINFO", 14), ("MX", 15), ("TXT", 16), ("RP", 17), ("AFSDB", 18), ("X25", 19),
    ("ISDN", 20), ("RT", 21), ("NSAP", 22), ("NSAPPTR", 23), ("SIG", 24), ("KEY", 25), ("PX", 26),
    ("GPOS", 27), ("LOC", 29), ("NXT", 30), ("EID", 31), ("NIMLOC", 32), ("SRV", 33), ("ATMA", 34),
    ("NAPTR", 35), ("KX", 36), ("CERT", 37), ("A6", 38), ("DNAME", 39), ("SINK", 40), ("OPT", 41),
    ("APL", 42), ("DS", 43), ("SSHFP", 44), ("IPSECKEY", 45), ("RRSIG", 46), ("NSEC", 47), ("DNSKEY", 48),
    ("DHCID", 49), ("NSEC3", 50), ("NSEC3PARAM", 51), ("HIP", 55), ("NINFO", 56), ("RKEY", 57),
    ("TALINK", 58), ("SPF", 99), ("UINFO", 100), ("UID", 101), ("GID", 102), ("UNSPEC", 103), ("TKEY", 249),
    ("TSIG", 250), ("IXFR", 251), ("AXFR", 252), ("MAILB", 253), ("MAILA", 254), ("STAR", 255),
    ("DNSSECAUTHORITIES", 32768), ("DNSSECLOOKASIDE", 32769)]

/-- The shipped definitions, those with a conversion first. -/
def types : List Definition :=
  [⟨ascii "A", 1, .ipv4⟩, ⟨ascii "NS", 2, .string⟩, ⟨ascii "CNAME", 5, .string⟩,
    ⟨ascii "SOA", 6, .string⟩, ⟨ascii "AAAA", 28, .ipv6⟩] ++
    unimplemented.map fun line => ⟨ascii line.1, line.2, .unimplemented⟩

theorem types_standard : Standard types where
  listed := fun type => by cases type <;> decide
  names := by decide +kernel
  values := by decide +kernel

/-- The name `a.b`. -/
def hostName : DomainName := ⟨[[97], [98]], by decide, by decide, by decide, by decide⟩

def zoneName : DomainName := ⟨[[98]], by decide, by decide, by decide, by decide⟩

def serverName : DomainName := ⟨[[99], [98]], by decide, by decide, by decide, by decide⟩

def hostQuestion : Question := ⟨hostName, .a⟩

def hostAnswer : Record := ⟨hostName, .a [1, 2, 3, 4] rfl, 60, by decide⟩

def hostAuthority : Record := ⟨zoneName, .ns serverName, 300, by decide⟩

def hostMessage : Message where
  identifier := 7
  questions := [hostQuestion]
  answers := [hostAnswer]
  authorities := [hostAuthority]
  additionals := []
  identified := by decide
  counted := by decide

/-- The message with a pointer in each of the names of its records. -/
def hostPacket : Str :=
  [0, 7, 129, 128, 0, 1, 0, 1, 0, 1, 0, 0] ++ [1, 97, 1, 98, 0, 0, 1, 0, 1] ++
    [192, 12, 0, 1, 0, 1, 0, 0, 0, 60, 0, 4, 1, 2, 3, 4] ++
    [192, 14, 0, 2, 0, 1, 0, 0, 1, 44, 0, 4, 1, 99, 192, 14]

/-- Texts of addresses as four numbers in decimal. -/
def decimalSockets : Sockets where
  inetAton := fun text => do
    let numbers ← (Str.split (ascii ".") text).mapM Str.int
    if numbers.length = 4 ∧ ∀ number ∈ numbers, number < 256 then
      return numbers.map fun number => UInt8.ofNat number.toNat
    else none
  inetPton6 := fun _ => none

theorem hostPacket_serialised : Serialised hostPacket hostMessage := by
  have host : Spells hostPacket 12 [1, 97, 1, 98, 0] [[97], [98]] := spells_plain hostName.sized
  have zone : Spells hostPacket 14 [1, 98, 0] [[98]] := spells_plain zoneName.sized
  have hostAgain : Spells hostPacket 21 [192, 12] [[97], [98]] := .pointer (by decide) (by decide) rfl host
  have zoneAgain : ∀ start, 14 < start → Spells hostPacket start [192, 14] [[98]] := fun start later =>
    @Spells.pointer _ start 14 [1, 98, 0] (hostPacket.drop 17) _ later (by decide) (by decide) zone
  have server : Spells hostPacket 49 [1, 99, 192, 14] [[99], [98]] :=
    @Spells.label _ 49 [192, 14] [99] _ (by decide) (by decide) (zoneAgain 51 (by decide))
  have asked : hostQuestion.Written hostPacket 12 [1, 97, 1, 98, 0, 0, 1, 0, 1] := ⟨_, host, rfl⟩
  have answered : hostAnswer.Written hostPacket 21 [192, 12, 0, 1, 0, 1, 0, 0, 0, 60, 0, 4, 1, 2, 3, 4] :=
    ⟨_, _, hostAgain, rfl, rfl⟩
  have authorised : hostAuthority.Written hostPacket 37
      [192, 14, 0, 2, 0, 1, 0, 0, 1, 44, 0, 4, 1, 99, 192, 14] :=
    ⟨_, _, zoneAgain 37 (by decide), server, rfl⟩
  exact @Serialised.intro _ hostMessage 0x8180 _ _ _ [] (by decide) (by decide) (by decide)
    (laid_one asked) (laid_one answered) (laid_one authorised) .nil (by decide)

theorem decodeResponse_faithful_host :
    Returns (decodeResponse types hostPacket) hostMessage.response ∧
      ∃ packet, encodeResponse types decimalSockets hostMessage.response = some packet ∧
        Returns (decodeResponse types packet) hostMessage.response := by
  have faithful := decodeResponse_faithful types_standard hostMessage
  refine ⟨faithful.1 hostPacket hostPacket_serialised, faithful.2 decimalSockets ?_⟩
  intro record member
  rcases List.mem_cons.mp member with rfl | member
  · exact (by decide +kernel :
      (inetNtoa [1, 2, 3, 4]).bind decimalSockets.inetAton = some [1, 2, 3, 4])
  · rcases List.mem_cons.mp member with rfl | member
    · trivial
    · cases member

end ExaProxy.Dns
