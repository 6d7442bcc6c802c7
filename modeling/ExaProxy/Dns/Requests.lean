import ExaProxy.Dns.Encoding

namespace ExaProxy.Dns

open ExaProxy.Data

/-! The requests that ask for a name, and what is read of them again.  As for
responses, `none` of the encoder is for a call that raises an exception. -/

structure DNSRequestType where
  identifier : Nat
  queries : List DNSQueryType
  flags : Nat := 256
deriving DecidableEq, Repr

namespace DNSRequestType

def queryLen (request : DNSRequestType) : Nat := request.queries.length

def addQuestion (request : DNSRequestType) (querytype question : Str) : DNSRequestType :=
  { request with queries := request.queries ++ [{ querytype := some querytype, question }] }

end DNSRequestType

def encodeRequest (definitions : List Definition) (request : DNSRequestType) : Option Str := do
  let header := (← packH request.identifier) ++ (← packH request.flags) ++ (← packH request.queryLen) ++
    [0, 0, 0, 0, 0, 0]
  request.queries.foldlM (addQuery definitions) header

/-- `createRequestString`; the `OverflowError` that it would return `None` for is
caught in `string_to_dns` already. -/
def createRequestString (definitions : List Definition) (identifier : Nat) (requestType requestName : Str)
    (extended : Bool) : Option Str := do
  let request : DNSRequestType := { identifier, queries := [] }
  let encoded ← encodeRequest definitions (request.addQuestion requestType requestName)
  if extended then return (← packH encoded.length) ++ encoded
  else return encoded

/-- `self.request_factory(header.identifier, queries) if queries else None` -/
def DNSRequestType.ofQueries (identifier : Nat) : Option (List DNSQueryType) → Option DNSRequestType
  | some (query :: queries) => some { identifier, queries := query :: queries }
  | _ => none

def decodeRequest (definitions : List Definition) (packet : Str) (fuel : Nat) :
    Except Fault (Option DNSRequestType) := do
  let header ← DNSHeader.read packet
  if header.qr = 0 then
    let (queries, _) ← decodeQueries definitions packet header.queryLen (packet.drop 12) fuel
    return DNSRequestType.ofQueries header.identifier queries
  else return none

variable {definitions : List Definition} {packet bytes data rest text name : Str} {labels more : List Str}
  {limit fuel number : Nat}

section Parts

/-- The parts of names that are joined are parts of one of them. -/
theorem dotParts_joinDots {part : Str} (member : part ∈ dotParts (joinDots labels)) :
    part = [] ∨ ∃ label ∈ labels, part ∈ dotParts label := by
  induction labels with
  | nil =>
      have empty : dotParts (joinDots []) = [[]] := rfl
      rw [empty, List.mem_singleton] at member
      exact .inl member
  | cons label labels ih =>
      by_cases last : labels = []
      · subst last
        rw [joinDots_singleton] at member
        exact .inr ⟨label, List.mem_cons_self, member⟩
      · rw [joinDots_cons label last, dotParts_append] at member
        rcases List.mem_append.mp member with first | later
        · exact .inr ⟨label, List.mem_cons_self, first⟩
        · exact (ih later).imp_right fun ⟨other, among, inside⟩ =>
            ⟨other, List.mem_cons_of_mem _ among, inside⟩

theorem dotParts_length {part : Str} (member : part ∈ dotParts text) : part.length ≤ text.length := by
  have whole := joinDots_length (dotParts_ne_nil text)
  obtain ⟨before, after, split⟩ := List.append_of_mem member
  rw [joinDots_dotParts, split, wireLength_append, wireLength_cons] at whole
  omega

theorem undotted_dots (text : Str) : ∃ dots : Str, text = undotted text ++ dots ∧ ∀ byte ∈ dots, byte = 46 := by
  refine ⟨text.rtakeWhile (· ∈ ascii "."), List.rdropWhile_append_rtakeWhile.symm, ?_⟩
  intro byte member
  have dot := List.mem_rtakeWhile_imp member
  simpa [ascii] using dot

theorem undotted_parts {part : Str} (member : part ∈ dotParts (undotted text)) : part ∈ dotParts text := by
  obtain ⟨dots, whole, all⟩ := undotted_dots text
  rw [whole]
  cases dots with
  | nil => rwa [List.append_nil]
  | cons dot dots =>
      rw [all dot List.mem_cons_self, dotParts_append]
      exact List.mem_append_left _ member

end Parts

section Wire

theorem plain_cons (label : Str) (labels : List Str) :
    plain (label :: labels) = UInt8.ofNat label.length :: (label ++ plain labels) := by
  simp [plain]

theorem plain_length (labels : List Str) : (plain labels).length = wireLength labels + 1 := by
  induction labels with
  | nil => rfl
  | cons label labels ih =>
      rw [plain_cons, wireLength_cons, List.length_cons, List.length_append, ih]
      omega

theorem plain_empty (labels more : List Str) : plain (labels ++ [] :: more) = plain labels ++ plain more := by
  simp [plain]

/-- The labels that are read as such. -/
def Legible (labels : List Str) : Prop := ∀ label ∈ labels, label ≠ [] ∧ label.length < 192

theorem dnsStringLoop_plain (legible : Legible labels) (rest : Str) {remaining : Int} (bytesRead : Nat)
    (parts : List Str) (counted : remaining = (plain labels ++ rest).length) :
    dnsStringLoop remaining bytesRead parts (plain labels ++ rest) =
      .ok (some (bytesRead + (plain labels).length), parts ++ labels, none) := by
  induction labels generalizing remaining bytesRead parts with
  | nil =>
      rw [plain, List.flatMap_nil, List.nil_append, List.singleton_append, dnsStringLoop_zero rfl, List.append_nil]
      rfl
  | cons label labels ih =>
      obtain ⟨⟨nonempty, short⟩, legible⟩ := List.forall_mem_cons.mp legible
      have positive := List.length_pos_iff.mpr nonempty
      have size : u8 (UInt8.ofNat label.length) = label.length := u8_ofNat (by omega)
      have left := plain_length labels
      rw [plain_cons] at counted ⊢
      simp only [List.cons_append, List.append_assoc, List.length_cons, List.length_append] at counted ⊢
      rw [dnsStringLoop_label (by omega) (by omega) (by omega), size, List.take_left, List.drop_left,
        ih legible _ _ (by rw [List.length_append]; omega)]
      simp only [List.append_assoc, List.singleton_append, Except.ok.injEq, Prod.mk.injEq, Option.some.injEq,
        and_true]
      omega

theorem dnsToStringInfo_plain (legible : Legible labels) (rest packet : Str) (fuel : Nat) :
    dnsToStringInfo fuel (plain labels ++ rest) packet =
      .ok (some (plain labels).length, some (joinDots labels)) := by
  have read := dnsStringLoop_plain legible rest 0 [] rfl
  rw [Nat.zero_add, List.nil_append] at read
  simp only [dnsToStringInfo, dnsString_eq read, bind, Except.bind, pure, Except.pure, joinDots_firstParts]

end Wire

section Short

/-- No part between the dots has so many bytes. -/
def Short (limit : Nat) (text : Str) : Prop := ∀ part ∈ dotParts text, part.length < limit

theorem short_joinDots (positive : 0 < limit) (all : ∀ label ∈ labels, Short limit label) :
    Short limit (joinDots labels) := by
  intro part member
  rcases dotParts_joinDots member with rfl | ⟨label, among, inside⟩
  · exact positive
  · exact all label among part inside

theorem Short.of_length (short : text.length < limit) : Short limit text :=
  fun _ member => Nat.lt_of_le_of_lt (dotParts_length member) short

theorem Short.undotted (short : Short limit text) : Short limit (undotted text) :=
  fun part member => short part (undotted_parts member)

theorem dnsStringLoop_short {remaining : Int} {bytesRead : Nat} {count next : Option Nat} {parts : List Str}
    (read : dnsStringLoop remaining bytesRead parts data = .ok (count, labels, next))
    (all : ∀ label ∈ parts, label.length < 192) : ∀ label ∈ labels, label.length < 192 := by
  induction remaining, bytesRead, parts, data using dnsStringLoop.induct with
  | case1 remaining bytesRead parts =>
      simp only [dnsStringLoop, Except.ok.injEq, Prod.mk.injEq] at read
      simp [← read.2.1]
  | case2 remaining bytesRead parts char length pointer =>
      simp only [dnsStringLoop, pointer, length, if_true] at read
      cases read
  | case3 remaining bytesRead parts char length pointer low tail =>
      simp only [dnsStringLoop, pointer, length, if_true, Except.ok.injEq, Prod.mk.injEq] at read
      rwa [← read.2.1]
  | case4 remaining bytesRead parts char rest length short zero =>
      rw [dnsStringLoop_zero zero] at read
      cases read
      exact all
  | case5 remaining bytesRead parts char rest length left short nonzero ended =>
      rw [dnsStringLoop_cut short nonzero ended] at read
      cases read
      simp
  | case6 remaining bytesRead parts char rest length left short nonzero enough ih =>
      rw [dnsStringLoop_label short nonzero enough] at read
      refine ih read fun label member => ?_
      rcases List.mem_append.mp member with earlier | last
      · exact all label earlier
      · have taken := List.length_take_le length rest
        rw [List.mem_singleton.mp last]
        omega

theorem dnsString_short {count next : Option Nat} (read : dnsString data = .ok (count, some text, next)) :
    Short 192 text := by
  obtain ⟨⟨bytesRead, labels, ptr⟩, loop, same⟩ := bind_eq_ok.mp read
  cases same
  exact short_joinDots (by decide) fun label member =>
    .of_length (dnsStringLoop_short loop (by simp) label member)

theorem firstParts_short (short : Short limit text) : ∀ part ∈ firstParts (some text), Short limit part := by
  cases text with
  | nil => simp [firstParts]
  | cons byte text => simpa [firstParts] using short

theorem followPointer_ok {parts collected : List Str} {ptr : Nat}
    (left : followPointer packet (parts, ptr) = .inr (.ok (some collected))) :
    ∃ count name, dnsString (packet.drop ptr) = .ok (count, some name, none) ∧
      collected = parts ++ firstParts (some name) := by
  simp only [followPointer] at left
  split at left
  · cases left
  · cases left
  · next count name next read =>
      rw [← append_firstParts] at left
      split at left
      · cases left
      · cases next with
        | none =>
            cases left
            exact ⟨count, name, read, rfl⟩
        | some next => cases left

theorem short_append {parts : List Str} (short : ∀ part ∈ parts, Short limit part) (named : Short limit name) :
    ∀ part ∈ parts ++ firstParts (some name), Short limit part :=
  List.forall_mem_append.mpr ⟨short, firstParts_short named⟩

/-- Whatever is read of a packet, no label has 192 bytes. -/
theorem dnsToStringInfo_short {count : Option Nat}
    (read : dnsToStringInfo fuel data packet = .ok (count, some text)) : Short 192 text := by
  obtain ⟨⟨bytesRead, value, next⟩, first, read⟩ := bind_eq_ok.mp read
  obtain ⟨name, rfl⟩ : ∃ name, value = some name := dnsString_named first
  have head := firstParts_short (dnsString_short first)
  cases next with
  | none =>
      cases read
      exact short_joinDots (by decide) head
  | some ptr =>
      have kept : ∀ last, Relation.ReflTransGen (Loop.Next (followPointer packet)) (firstParts (some name), ptr) last →
          ∀ part ∈ last.1, Short 192 part := by
        intro last path
        induction path with
        | refl => exact head
        | tail _ next ih =>
            obtain ⟨_, added, read, collected, _⟩ := next_iff.mp next
            rw [collected]
            exact short_append ih (dnsString_short read)
      simp only at read
      split at read
      · cases read
      · cases read
      · next parts finished =>
          obtain ⟨last, path, left⟩ := Loop.run_eq_some_iff.mp ⟨fuel, finished⟩
          cases parts with
          | none => cases read
          | some collected =>
              cases read
              obtain ⟨_, added, ended, rfl⟩ := followPointer_ok left
              exact short_joinDots (by decide) (short_append (kept last path) (dnsString_short ended))

end Short

/-- The packet that asks for a name that was encoded, and for a type. -/
def requestPacket (identifier value : Nat) (name : Str) : Str :=
  be16 identifier ++ be16 256 ++ be16 1 ++ [0, 0, 0, 0, 0, 0] ++ (name ++ (be16 value ++ be16 1))

variable {identifier value : Nat} {definition : Definition}

theorem createRequestString_eq (unique : (definitions.map Definition.name).Nodup) (listed : definition ∈ definitions)
    (identified : identifier < 2 ^ 16) (typed : definition.value < 2 ^ 16)
    (small : ∀ part ∈ dotParts (undotted text), part.length < 256) :
    createRequestString definitions identifier definition.name text false =
      some (requestPacket identifier definition.value (plain (dotParts (undotted text)))) := by
  have found : byname definitions definition.name = some definition := find_line unique listed
  simp only [createRequestString, encodeRequest, DNSRequestType.addQuestion, DNSRequestType.queryLen,
    List.nil_append, List.length_singleton, packH_small identified, packH_small (show 256 < 2 ^ 16 by decide),
    packH_small (show 1 < 2 ^ 16 by decide), List.foldlM_cons, List.foldlM_nil, addQuery, encodeQuery, found,
    stringToDns_parts small, packH_small typed, Option.bind_eq_bind, Option.bind_some, Option.pure_def,
    Bool.false_eq_true, if_false, requestPacket]

theorem requestHeader_read (identified : identifier < 2 ^ 16) (rest : Str) :
    ∃ header, DNSHeader.read (be16 identifier ++ be16 256 ++ be16 1 ++ [0, 0, 0, 0, 0, 0] ++ rest) = .ok header ∧
      header.identifier = identifier ∧ header.qr = 0 ∧ header.queryLen = 1 := by
  let packet := be16 identifier ++ be16 256 ++ be16 1 ++ [0, 0, 0, 0, 0, 0] ++ rest
  have first : packet.slice 0 2 = be16 identifier := rfl
  have second : packet.slice 2 4 = be16 256 := rfl
  have third : packet.slice 4 6 = be16 1 := rfl
  have fourth : packet.slice 6 8 = be16 0 := rfl
  have fifth : packet.slice 8 10 = be16 0 := rfl
  have sixth : packet.slice 10 12 = be16 0 := rfl
  change ∃ header, DNSHeader.read packet = .ok header ∧ _
  simp only [DNSHeader.read, first, second, third, fourth, fifth, sixth, u16_be16 identified,
    u16_be16 (show 256 < 2 ^ 16 by decide), u16_be16 (show 1 < 2 ^ 16 by decide),
    u16_be16 (show 0 < 2 ^ 16 by decide), bind, Except.bind, pure, Except.pure, Except.ok.injEq, exists_eq_left',
    true_and]
  decide

theorem decodeRequest_packet (identified : identifier < 2 ^ 16) (fuel : Nat) :
    decodeRequest definitions (requestPacket identifier value name) fuel =
      (DNSQuery.read (requestPacket identifier value name) (name ++ (be16 value ++ be16 1)) fuel).map
        fun query => query.map fun query => { identifier, queries := [decodeQuery definitions query] } := by
  obtain ⟨header, read, same, request, one⟩ := requestHeader_read identified (name ++ (be16 value ++ be16 1))
  have body : (requestPacket identifier value name).drop 12 = name ++ (be16 value ++ be16 1) := rfl
  simp only [decodeRequest, show DNSHeader.read (requestPacket identifier value name) = .ok header from read,
    body, same, request, one, decodeQueries, decodeRecords, bind, Except.bind, pure, Except.pure, if_true]
  cases DNSQuery.read (requestPacket identifier value name) (name ++ (be16 value ++ be16 1)) fuel with
  | error fault => rfl
  | ok query => cases query <;> rfl

theorem query_read_ok {query : DNSQuery} (read : DNSQuery.read packet data fuel = .ok (some query)) :
    ∃ count, dnsToStringInfo fuel data packet = .ok (count, some query.question) ∧ query.question ≠ [] := by
  obtain ⟨⟨count, name⟩, named, fields⟩ := bind_eq_ok.mp read
  refine ⟨count, ?_⟩
  match name with
  | none => cases fields
  | some [] => cases fields
  | some (char :: label) =>
      simp only [DNSQuery.readFields] at fields
      split at fields
      · obtain ⟨querytype, _, fields⟩ := bind_eq_ok.mp fields
        obtain ⟨queryclass, _, fields⟩ := bind_eq_ok.mp fields
        obtain ⟨length, _, fields⟩ := bind_eq_ok.mp fields
        cases fields
        exact ⟨named, by simp⟩
      · cases fields

end ExaProxy.Dns
