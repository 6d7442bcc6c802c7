import ExaProxy.Data.Fuel
import ExaProxy.Dns.Convert

namespace ExaProxy.Dns

open ExaProxy.Data

/-! Decoding a DNS response.  `fuel` bounds the pointers followed in any one
name.  The decoder's table of the names it has read, `names`, is filled in and
never looked at, and left out. -/

structure DNSHeader where
  identifier : Nat
  qr : Nat
  opcode : Nat
  aa : Nat
  tc : Nat
  rd : Nat
  ra : Nat
  z : Nat
  ad : Nat
  cd : Nat
  rcode : Nat
  queryLen : Nat
  responseLen : Nat
  authorityLen : Nat
  additionalLen : Nat
deriving DecidableEq, Repr

def DNSHeader.read (packet : Str) : Except Fault DNSHeader := do
  let identifier ← u16 (packet.slice 0 2)
  let flags ← u16 (packet.slice 2 4)
  let queryLen ← u16 (packet.slice 4 6)
  let responseLen ← u16 (packet.slice 6 8)
  let authorityLen ← u16 (packet.slice 8 10)
  let additionalLen ← u16 (packet.slice 10 12)
  return {
    identifier
    qr := flags >>> 15
    opcode := (flags >>> 11) &&& 15
    aa := (flags >>> 10) &&& 1
    tc := (flags >>> 9) &&& 1
    rd := (flags >>> 8) &&& 1
    ra := (flags >>> 7) &&& 1
    z := (flags >>> 6) &&& 1
    ad := (flags >>> 5) &&& 1
    cd := (flags >>> 4) &&& 1
    rcode := flags &&& 1
    queryLen, responseLen, authorityLen, additionalLen }

/-- A question that was read in full; the constructor leaves every attribute
`None` for one that was not. -/
structure DNSQuery where
  question : Str
  querytype : Nat
  queryclass : Nat
  len : Nat
deriving DecidableEq, Repr

/-- `total_read + count`, where `total_read` may be `None`. -/
def addRead (totalRead : Option Nat) (count : Nat) : Except Fault Nat :=
  match totalRead with
  | none => throw .typeError
  | some total => return total + count

def DNSQuery.readFields (data : Str) :
    Option Nat × Option Str → Except Fault (Option DNSQuery)
  | (totalRead, some (char :: label)) => do
      let data := data.drop (totalRead.getD 0)
      if data.length ≥ 4 then
        let querytype ← u16 (Str.slice data 0 2)
        let queryclass ← u16 (Str.slice data 2 4)
        let len ← addRead totalRead 4
        return some { question := char :: label, querytype, queryclass, len }
      else return none
  | _ => return none

def DNSQuery.read (packet : Str) (data : Str) (fuel : Nat) : Except Fault (Option DNSQuery) := do
  let owner ← dnsToStringInfo fuel data packet
  DNSQuery.readFields data owner

structure DNSResource where
  question : Str
  querytype : Nat
  queryclass : Nat
  ttl : Nat
  rdata : Str
  len : Nat
deriving DecidableEq, Repr

/-- The owner name of a resource; the root is written as a dot. -/
def DNSResource.readName (packet data : Str) (fuel : Nat) :
    Except Fault (Option Nat × Option Str) :=
  if data.head? = some 0 then return (some 1, some (ascii "."))
  else dnsToStringInfo fuel data packet

/-- What follows the owner name. -/
def DNSResource.readFields (data : Str) :
    Option Nat × Option Str → Except Fault (Option DNSResource)
  | (totalRead, some (char :: label)) => do
      let data := data.drop (totalRead.getD 0)
      let rdataLen ← u16 (Str.slice data 8 10)
      if data.length ≥ 10 + rdataLen then
        let querytype ← u16 (Str.slice data 0 2)
        let queryclass ← u16 (Str.slice data 2 4)
        let ttl ← u32 (Str.slice data 4 8)
        let len ← addRead totalRead (10 + rdataLen)
        return some {
          question := char :: label, querytype, queryclass, ttl
          rdata := Str.slice data 10 (10 + rdataLen), len }
      else return none
  | _ => return none

def DNSResource.read (packet : Str) (data : Str) (fuel : Nat) :
    Except Fault (Option DNSResource) := do
  let owner ← DNSResource.readName packet data fuel
  DNSResource.readFields data owner

/-- How the data of a record is converted. -/
inductive Conversion where
  | ipv4
  | ipv6
  | string
  | unimplemented
deriving DecidableEq, Repr

/-- A line of the type definitions. -/
structure Definition where
  name : Str
  value : Nat
  querytype : Conversion
deriving DecidableEq, Repr

structure DNSQueryType where
  querytype : Option Str
  question : Str
  dnsclass : Nat := 1
deriving DecidableEq, Repr

structure DNSResourceType where
  querytype : Option Str
  question : Str
  response : Option Str
  ttl : Nat
  dnsclass : Nat := 1
deriving DecidableEq, Repr

/-- `self.byvalue.get(value)` -/
def byvalue (definitions : List Definition) (value : Nat) : Option Definition :=
  definitions.find? fun definition => definition.value = value

def decodeQuery (definitions : List Definition) (query : DNSQuery) : DNSQueryType where
  querytype := (byvalue definitions query.querytype).map Definition.name
  question := query.question

def Conversion.decode (response packet : Str) (fuel : Nat) :
    Conversion → Except Fault (Option Str)
  | .ipv4 => some <$> dnsToIpv4 response
  | .ipv6 => some <$> dnsToIpv6 response
  | .string => dnsToString fuel response packet
  | .unimplemented => return none

/-- `decoder(response, data_s)` where the type is known. -/
def decodeRdata (definitions : List Definition) (packet : Str) (resource : DNSResource)
    (fuel : Nat) : Except Fault (Option Str) :=
  match byvalue definitions resource.querytype with
  | some definition => definition.querytype.decode resource.rdata packet fuel
  | none => return none

def decodeResource (definitions : List Definition) (packet : Str) (resource : DNSResource)
    (fuel : Nat) : Except Fault DNSResourceType := do
  let decoded ← decodeRdata definitions packet resource fuel
  return {
    querytype := (byvalue definitions resource.querytype).map Definition.name
    question := resource.question
    response := decoded
    ttl := resource.ttl }

/-- `_decodeRecords`: the records, unless one of them is not complete, and the
data after them. -/
def decodeRecords {ρ : Type} (decoder : Str → Nat → Except Fault (Option ρ)) (len : ρ → Nat)
    (fuel : Nat) : Nat → Str → Except Fault (Option (List ρ) × Str)
  | 0, data => return (some [], data)
  | count + 1, data => do
      match ← decoder data fuel with
      | none => return (none, [])
      | some record =>
          let (records, data) ← decodeRecords decoder len fuel count (data.drop (len record))
          return (records.map (record :: ·), data)

def decodeQueries (definitions : List Definition) (packet : Str) (count : Nat) (data : Str)
    (fuel : Nat) : Except Fault (Option (List DNSQueryType) × Str) := do
  let (queries, data) ← decodeRecords (DNSQuery.read packet) DNSQuery.len fuel count data
  return (queries.map (List.map (decodeQuery definitions)), data)

/-- The records of a section that was read in full, with their data converted. -/
def decodeAll (definitions : List Definition) (packet : Str) :
    Option (List DNSResource) × Str → Nat → Except Fault (Option (List DNSResourceType) × Str)
  | (none, data), _ => return (none, data)
  | (some resources, data), fuel => do
      let decoded ← resources.mapM fun resource => decodeResource definitions packet resource fuel
      return (some decoded, data)

def decodeResources (definitions : List Definition) (packet : Str) (count : Nat) (data : Str)
    (fuel : Nat) : Except Fault (Option (List DNSResourceType) × Str) := do
  let found ← decodeRecords (DNSResource.read packet) DNSResource.len fuel count data
  decodeAll definitions packet found fuel

structure DNSResponseType where
  identifier : Nat
  complete : Bool
  queries : List DNSQueryType
  responses : List DNSResourceType
  authorities : List DNSResourceType
  additionals : List DNSResourceType
deriving DecidableEq, Repr

/-- The constructor keeps the sections only when the response is complete and
every one of them was read. -/
def DNSResponseType.new (identifier : Nat) (complete : Bool) (queries : Option (List DNSQueryType))
    (responses authorities additionals : Option (List DNSResourceType)) : DNSResponseType :=
  match complete, queries, responses, authorities, additionals with
  | true, some queries, some responses, some authorities, some additionals =>
      { identifier, complete := true, queries, responses, authorities, additionals }
  | complete, _, _, _, _ =>
      { identifier, complete, queries := [], responses := [], authorities := [], additionals := [] }

/-- `qtype` and `qhost`, those of the first question. -/
def DNSResponseType.qtype (response : DNSResponseType) : Option Str :=
  response.queries.head?.bind DNSQueryType.querytype

def DNSResponseType.qhost (response : DNSResponseType) : Option Str :=
  response.queries.head?.map DNSQueryType.question

/-- `decodeResponse` for a packet with the response bit. -/
def decodeSections (definitions : List Definition) (packet : Str) (header : DNSHeader)
    (fuel : Nat) : Except Fault DNSResponseType := do
  let queries ← decodeQueries definitions packet header.queryLen (packet.drop 12) fuel
  let responses ← decodeResources definitions packet header.responseLen queries.2 fuel
  let authorities ← decodeResources definitions packet header.authorityLen responses.2 fuel
  let additionals ← decodeResources definitions packet header.additionalLen authorities.2 fuel
  return .new header.identifier (header.tc = 0) queries.1 responses.1 authorities.1 additionals.1

def decodeResponse (definitions : List Definition) (packet : Str) (fuel : Nat) :
    Except Fault DNSResponseType := do
  let header ← DNSHeader.read packet
  if header.qr = 1 then decodeSections definitions packet header fuel
  else return .new header.identifier (header.tc = 0) none none none none

/-- The message in a packet; over TCP it follows its length, and a length that
is not its own leaves nothing of it. -/
def message (response : Str) (extended : Bool) : Except Fault Str := do
  if extended then
    let length ← u16 ((response ++ [0, 0]).slice 0 2)
    let response := response.drop 2
    return if length ≠ response.length then [] else response
  else return response

def normalizeResponse (definitions : List Definition) (response : Str) (extended : Bool)
    (fuel : Nat) : Except Fault (Bool × Option DNSResponseType) := do
  let response ← message response extended
  if response ≠ [] then
    let decoded ← decodeResponse definitions response fuel
    return (true, some decoded)
  else return (false, none)

end ExaProxy.Dns
