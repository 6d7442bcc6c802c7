import ExaProxy.Client.Flow
import ExaProxy.Data.Transition
import ExaProxy.Network.Functions

namespace ExaProxy.Client

open ExaProxy.Data
open ExaProxy.Content (Remaining)

/-- The `read_size` of `_read`. -/
def readSize : Nat := 64 * 1024

/-- What the calls of `recv` give before one would block; none if one fails first. -/
def arrived : List Recv → Option Str
  | [] | .wouldBlock :: _ => some []
  | .error :: _ | .data [] :: _ => none
  | .data bytes :: recvs => (arrived recvs).map (bytes ++ ·)

/-- The buffer holds the end of a header. -/
def Ended (rBuffer : Str) : Prop := ∃ eor ∈ eors, ∃ pos, Str.Occurs eor (Str.lstrip crlf rBuffer) pos

/-- What follows the chunks is not the end of them, nor may it become that. -/
def Trails (header : Str) : Prop := ¬ crlf <+: header ∧ ¬ [10] <+: header ∧ header ≠ [] ∧ header ≠ [13]

namespace HttpReader

/-- The mode is `proxy`, `http` or `extra-headers`, and the reader has not yielded a request. -/
def Waiting (client : HttpReader) : Prop :=
  client.proxied = true ∨
    client.reader.awaiting = false ∧ (client.reader.mode = .http ∨ client.reader.mode = .extraHeaders)

def Bounded (settings : Settings) (client : HttpReader) : Prop :=
  client.Waiting → client.reader.rBuffer.length ≤ settings.httpMaxBuffer + readSize

def Fresh (client : HttpReader) : Prop := client.reader = {}

/-- The reader is resumed for what remains of a request, which is 0 for `readData`, and
yields to a client that stays connected. -/
structure Yields (settings : Settings) (recvs : List Recv) (before after : HttpReader) : Prop where
  sizes : ∀ bytes, .data bytes ∈ recvs → bytes.length ≤ readSize
  resumed : ∃ remaining yielded, yielded.goesOn = true ∧
    before.resume settings (parseRemaining remaining).1 (parseRemaining remaining).2 recvs = (yielded, after)

def Reached (settings : Settings) : HttpReader → Prop :=
  Reachable Fresh fun before after => ∃ recvs, before.Yields settings recvs after

/-- The two places where the loop comes to a `yield` without a look at the limit. -/
def Fits (settings : Settings) (recvs : List Recv) : HttpReader → Prop
  | ⟨true, reader⟩ => ∀ data, arrived recvs = some data → ¬ Ended (reader.rBuffer ++ data) →
      (Str.lstrip crlf (reader.rBuffer ++ data)).length ≤ settings.httpMaxBuffer + readSize
  | ⟨false, reader⟩ => reader.mode = .endChunk → reader.awaiting = false →
      ∀ bytes ≠ [], recvs.head? = some (.data bytes) →
        Trails ((reader.rBuffer ++ bytes).drop reader.nbToSend) →
          (reader.rBuffer ++ bytes).length ≤ settings.httpMaxBuffer + readSize

/-- As `Reached`, by steps that fit. -/
def Fitted (settings : Settings) : HttpReader → Prop :=
  Reachable Fresh fun before after => ∃ recvs, before.Fits settings recvs ∧ before.Yields settings recvs after

end HttpReader

theorem Ended.append {rBuffer : Str} (ended : Ended rBuffer) (bytes : Str) : Ended (rBuffer ++ bytes) := by
  obtain ⟨eor, mem, pos, occurs⟩ := ended
  have stripped : Str.lstrip crlf rBuffer ≠ [] := by
    intro empty
    rw [empty, Str.Occurs, List.drop_nil, List.prefix_nil] at occurs
    exact eor_ne_nil mem occurs
  refine ⟨eor, mem, pos, ?_⟩
  rw [Str.lstrip_append, if_neg stripped, Str.Occurs, List.drop_append]
  exact occurs.trans (List.prefix_append _ _)

theorem ended_lstrip_append (rBuffer bytes : Str) :
    Ended (Str.lstrip crlf rBuffer ++ bytes) ↔ Ended (rBuffer ++ bytes) := by
  rw [Ended, Str.lstrip_lstrip_append, Ended]

namespace ProxyProtocol

variable {protocol : ProxyProtocol} {rBuffer header clientIp rest : Str}

theorem any_includes_iff :
    (eors.any fun eor => Str.includes eor (Str.lstrip crlf rBuffer)) = true ↔ Ended rBuffer := by
  simp only [List.any_eq_true, Str.includes_iff, Ended]

theorem processHeader_unended (unended : ¬ Ended rBuffer) :
    protocol.processHeader eors rBuffer = some ([], Str.lstrip crlf rBuffer, false) := by
  rw [← any_includes_iff, Bool.not_eq_true] at unended
  simp only [processHeader, unended, Bool.false_eq_true, if_false]

theorem parse_named (ip4 : protocol.ip4 [] = false) (ip6 : protocol.ip6 [] = false)
    (parsed : protocol.parse header = some (clientIp, rest)) : clientIp ≠ [] := by
  simp only [parse] at parsed
  split at parsed
  · cases parsed
  · split at parsed
    · simp only [Option.ite_none_right_eq_some, Option.some.injEq, Prod.mk.injEq] at parsed
      obtain ⟨⟨-, valid⟩, source, -⟩ := parsed
      intro empty
      subst source
      simp [empty, ip4, ip6] at valid
    · cases parsed

theorem processHeader_ended (ended : Ended rBuffer) : protocol.processHeader eors rBuffer =
    (protocol.parse (Str.lstrip crlf rBuffer)).map fun (clientIp, rest) => (clientIp, rest, true) := by
  rw [← any_includes_iff] at ended
  simp only [processHeader, ended, if_true]

end ProxyProtocol

theorem searchEnd_filled {eor rBuffer request rest : Str} {seek next : Nat}
    (found : searchEnd eor rBuffer seek = .found request rest next) : request ≠ [] := by
  rw [searchEnd] at found
  split at found
  · cases found
  · dsimp only at found
    split_ifs at found with empty
    cases found
    exact List.append_ne_nil_of_left_ne_nil empty _

theorem checkRequest_within {rBuffer request rest : Str} {size seek next : Nat} (positive : 0 < size)
    (checked : checkRequest rBuffer size seek = some (request, rest, next)) :
    request ≠ [] ∨ rest.length ≤ size := by
  rw [checkRequest] at checked
  split at checked
  · next found =>
      cases checked
      exact .inl (searchEnd_filled found)
  · split at checked
    · next found =>
        cases checked
        exact .inl (searchEnd_filled found)
    · split_ifs at checked with long
      cases checked
      exact .inr (by omega)

namespace Reader

variable {reader after : Reader} {maxBuffer nbToSend : Nat} {mode : Mode} {yielded : Yielded}

theorem readHttp_waiting (positive : 0 < maxBuffer) (stays : yielded.goesOn = true)
    (read : reader.readHttp maxBuffer = (yielded, after)) (idle : after.awaiting = false) :
    after.rBuffer.length ≤ maxBuffer := by
  simp only [readHttp] at read
  split at read
  · cases read
    cases stays
  · next request rest seek checked =>
      split_ifs at read with filled
      · cases read
        cases idle
      · cases read
        exact (checkRequest_within positive checked).resolve_left filled

theorem headers_waiting (positive : 0 < maxBuffer) {data : Str}
    (read : reader.headers maxBuffer = (some data, after)) (waits : after.mode ≠ .newRequest) :
    after.rBuffer.length ≤ maxBuffer := by
  simp only [headers] at read
  split at read
  · cases read
  · next related rest seek checked =>
      split_ifs at read with filled
      · cases read
        exact absurd rfl waits
      · cases read
        exact (checkRequest_within positive checked).resolve_left filled

/-- The limit holds after a turn, unless the turn comes to the headers behind the chunks. -/
theorem turn_waiting (positive : 0 < maxBuffer) (stays : yielded.goesOn = true)
    (turned : reader.turn maxBuffer = (yielded, after)) (idle : after.awaiting = false)
    (waits : after.mode = .http ∨ after.mode = .extraHeaders) :
    after.rBuffer.length ≤ maxBuffer ∨
      reader.mode = .endChunk ∧ reader.awaiting = false ∧ Trails (reader.rBuffer.drop reader.nbToSend) ∧
        after.rBuffer = reader.rBuffer := by
  rw [turn] at turned
  split_ifs at turned with http
  · exact .inl (readHttp_waiting positive stays turned idle)
  · split at turned
    · cases turned
      cases stays
    · cases turned
      cases stays
    · next data next processed =>
        simp only [Prod.mk.injEq] at turned
        obtain ⟨-, rfl⟩ := turned
        cases mode : reader.mode with
        | http => exact absurd mode http
        | newRequest => simp [process, mode] at processed
        | passthrough =>
            simp only [process, mode, Except.ok.injEq, Prod.mk.injEq] at processed
            obtain ⟨-, rfl⟩ := processed
            simp at waits
        | transfer =>
            simp only [process, mode, Except.ok.injEq, Prod.mk.injEq] at processed
            obtain ⟨-, rfl⟩ := processed
            simp only [transfer, mode] at waits
            split_ifs at waits <;> simp at waits
        | chunked =>
            simp only [process, mode, chunked, Except.ok.injEq, Prod.mk.injEq] at processed
            obtain ⟨-, rfl⟩ := processed
            dsimp only at waits
            split_ifs at waits <;> simp at waits
        | endChunk =>
            simp only [process, mode] at processed
            obtain ⟨⟨text, later⟩, ended, same⟩ := map_ok processed
            simp only [Prod.mk.injEq] at same
            obtain ⟨-, rfl⟩ := same
            simp only [endChunk] at ended
            split_ifs at ended with done line trails
            · cases ended
              simp at waits
            · cases ended
              simp at waits
            · cases ended
              exact .inr ⟨rfl, idle, ⟨done, line, trails.1, trails.2⟩, rfl⟩
        | extraHeaders =>
            have read : reader.headers maxBuffer = (some data, next) := by simpa [process, mode] using processed
            have left : next.mode ≠ .newRequest := by
              intro left
              simp [left] at waits
            exact .inl (headers_waiting positive read left)

theorem turn_trails (mode : reader.mode = .endChunk) (trails : Trails (reader.rBuffer.drop reader.nbToSend)) :
    reader.turn maxBuffer = (.nothing, { reader with mode := .extraHeaders, seek := reader.nbToSend }) := by
  obtain ⟨ended, line, more⟩ := trails
  simp [turn, process, endChunk, mode, ended, line, more, Except.map]

theorem accept_cases (reader : Reader) (remaining : Remaining) :
    reader.accept (parseRemaining remaining).1 (parseRemaining remaining).2 = reader ∨
      ((reader.accept (parseRemaining remaining).1 (parseRemaining remaining).2).mode ≠ .http ∧
        (reader.accept (parseRemaining remaining).1 (parseRemaining remaining).2).mode ≠ .endChunk ∧
        (reader.accept (parseRemaining remaining).1 (parseRemaining remaining).2).mode ≠ .extraHeaders) := by
  have sent : (parseRemaining remaining).1 ≠ .http ∧ (parseRemaining remaining).1 ≠ .endChunk ∧
      (parseRemaining remaining).1 ≠ .extraHeaders := by
    cases remaining with
    | text remaining =>
        simp only [parseRemaining]
        split_ifs <;> simp
    | number remaining =>
        simp only [parseRemaining]
        split_ifs <;> simp
  simp only [accept]
  split_ifs
  · exact .inr sent
  · exact .inl rfl

theorem resume_waiting (positive : 0 < maxBuffer) (stays : yielded.goesOn = true) {remaining : Remaining} {recv : Recv}
    (resumed : reader.resume maxBuffer (parseRemaining remaining).1 (parseRemaining remaining).2 recv =
      (yielded, after))
    (idle : after.awaiting = false) (waits : after.mode = .http ∨ after.mode = .extraHeaders) :
    after.rBuffer.length ≤ maxBuffer ∨ after = reader ∨
      reader.mode = .endChunk ∧ reader.awaiting = false ∧ ∃ bytes ≠ [], recv = .data bytes ∧
        Trails ((reader.rBuffer ++ bytes).drop reader.nbToSend) ∧ after.rBuffer = reader.rBuffer ++ bytes := by
  have accepted := reader.accept_cases remaining
  simp only [resume] at resumed
  generalize reader.accept (parseRemaining remaining).1 (parseRemaining remaining).2 = current at accepted resumed
  split at resumed
  · split at resumed
    · cases resumed
      cases stays
    · next bytes filled =>
        refine (turn_waiting positive stays resumed idle waits).imp_right fun trailing => .inr ?_
        obtain ⟨mode, resting, trails, same⟩ := trailing
        obtain rfl | ⟨-, other, -⟩ := accepted
        · exact ⟨mode, resting, bytes, filled, rfl, trails, same⟩
        · exact absurd mode other
    · cases resumed
      obtain same | ⟨http, -, extra⟩ := accepted
      · exact .inr (.inl same)
      · exact absurd waits (not_or.mpr ⟨http, extra⟩)
    · cases resumed
      cases stays
  · next kept =>
      split_ifs at resumed with fresh
      · obtain limited | ⟨mode, -⟩ := turn_waiting positive stays resumed idle waits
        · exact .inl limited
        · cases mode
      · obtain limited | ⟨mode, -⟩ := turn_waiting positive stays resumed idle waits
        · exact .inl limited
        · simp [receives, mode] at kept

theorem resume_trails (mode : reader.mode = .endChunk) (idle : reader.awaiting = false) {bytes : Str}
    (filled : bytes ≠ []) (trails : Trails ((reader.rBuffer ++ bytes).drop reader.nbToSend)) (sent : Mode) :
    reader.resume maxBuffer sent nbToSend (.data bytes) = (.nothing,
      { reader with rBuffer := reader.rBuffer ++ bytes, mode := .extraHeaders, seek := reader.nbToSend }) := by
  have current : reader.accept sent nbToSend = reader := by simp [accept, idle]
  have receiving : reader.receives = true := by simp [receives, mode]
  rw [resume, current]
  simp only [receiving, if_true]
  · exact turn_trails mode trails
  · exact filled

end Reader

namespace HttpReader

variable {settings : Settings} {mode : Mode} {nbToSend : Nat}

/-- In mode `proxy`, after everything that was seen of the client. -/
def unnamed (seen : Str) : HttpReader := ⟨true, { rBuffer := Str.lstrip crlf seen }⟩

theorem resume_unended {recvs : List Recv} {seen bytes : Str} (some : bytes ≠ [])
    (unended : ¬ Ended (seen ++ bytes)) :
    (unnamed seen).resume settings mode nbToSend (.data bytes :: recvs) =
      (unnamed (seen ++ bytes)).resume settings mode nbToSend recvs := by
  rw [← ended_lstrip_append] at unended
  rw [unnamed, resume]
  · simp only [ProxyProtocol.processHeader_unended unended, if_true, Str.lstrip_lstrip_append]
    rfl
  · exact some

/-- Nothing but what was seen is known of a client that is not named. -/
def Plain (client : HttpReader) : Prop := client.proxied = true → ∃ seen, ¬ Ended seen ∧ client = unnamed seen

variable {recvs : List Recv} {client before after : HttpReader}

theorem Fresh.plain (fresh : client.Fresh) : client.Plain := by
  obtain ⟨proxied, reader⟩ := client
  intro through
  cases through
  refine ⟨[], fun ended => ?_, congrArg (HttpReader.mk true) fresh⟩
  obtain ⟨eor, mem, pos, occurs⟩ := ended
  exact eor_ne_nil mem (by simpa [Str.Occurs, Str.lstrip] using occurs)

theorem Fresh.bounded (fresh : client.Fresh) : client.Bounded settings := by
  intro _
  rw [fresh]
  exact Nat.zero_le _

section Addresses

variable (ip4 : settings.protocol.ip4 [] = false) (ip6 : settings.protocol.ip6 [] = false)

include ip4 ip6

theorem resume_ended {seen bytes : Str} (some : bytes ≠ []) (ended : Ended (seen ++ bytes)) :
    ((unnamed seen).resume settings mode nbToSend (.data bytes :: recvs)).1 = .closed ∨
      ∃ rest, (unnamed seen).resume settings mode nbToSend (.data bytes :: recvs) =
        let (yielded, reader) := ({ rBuffer := rest } : Reader).turn settings.httpMaxBuffer
        (yielded, ⟨false, reader⟩) := by
  rw [← ended_lstrip_append] at ended
  rw [unnamed, resume]
  · rw [ProxyProtocol.processHeader_ended ended]
    cases parsed : settings.protocol.parse (Str.lstrip crlf (Str.lstrip crlf seen ++ bytes)) with
    | none => exact .inl rfl
    | some parts =>
        obtain ⟨clientIp, rest⟩ := parts
        have named := ProxyProtocol.parse_named ip4 ip6 parsed
        simp only [Option.map_some, if_neg named]
        exact .inr ⟨rest, rfl⟩
  · exact some

/-- The loop waits on in mode `proxy`, or it goes on with what follows the header. -/
theorem resume_unnamed (mode : Mode) (nbToSend : Nat) (recvs : List Recv) {seen : Str} (unended : ¬ Ended seen) :
    ((unnamed seen).resume settings mode nbToSend recvs).1 = .closed ∨
    (∃ data, arrived recvs = some data ∧ ¬ Ended (seen ++ data) ∧
      (unnamed seen).resume settings mode nbToSend recvs = (.nothing, unnamed (seen ++ data))) ∨
    (∀ data, arrived recvs = some data → Ended (seen ++ data)) ∧
      ∃ rest, (unnamed seen).resume settings mode nbToSend recvs =
        let (yielded, reader) := ({ rBuffer := rest } : Reader).turn settings.httpMaxBuffer
        (yielded, ⟨false, reader⟩) := by
  induction recvs generalizing seen with
  | nil =>
      refine .inr (.inl ⟨[], rfl, ?_⟩)
      rw [List.append_nil]
      exact ⟨unended, rfl⟩
  | cons recv recvs ih =>
      cases recv with
      | wouldBlock =>
          refine .inr (.inl ⟨[], rfl, ?_⟩)
          rw [List.append_nil]
          exact ⟨unended, rfl⟩
      | error => exact .inl rfl
      | data bytes =>
          by_cases empty : bytes = []
          · subst empty
            exact .inl rfl
          · have more : arrived (.data bytes :: recvs) = (arrived recvs).map (bytes ++ ·) := by
              rw [arrived]
              exact empty
            by_cases ended : Ended (seen ++ bytes)
            · refine (resume_ended ip4 ip6 empty ended).imp_right fun found => .inr ⟨?_, found⟩
              intro data whole
              rw [more, Option.map_eq_some_iff] at whole
              obtain ⟨later, -, rfl⟩ := whole
              rw [← List.append_assoc]
              exact ended.append later
            · rw [resume_unended empty ended, more]
              simpa [List.append_assoc] using ih ended

theorem Yields.cases (plain : before.Plain) (yields : before.Yields settings recvs after) :
    (∃ seen data, before = unnamed seen ∧ arrived recvs = some data ∧ ¬ Ended (seen ++ data) ∧
      after = unnamed (seen ++ data)) ∨
    (∃ seen rest yielded reader, yielded.goesOn = true ∧ before = unnamed seen ∧
      (∀ data, arrived recvs = some data → Ended (seen ++ data)) ∧
      ({ rBuffer := rest } : Reader).turn settings.httpMaxBuffer = (yielded, reader) ∧ after = ⟨false, reader⟩) ∨
    ∃ remaining yielded reader next, yielded.goesOn = true ∧ before = ⟨false, reader⟩ ∧ after = ⟨false, next⟩ ∧
      reader.resume settings.httpMaxBuffer (parseRemaining remaining).1 (parseRemaining remaining).2
        (recvs.headD .wouldBlock) = (yielded, next) := by
  obtain ⟨remaining, yielded, stays, resumed⟩ := yields.resumed
  obtain ⟨proxied, reader⟩ := before
  cases proxied with
  | true =>
      obtain ⟨seen, unended, same⟩ := plain rfl
      rw [same] at resumed ⊢
      obtain closed | ⟨data, came, unended, waits⟩ | ⟨ended, rest, turned⟩ :=
        resume_unnamed ip4 ip6 (parseRemaining remaining).1 (parseRemaining remaining).2 recvs unended
      · rw [resumed] at closed
        cases closed
        cases stays
      · rw [resumed] at waits
        cases waits
        exact .inl ⟨seen, data, rfl, came, unended, rfl⟩
      · rw [resumed] at turned
        cases turned
        exact .inr (.inl ⟨seen, rest, _, _, stays, rfl, ended, rfl, rfl⟩)
  | false =>
      rw [resume] at resumed
      cases resumed
      exact .inr (.inr ⟨remaining, _, reader, _, stays, rfl, rfl, rfl⟩)

theorem Yields.plain (plain : before.Plain) (yields : before.Yields settings recvs after) : after.Plain := by
  obtain ⟨seen, data, -, -, unended, rfl⟩ | ⟨_, _, _, _, -, -, -, -, rfl⟩ | ⟨_, _, _, _, -, -, rfl, -⟩ :=
    yields.cases ip4 ip6 plain
  · exact fun _ => ⟨_, unended, rfl⟩
  · exact Bool.noConfusion
  · exact Bool.noConfusion

theorem Reached.plain (reached : Reached settings client) : client.Plain := by
  refine reached.invariant Plain (fun _ => Fresh.plain) ?_
  intro before after _ plain step
  obtain ⟨recvs, yields⟩ := step
  exact yields.plain ip4 ip6 plain

theorem Yields.bounded_iff (positive : 0 < settings.httpMaxBuffer) (plain : before.Plain)
    (bounded : before.Bounded settings) (yields : before.Yields settings recvs after) :
    after.Bounded settings ↔ before.Fits settings recvs := by
  obtain ⟨seen, data, rfl, came, unended, rfl⟩ | ⟨seen, rest, yielded, reader, stays, rfl, ended, turned, rfl⟩ |
    ⟨remaining, yielded, reader, next, stays, rfl, rfl, resumed⟩ := yields.cases ip4 ip6 plain
  · have waits : (unnamed (seen ++ data)).Waiting := .inl rfl
    simp only [Bounded, waits, true_imp_iff]
    simp only [Fits, unnamed, ended_lstrip_append, Str.lstrip_lstrip_append, came, Option.some.injEq]
    constructor
    · intro fits other same _
      subst same
      exact fits
    · intro fits
      exact fits data rfl unended
  · have fits : (unnamed seen).Fits settings recvs := by
      intro data came unended
      rw [ended_lstrip_append] at unended
      exact absurd (ended data came) unended
    have bounded : HttpReader.Bounded settings ⟨false, reader⟩ := by
      intro waits
      obtain ⟨idle, mode⟩ := waits.resolve_left (by simp)
      obtain limited | ⟨trailing, -⟩ := Reader.turn_waiting positive stays turned idle mode
      · exact limited.trans (Nat.le_add_right _ _)
      · cases trailing
    exact iff_of_true bounded fits
  · constructor
    · intro bounded mode idle bytes filled received trails
      rw [List.headD_eq_head?_getD, received, Option.getD_some,
        Reader.resume_trails mode idle filled trails] at resumed
      cases resumed
      exact bounded (.inr ⟨idle, .inr rfl⟩)
    · intro fits waits
      obtain ⟨idle, waits⟩ := waits.resolve_left (by simp)
      obtain limited | rfl | ⟨mode, resting, bytes, filled, received, trails, same⟩ :=
        Reader.resume_waiting positive stays resumed idle waits
      · exact limited.trans (Nat.le_add_right _ _)
      · exact bounded (.inr ⟨idle, waits⟩)
      · have head : recvs.head? = some (.data bytes) := by
          cases recvs with
          | nil => cases received
          | cons recv recvs => exact congrArg some received
        simpa only [same] using fits mode resting bytes filled head trails

/-- In the modes that have the limit, a client that goes on without an end of its header
is disconnected. -/
theorem Yields.limited (positive : 0 < settings.httpMaxBuffer) (named : before.proxied = false)
    (waits : before.Waiting) (yields : before.Yields settings recvs after)
    (waiting : after.Waiting) : after.reader.rBuffer.length ≤ settings.httpMaxBuffer ∨ after = before := by
  have plain : before.Plain := by
    intro unnamed
    cases named.symm.trans unnamed
  obtain ⟨_, _, rfl, -⟩ | ⟨_, _, _, _, -, rfl, -⟩ | ⟨remaining, yielded, reader, next, stays, rfl, rfl, resumed⟩ :=
    yields.cases ip4 ip6 plain
  · cases named
  · cases named
  · obtain ⟨idle, mode⟩ := waiting.resolve_left (by simp)
    obtain limited | rfl | ⟨trailing, -⟩ := Reader.resume_waiting positive stays resumed idle mode
    · exact .inl limited
    · exact .inr rfl
    · obtain ⟨-, http | extra⟩ := waits.resolve_left (by simp)
      · cases trailing.symm.trans http
      · cases trailing.symm.trans extra

end Addresses

/-- The buffer stays within the limit in every run whose steps fit, and a step that does
not fit takes it over the limit.  Where the limit is looked at, it also holds without what
was read last. -/
theorem bounded_iff_fits (settings : Settings) (positive : 0 < settings.httpMaxBuffer)
    (ip4 : settings.protocol.ip4 [] = false) (ip6 : settings.protocol.ip6 [] = false) :
    (∀ client : HttpReader, Fitted settings client → client.Bounded settings) ∧
    (∀ (recvs : List Recv) (before after : HttpReader), Reached settings before → before.Bounded settings →
      before.Yields settings recvs after → (after.Bounded settings ↔ before.Fits settings recvs)) ∧
    ∀ (recvs : List Recv) (before after : HttpReader), before.proxied = false → before.Waiting →
      before.Yields settings recvs after → after.Waiting →
        after.reader.rBuffer.length ≤ settings.httpMaxBuffer ∨ after = before := by
  refine ⟨fun client reached => ?_, fun recvs before after reached bounded yields => ?_, ?_⟩
  · have invariant : client.Plain ∧ client.Bounded settings := by
      refine reached.invariant (fun client => client.Plain ∧ client.Bounded settings) ?_ ?_
      · exact fun start fresh => ⟨fresh.plain, fresh.bounded⟩
      · intro before after _ held step
        obtain ⟨plain, bounded⟩ := held
        obtain ⟨recvs, fits, yields⟩ := step
        exact ⟨yields.plain ip4 ip6 plain, (yields.bounded_iff ip4 ip6 positive plain bounded).mpr fits⟩
    exact invariant.2
  · exact yields.bounded_iff ip4 ip6 positive (reached.plain ip4 ip6) bounded
  · intro recvs before after named waits yields
    exact yields.limited ip4 ip6 positive named waits

/-- A limit of one byte, for clients that come through a proxy. -/
def oneByte : Settings where
  protocol := ⟨Network.inetPton4, Network.inetPton6⟩
  httpMaxBuffer := 1
  tlsMaxBuffer := 1
  proxied _ := true

def letters (count : Nat) : Str := List.replicate count 65

theorem letters_unended (count : Nat) : ¬ Ended (letters count) := by
  intro ended
  obtain ⟨eor, mem, pos, occurs⟩ := ended
  have feed : 10 ∈ eor := by
    obtain rfl | rfl := mem_eors.mp mem <;> decide
  have within := (List.dropWhile_suffix _).subset (List.mem_of_mem_drop (occurs.subset feed))
  cases List.eq_of_mem_replicate within

theorem letters_lstrip (count : Nat) : Str.lstrip crlf (letters count) = letters count := by
  cases count with
  | zero => rfl
  | succ count => rfl

theorem letters_yields (settings : Settings) (seen : Nat) {count : Nat} (positive : 0 < count)
    (short : count ≤ readSize) :
    (unnamed (letters seen)).Yields settings [.data (letters count)] (unnamed (letters (seen + count))) := by
  have filled : letters count ≠ [] := by simp [letters, Nat.ne_of_gt positive]
  have joined : letters seen ++ letters count = letters (seen + count) := List.replicate_append_replicate
  have unended := letters_unended (seen + count)
  refine ⟨?_, .number 0, .nothing, rfl, ?_⟩
  · intro bytes received
    simp only [List.mem_singleton, Recv.data.injEq] at received
    rwa [received, letters, List.length_replicate]
  · rw [← joined] at unended ⊢
    rw [resume_unended filled unended]
    rfl

theorem bounded_oneByte : (unnamed (letters 1)).Bounded oneByte := by
  have fits : (unnamed (letters 0)).Fits oneByte [.data (letters 1)] := by
    intro data came _
    cases came
    decide
  have fresh : Fitted oneByte (unnamed (letters 0)) := .start rfl
  have fitted := fresh.next ⟨_, fits, letters_yields oneByte 0 (by decide) (by decide)⟩
  exact (bounded_iff_fits oneByte (by decide) (by decide) (by decide)).1 _ fitted

/-- Two full reads without an end of the header, and the reader waits on. -/
theorem buffer_unbounded : ∃ client : HttpReader, Reached oneByte client ∧ ¬ client.Bounded oneByte := by
  have fresh : Reached oneByte (unnamed (letters 0)) := .start rfl
  have full : 0 < readSize := by decide
  have once := fresh.next ⟨_, letters_yields oneByte 0 full (Nat.le_refl _)⟩
  have twice := once.next ⟨_, letters_yields oneByte _ full (Nat.le_refl _)⟩
  refine ⟨_, twice, fun bounded => ?_⟩
  have size := bounded (.inl rfl)
  rw [unnamed, letters_lstrip, letters, List.length_replicate] at size
  exact absurd size (by decide)

end HttpReader

end ExaProxy.Client
