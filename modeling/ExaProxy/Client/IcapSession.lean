import ExaProxy.Client.IcapReader
import ExaProxy.Client.Readers
import ExaProxy.Data.Transition

namespace ExaProxy.Client.IcapClient

open Data Http Relation

/-- The mode of the coroutine `_read`; `other` is any name that it does not know. -/
inductive Stage where
  | proxy
  | header (mode : Mode)
  | newRequest | transfer | chunked | other
deriving DecidableEq, Repr

inductive Output where
  | request (icapRequest httpRequest : Str)
  | content (data : Str)
  | nothing
  | closed
deriving DecidableEq, Repr

/-- The local variables of `_read`.  `awaiting` says that the coroutine waits where it has
yielded a request. -/
structure Session where
  stage : Stage
  rBuffer : Str := []
  nbToSend : Nat := 0
  seek : Nat := 0
  icapRequest : Str := []
  httpRequest : Str := []
  awaiting : Bool := false
deriving DecidableEq, Repr

namespace Session

variable (settings : Settings) (maxBuffer : Nat) (session : Session)

def start (proxied : Bool) : Session := { stage := if proxied then .proxy else .header .icap }

/-- `_transfer`; the data is of no matter. -/
def transfer : Session :=
  let length := min session.rBuffer.length session.nbToSend
  let nbToSend := session.nbToSend - length
  { session with
    rBuffer := session.rBuffer.drop length
    nbToSend
    stage := if nbToSend = 0 then .newRequest else session.stage
    seek := 0 }

/-- `_chunked`; the data is of no matter, nor is it if it is invalid. -/
def chunked : Session :=
  let length := min session.rBuffer.length session.nbToSend
  let rBuffer := session.rBuffer.drop length
  let nbToSend := session.nbToSend - length
  let (more, newToSend) := checkChunkSize (rBuffer.drop nbToSend)
  let total := nbToSend + newToSend.getD 0
  { session with
    rBuffer
    nbToSend := total
    stage := if more then session.stage else if total > 0 then .transfer else .newRequest
    seek := 0 }

/-- `process`: no body is passed on. -/
def process : Option Str × Session :=
  match session.stage with
  | .transfer => (some [], session.transfer)
  | .chunked =>
      let after := session.chunked
      (some [], if after.stage = .transfer then after.transfer else after)
  | .proxy | .header _ | .newRequest | .other => (none, session)

/-- The header of a new request is read, with `none` for one that is too long. -/
def readIcap (fuel : Nat) : Except Unfinished (Option Session) :=
  if session.stage = .header .icap then do
    let processed ←
      processICAPRequest session.rBuffer .icap session.nbToSend maxBuffer session.seek fuel
    match processed.icapRequest, processed.rBuffer, processed.seek with
    | some icapRequest, some rBuffer, some seek =>
        return some { session with
          icapRequest, rBuffer, seek, stage := .header processed.mode, nbToSend := processed.nbToSend }
    | _, _, _ => return none
  else return some session

/-- The header of the request that it is about. -/
def readHttp (fuel : Nat) : Except Unfinished (Option Session) :=
  if session.stage = .header .http then do
    match ← checkRequest session.rBuffer maxBuffer session.seek fuel with
    | some (httpRequest, rBuffer, seek) => return some { session with httpRequest, rBuffer, seek }
    | none => return none
  else return some session

/-- A request is yielded, and the coroutine waits for the mode of what follows it. -/
def ask : Output × Session :=
  (.request session.icapRequest session.httpRequest,
    { session with icapRequest := [], httpRequest := [], seek := 0, awaiting := true })

/-- What is yielded once the headers are read. -/
def answer : Output × Session :=
  match session.stage with
  | .header .icap => (.nothing, session)
  | .header .http => if session.httpRequest ≠ [] then session.ask else (.nothing, session)
  | .header .options => session.ask
  | .header .bad | .proxy | .newRequest | .transfer | .chunked | .other =>
      match session.process with
      | (none, after) => (.closed, after)
      | (some data, after) => (if data ≠ [] then .content data else .nothing, after)

/-- The body of the loop, after `recv` and the header of a proxy. -/
def turn (fuel : Nat) : Except Unfinished (Output × Session) := do
  match ← session.readIcap maxBuffer fuel with
  | none => return (.closed, session)
  | some read =>
      match ← read.readHttp maxBuffer fuel with
      | none => return (.closed, read)
      | some read => return read.answer

/-- The mode and the count that are sent to the coroutine; `readData` sends no mode. -/
def accept (mode : Option Client.Mode) (nbToSend : Nat) : Session :=
  if session.awaiting then
    { session with
      stage := match mode with
        | some .newRequest => .newRequest
        | some .transfer => .transfer
        | some .chunked => .chunked
        | _ => .other
      nbToSend
      awaiting := false }
  else session

/-- The loop from its `recv` to its next `yield`. -/
def receive (fuel : Nat) : List Recv → Session → Except Unfinished (Output × Session)
  | [], session => .ok (.nothing, session)
  | .wouldBlock :: _, session => .ok (.nothing, session)
  | .error :: _, session => .ok (.closed, session)
  | .data [] :: _, session => .ok (.closed, session)
  | .data (byte :: bytes) :: recvs, session =>
      let session := { session with rBuffer := session.rBuffer ++ byte :: bytes }
      if session.stage = .proxy then
        match settings.protocol.processHeader eors session.rBuffer with
        | none => .ok (.closed, session)
        | some (clientIp, rBuffer, found) =>
            let session := { session with rBuffer, stage := if found then .header .icap else .proxy }
            if clientIp = [] then receive fuel recvs session else session.turn maxBuffer fuel
      else session.turn maxBuffer fuel

/-- `self.reader.send((mode, nbToSend))`: for a new request there is no `recv`. -/
def resume (mode : Option Client.Mode) (nbToSend : Nat) (recvs : List Recv) (fuel : Nat) :
    Except Unfinished (Output × Session) :=
  let session := session.accept mode nbToSend
  if session.stage = .newRequest then { session with stage := .header .icap }.turn maxBuffer fuel
  else session.receive settings maxBuffer fuel recvs

variable {settings maxBuffer session} {output : Output} {after : Session} {recvs : List Recv}
  {mode : Option Client.Mode} {nbToSend : Nat}

/-- The coroutine has not come to a header. -/
structure Idle (session : Session) : Prop where
  reads : session.stage = .proxy ∨ session.stage = .header .icap
  seek : session.seek = 0
  awaiting : session.awaiting = false

end Session

variable {text word request rest : Str} {size next : Nat}

/-- A text without a line end or a quote among its first bytes is cut behind the fourth. -/
theorem cut_fourth (plain : ∀ byte ∈ text.take 4, byte ≠ 13 ∧ byte ≠ 34)
    (returned : Returns (checkRequest text size 0) (some (request, rest, next))) : request = text.take 4 := by
  obtain ⟨last, cut, skips, follows, _, same⟩ := checkRequest_returns.mp returned
  simp only [Option.some.injEq, Prod.mk.injEq] at same
  have unseen : ∀ pos, ¬ Window text 0 pos := by
    intro pos window
    obtain ⟨_, high, occurs⟩ := window
    have first := occurs.getElem? (show 0 < crlfcrlf.length by decide)
    have member : 13 ∈ text.take 4 := by
      apply List.mem_of_getElem? (i := pos)
      rw [List.getElem?_take_of_lt (by omega)]
      simpa [crlfcrlf] using first
    exact absurd rfl (plain 13 member).1
  have fourth (place : Nat) (step : Next text 0 place) : place = 4 :=
    step.unique (.inl ⟨unseen, rfl⟩)
  have bare : ¬ Quoted text 4 := by
    have unquoted := countQuotes_append [] fun quote => (plain 34 quote).2 rfl
    rw [List.nil_append] at unquoted
    rw [Quoted, unquoted]
    decide
  obtain rfl | ⟨place, step, _⟩ := ReflTransGen.cases_head skips
  · rw [same.1, fourth cut follows]
  · rw [fourth place step.1] at step
    exact absurd step.2 bare

/-- The commands of a request. -/
def commands : List Str := [ascii "OPTIONS", ascii "REQMOD", ascii "RESPMOD"]

theorem requestMode_command (known : requestMode request ≠ .bad) : ∃ command ∈ commands, command <+: request := by
  unfold requestMode at known
  dsimp only at known
  generalize first : ((Str.splitOnce (ascii " ") request).map Prod.fst).getD request = preview at known
  have starts : preview <+: request := by
    cases splits : Str.splitOnce (ascii " ") request with
    | none =>
        rw [splits] at first
        subst first
        exact List.prefix_refl _
    | some parts =>
        rw [splits] at first
        subst first
        have whole := Str.splitOnce_whole splits
        exact ⟨ascii " " ++ parts.2, by rw [← List.append_assoc]; exact whole.symm⟩
  split at known
  · split at known
    · next options => exact ⟨_, by rw [options]; simp [commands], starts⟩
    · split at known
      · next modifies =>
          refine ⟨preview, ?_, starts⟩
          simp only [commands, List.mem_cons] at modifies ⊢
          exact .inr modifies
      · exact absurd rfl known
  · exact absurd rfl known

/-- The search for the end of a header never comes to a command. -/
theorem checked_bad (returned : Returns (checkRequest text size 0) (some (request, rest, next))) :
    requestMode request = .bad := by
  by_contra known
  obtain ⟨command, member, starts⟩ := requestMode_command known
  have plain : 4 < command.length ∧ ∀ byte ∈ command.take 4, byte ≠ 13 ∧ byte ≠ 34 := by
    simp only [commands, List.mem_cons, List.not_mem_nil, or_false] at member
    obtain rfl | rfl | rfl := member <;> decide +kernel
  obtain ⟨_, cut, _, _, _, same⟩ := checkRequest_returns.mp returned
  simp only [Option.some.injEq, Prod.mk.injEq] at same
  have first : text.take 4 = command.take 4 := by
    have whole : command <+: text := starts.trans (same.1 ▸ List.take_prefix cut text)
    obtain ⟨more, rfl⟩ := whole
    exact List.take_append_of_le_length (Nat.le_of_lt plain.1)
  have fourth := cut_fourth (by rw [first]; exact plain.2) returned
  have short := starts.length_le
  rw [fourth, List.length_take] at short
  omega

namespace Session

variable {settings : Settings} {maxBuffer fuel : Nat} {session after : Session} {output : Output}
  {recvs : List Recv} {mode : Option Client.Mode} {nbToSend : Nat}

/-- A text that is more than line ends has no mode, and it ends the session. -/
theorem turn_silent (stage : session.stage = .header .icap) (seek : session.seek = 0)
    (awaiting : session.awaiting = false) (returned : session.turn maxBuffer fuel = .ok (output, after)) :
    output = .closed ∨ output = .nothing ∧ after.Idle := by
  obtain ⟨read, reads, later⟩ := bind_eq_ok.mp returned
  rw [readIcap, if_pos stage, seek] at reads
  obtain ⟨processed, processes, same⟩ := bind_eq_ok.mp reads
  obtain ⟨request, rest, next, checked, rfl⟩ := processICAPRequest_returns.mp ⟨fuel, processes⟩
  by_cases empty : request = []
  · subst empty
    cases same
    cases later
    exact .inr ⟨rfl, .inr rfl, checkRequest_seek checked, awaiting⟩
  · have bad := checked_bad checked
    rw [if_pos empty] at same
    cases same
    dsimp only at later
    rw [bad] at later
    cases later
    exact .inl rfl

theorem processHeader_found {protocol : ProxyProtocol} {ends : List Str} {rBuffer clientIp rest : Str} {found : Bool}
    (claimed : clientIp ≠ []) (header : protocol.processHeader ends rBuffer = some (clientIp, rest, found)) :
    found = true := by
  unfold ProxyProtocol.processHeader at header
  dsimp only at header
  split at header
  · obtain ⟨parsed, _, same⟩ := Option.map_eq_some_iff.mp header
    cases same
    rfl
  · cases header
    exact absurd rfl claimed

/-- Until it has come to a header, the coroutine yields nothing. -/
theorem receive_silent (idle : session.Idle)
    (returned : session.receive settings maxBuffer fuel recvs = .ok (output, after)) :
    output = .closed ∨ output = .nothing ∧ after.Idle := by
  induction recvs generalizing session with
  | nil =>
      cases returned
      exact .inr ⟨rfl, idle⟩
  | cons recv recvs ih =>
      cases recv with
      | wouldBlock =>
          cases returned
          exact .inr ⟨rfl, idle⟩
      | error =>
          cases returned
          exact .inl rfl
      | data bytes =>
          cases bytes with
          | nil =>
              cases returned
              exact .inl rfl
          | cons byte bytes =>
              simp only [receive] at returned
              split at returned
              · split at returned
                · cases returned
                  exact .inl rfl
                · next clientIp rBuffer found header =>
                    split at returned
                    · apply ih _ returned
                      exact ⟨by cases found <;> simp, idle.seek, idle.awaiting⟩
                    · next claimed =>
                        apply turn_silent _ _ _ returned
                        · exact if_pos (processHeader_found claimed header)
                        · exact idle.seek
                        · exact idle.awaiting
              · next unproxied =>
                  apply turn_silent _ _ _ returned
                  · exact idle.reads.resolve_left unproxied
                  · exact idle.seek
                  · exact idle.awaiting

theorem resume_silent (idle : session.Idle)
    (returned : session.resume settings maxBuffer mode nbToSend recvs fuel = .ok (output, after)) :
    output = .closed ∨ output = .nothing ∧ after.Idle := by
  have kept : session.accept mode nbToSend = session := by
    unfold accept
    rw [idle.awaiting]
    rfl
  have stage : session.stage ≠ .newRequest := by
    intro fresh
    rcases fresh ▸ idle.reads with proxied | reads
    · cases proxied
    · cases reads
  rw [resume, kept, if_neg stage] at returned
  exact receive_silent idle returned

theorem start_idle (proxied : Bool) : (start proxied).Idle where
  reads := by cases proxied <;> simp [start]
  seek := rfl
  awaiting := rfl

end Session

/-- What the manager is told. -/
def Output.yielded : Output → Client.Yielded
  | .request icapRequest _ => .request icapRequest
  | .content data => .content data
  | .nothing => .nothing
  | .closed => .closed

/-- What a coroutine has yielded; a search that is still running has yielded nothing. -/
def Session.yielded (session : Session) : Except Unfinished (Output × Session) → Client.Yielded × Session
  | .ok (output, after) => (output.yielded, after)
  | .error .running => (.nothing, session)

/-- The readers of `ICAPClient`. -/
def icapReaders (settings : Settings) (maxBuffer fuel : Nat) : Readers Session where
  start source := .start (settings.proxied source)
  readData session recv := session.yielded (session.resume settings maxBuffer none 0 recv fuel)
  readRelated session mode remaining recv :=
    session.yielded (session.resume settings maxBuffer (some mode) remaining recv fuel)

theorem readData_silent {settings : Settings} {maxBuffer fuel : Nat} {session after : Session} {recvs : List Recv}
    {yielded : Client.Yielded} (idle : session.Idle)
    (read : (icapReaders settings maxBuffer fuel).readData session recvs = (yielded, after)) :
    yielded = .closed ∨ yielded = .nothing ∧ after.Idle := by
  simp only [icapReaders] at read
  cases resumed : session.resume settings maxBuffer none 0 recvs fuel with
  | error unfinished =>
      rw [resumed] at read
      cases read
      exact .inr ⟨rfl, idle⟩
  | ok result =>
      rw [resumed] at read
      cases read
      obtain closed | ⟨nothing, kept⟩ := Session.resume_silent idle resumed
      · exact .inl (by rw [closed]; rfl)
      · exact .inr ⟨by rw [nothing]; rfl, kept⟩

end ExaProxy.Client.IcapClient
