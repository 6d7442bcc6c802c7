import ExaProxy.Client.Readers

namespace ExaProxy.Client

open ExaProxy.Data
open ExaProxy.Content (Send Reply)

/-- The modes in which the data of a request is read. -/
def Mode.carries : Mode → Bool
  | .transfer | .chunked | .endChunk | .extraHeaders | .passthrough => true
  | .http | .newRequest => false

namespace Reader

variable {reader : Reader} {maxBuffer nbToSend : Nat} {mode : Mode} {recv : Recv}

/-- What a turn of the loop yields, and in which mode it leaves the reader. -/
structure Turned (reader : Reader) (result : Yielded × Reader) : Prop where
  asked : ∀ text, result.1 = .request text → result.2.awaiting = true
  carried : ∀ data, result.1 = .content data → reader.mode.carries = true
  carries : result.2.mode.carries = true → reader.mode.carries = true
  awaiting : result.2.awaiting = false → reader.awaiting = false

theorem readHttp_turned (reader : Reader) (maxBuffer : Nat) :
    Turned reader (reader.readHttp maxBuffer) := by
  simp only [readHttp]
  split
  · exact ⟨by simp, by simp, id, id⟩
  · split
    · exact ⟨by simp, by simp, id, by simp⟩
    · exact ⟨by simp, by simp, id, id⟩

/-- Data is only read in a mode for it. -/
theorem process_carries {data : Option Str} {after : Reader}
    (ok : reader.process maxBuffer = .ok (data, after)) :
    after.awaiting = reader.awaiting ∧ reader.mode.carries = true := by
  unfold process at ok
  cases mode : reader.mode with
  | http => simp [mode] at ok
  | newRequest => simp [mode] at ok
  | passthrough =>
      simp only [mode, Except.ok.injEq, Prod.mk.injEq] at ok
      exact ⟨ok.2 ▸ rfl, rfl⟩
  | transfer =>
      simp only [mode, Except.ok.injEq, Prod.mk.injEq] at ok
      exact ⟨ok.2 ▸ rfl, rfl⟩
  | chunked =>
      simp only [mode, Except.ok.injEq, chunked, Prod.mk.injEq] at ok
      exact ⟨ok.2 ▸ rfl, rfl⟩
  | endChunk =>
      simp only [mode] at ok
      obtain ⟨⟨text, later⟩, ended, same⟩ := map_ok ok
      cases same
      simp only [endChunk] at ended
      split_ifs at ended <;> cases ended <;> exact ⟨rfl, rfl⟩
  | extraHeaders =>
      simp only [mode, Except.ok.injEq, headers] at ok
      split at ok
      · cases ok
        exact ⟨rfl, rfl⟩
      · split at ok <;> cases ok <;> exact ⟨rfl, rfl⟩

theorem turn_turned (reader : Reader) (maxBuffer : Nat) :
    Turned reader (reader.turn maxBuffer) := by
  unfold turn
  split
  · exact reader.readHttp_turned maxBuffer
  · split
    · exact ⟨by simp, by simp, id, id⟩
    · next after processed =>
        obtain ⟨awaits, carries⟩ := process_carries processed
        exact ⟨by simp, by simp, fun _ => carries, fun idle => awaits ▸ idle⟩
    · next data after processed =>
        obtain ⟨awaits, carries⟩ := process_carries processed
        refine ⟨fun text asked => ?_, fun _ _ => carries, fun _ => carries, fun idle => awaits ▸ idle⟩
        dsimp only at asked
        split at asked <;> cases asked

/-- The reader is in a mode for data, and does not wait for another one. -/
def flowing (reader : Reader) : Bool := reader.mode.carries && !reader.awaiting

/-- What `readData` gets from the reader: data only where there was some to come,
and nothing that was not to come is to come afterwards. -/
structure Resumed (flows : Bool) (yielded : Yielded) (flowsAfter : Bool) : Prop where
  asked : ∀ text, yielded = .request text → flowsAfter = false
  carried : ∀ data, yielded = .content data → flows = true
  flows : flowsAfter = true → flows = true

theorem Turned.resumed {result : Yielded × Reader} (turned : Turned reader result)
    (idle : reader.awaiting = false) : Resumed reader.flowing result.1 result.2.flowing where
  asked text asked := by simp [flowing, turned.asked text asked]
  carried data carried := by simp [flowing, turned.carried data carried, idle]
  flows flowing := by
    simp only [Reader.flowing, Bool.and_eq_true] at flowing
    simp [Reader.flowing, turned.carries flowing.1, idle]

theorem accept_idle : (reader.accept mode nbToSend).awaiting = false := by
  unfold accept
  split
  · rfl
  · next idle => simpa using idle

theorem accept_flowing (flows : (reader.accept .newRequest nbToSend).flowing = true) :
    reader.flowing = true := by
  unfold accept at flows
  split at flows
  · simp [flowing, Mode.carries] at flows
  · exact flows

theorem resume_resumed (reader : Reader) (maxBuffer nbToSend : Nat) (recv : Recv) :
    Resumed reader.flowing (reader.resume maxBuffer .newRequest nbToSend recv).1
      (reader.resume maxBuffer .newRequest nbToSend recv).2.flowing := by
  have idle : (reader.accept .newRequest nbToSend).awaiting = false := accept_idle
  have accepted : (reader.accept .newRequest nbToSend).flowing = true → reader.flowing = true :=
    accept_flowing
  unfold resume
  generalize reader.accept .newRequest nbToSend = current at idle accepted ⊢
  have still : ∀ yielded, (∀ text, yielded ≠ .request text) → (∀ data, yielded ≠ .content data) →
      Resumed reader.flowing yielded current.flowing := fun yielded unasked empty =>
    ⟨fun text asked => absurd asked (unasked text), fun data carried => absurd carried (empty data), accepted⟩
  have turned : ∀ other : Reader, other.mode = current.mode ∨ other.mode = .http → other.awaiting = false →
      Resumed reader.flowing (other.turn maxBuffer).1 (other.turn maxBuffer).2.flowing := by
    intro other same resting
    have resumed := (other.turn_turned maxBuffer).resumed resting
    have flows : other.flowing = true → reader.flowing = true := by
      intro flows
      apply accepted
      rcases same with same | plain
      · simpa [flowing, ← same, resting, idle] using flows
      · simp [flowing, plain, Mode.carries] at flows
    exact ⟨resumed.asked, fun data carried => flows (resumed.carried data carried),
      fun after => flows (resumed.flows after)⟩
  dsimp only
  split
  · split
    · exact still .closed (by simp) (by simp)
    · exact turned _ (.inl rfl) idle
    · exact still .nothing (by simp) (by simp)
    · exact still .closed (by simp) (by simp)
  · split
    · exact turned _ (.inr rfl) idle
    · exact turned _ (.inl rfl) idle

theorem Resumed.weaken {flows earlier flowsAfter : Bool} {yielded : Yielded}
    (resumed : Resumed flows yielded flowsAfter) (weaker : flows = true → earlier = true) :
    Resumed earlier yielded flowsAfter :=
  ⟨resumed.asked, fun data carried => weaker (resumed.carried data carried),
    fun after => weaker (resumed.flows after)⟩

theorem Resumed.still {flows : Bool} {yielded : Yielded} (unasked : ∀ text, yielded ≠ .request text)
    (empty : ∀ data, yielded ≠ .content data) : Resumed flows yielded flows :=
  ⟨fun text asked => absurd asked (unasked text), fun data carried => absurd carried (empty data), id⟩

end Reader

open Reader (Resumed)

/-- While the header of a proxy is waited for, no mode is taken. -/
def HttpReader.flowing (client : HttpReader) : Bool :=
  client.reader.mode.carries && (client.proxied || !client.reader.awaiting)

theorem HttpReader.resume_resumed (settings : Settings) (recvs : List Recv) (client : HttpReader) :
    Resumed client.flowing (client.resume settings .newRequest 0 recvs).1
      (client.resume settings .newRequest 0 recvs).2.flowing := by
  fun_induction HttpReader.resume settings .newRequest 0 recvs client with
  | case1 recvs reader yielded after resumes =>
      have resumed := reader.resume_resumed settings.httpMaxBuffer 0 (recvs.headD .wouldBlock)
      rw [resumes] at resumed
      simpa [HttpReader.flowing, Reader.flowing] using resumed
  | case2 client => exact .still (by simp) (by simp)
  | case3 tail client => exact .still (by simp) (by simp)
  | case4 tail client => exact .still (by simp) (by simp)
  | case5 tail client => exact .still (by simp) (by simp)
  | case6 bytes recvs reader processed => exact .still (by simp) (by simp)
  | case7 bytes recvs reader nonempty rBuffer found processed ih =>
      exact ih.weaken fun flows => by
        simp only [HttpReader.flowing, Bool.and_eq_true, Bool.true_or] at flows ⊢
        exact ⟨flows.1, trivial⟩
  | case8 bytes recvs reader nonempty clientIp rBuffer found processed named yielded after turns =>
      have turned := { reader with rBuffer }.turn_turned settings.httpMaxBuffer
      rw [turns] at turned
      exact {
        asked := fun text asked => by
          have awaits : after.awaiting = true := turned.asked text asked
          simp [HttpReader.flowing, awaits]
        carried := fun data carried => by
          simpa [HttpReader.flowing] using turned.carried data carried
        flows := fun flows => by
          simp only [HttpReader.flowing, Bool.and_eq_true] at flows
          simpa [HttpReader.flowing] using turned.carries flows.1 }

def TlsReader.flowing (client : TlsReader) : Bool :=
  client.mode = .passthrough && !client.awaiting

theorem TlsReader.turn_resumed (settings : Settings) (client : TlsReader)
    (idle : client.awaiting = false) :
    Resumed client.flowing (client.turn settings).1 (client.turn settings).2.flowing := by
  unfold turn
  split
  · next tls =>
      split
      · exact .still (by simp) (by simp)
      · split
        · exact ⟨by simp [TlsReader.flowing], by simp, by simp [TlsReader.flowing]⟩
        · exact ⟨by simp, by simp, by simp [TlsReader.flowing, tls]⟩
  · next passthrough =>
      have flows : client.flowing = true := by simp [TlsReader.flowing, passthrough, idle]
      exact ⟨fun text => by split <;> simp, fun _ _ => flows, fun _ => flows⟩
  · exact .still (by simp) (by simp)
  · exact .still (by simp) (by simp)

theorem TlsReader.resume_resumed (settings : Settings) (recvs : List Recv) (client : TlsReader)
    (idle : client.awaiting = false) :
    Resumed client.flowing (client.resume settings recvs).1 (client.resume settings recvs).2.flowing := by
  fun_induction TlsReader.resume settings recvs client with
  | case1 recvs client ready => exact client.turn_resumed settings idle
  | case2 client empty => exact .still (by simp) (by simp)
  | case3 => exact .still (by simp) (by simp)
  | case4 => exact .still (by simp) (by simp)
  | case5 => exact .still (by simp) (by simp)
  | case6 client _ bytes recvs _ current proxied processed => exact .still (by simp) (by simp)
  | case7 client _ bytes recvs _ current proxied rBuffer found after processed ih =>
      have waits : after.flowing = false := by
        cases found <;> rfl
      exact (ih idle).weaken fun flows => by simp [waits] at flows
  | case8 client _ bytes recvs _ current proxied clientIp rBuffer found processed after named =>
      have waits : after.flowing = false := by
        cases found <;> rfl
      exact (after.turn_resumed settings idle).weaken fun flows => by simp [waits] at flows
  | case9 client _ bytes recvs _ current direct =>
      exact current.turn_resumed settings idle

theorem TlsReader.accept_idle {client : TlsReader} {mode : Mode} : (client.accept mode).awaiting = false := by
  unfold accept
  split
  · rfl
  · next idle => simpa using idle

theorem TlsReader.accept_flowing {client : TlsReader}
    (flows : (client.accept .newRequest).flowing = true) : client.flowing = true := by
  unfold accept at flows
  split at flows
  · simp [TlsReader.flowing] at flows
  · exact flows

namespace AnyReader

variable {ι : Type}

/-- Whether data may come from a client that has not sent another request. -/
def flowing : AnyReader ι → Bool
  | .http reader => reader.flowing
  | .tls reader => reader.flowing
  | .passthrough => true
  | .icap _ => false

/-- The class of a server's clients. -/
def fits : Source → AnyReader ι → Bool
  | .proxy, .http _ | .web, .http _ | .tls, .tls _ | .passthrough, .passthrough | .icap, .icap _ => true
  | _, _ => false

theorem start_fits (settings : Settings) (icap : Readers ι) (source : Source) :
    fits source ((readers settings icap).start source) = true := by
  cases source <;> rfl

theorem readData_fits (settings : Settings) (icap : Readers ι) {source : Source} {reader : AnyReader ι}
    (recv : List Recv) (fit : fits source reader = true) :
    fits source ((readers settings icap).readData reader recv).2 = true := by
  cases reader <;> cases source <;> exact fit

theorem readRelated_fits (settings : Settings) (icap : Readers ι) {source : Source} {reader : AnyReader ι}
    (mode : Mode) (nbToSend : Nat) (recv : List Recv) (fit : fits source reader = true) :
    fits source ((readers settings icap).readRelated reader mode nbToSend recv).2 = true := by
  cases reader <;> cases source <;> exact fit

theorem readData_resumed (settings : Settings) (icap : Readers ι) {source : Source} {reader : AnyReader ι}
    (recv : List Recv) (fit : fits source reader = true) (other : source ≠ .icap) :
    (reader = .passthrough ∧ ∀ text, ((readers settings icap).readData reader recv).1 ≠ .request text) ∨
      Resumed reader.flowing ((readers settings icap).readData reader recv).1
        ((readers settings icap).readData reader recv).2.flowing := by
  cases reader with
  | http reader => exact .inr (reader.resume_resumed settings recv)
  | tls reader =>
      have resumed := (reader.accept .newRequest).resume_resumed settings recv TlsReader.accept_idle
      exact .inr (resumed.weaken TlsReader.accept_flowing)
  | passthrough =>
      apply Or.inl
      refine ⟨rfl, fun text => ?_⟩
      simp only [readers, passthroughRead]
      split <;> simp
  | icap reader => cases source <;> simp [fits] at fit other

end AnyReader

namespace Writer

variable {writer after : Writer} {data : Option Str} {send : Send} {buffered hadBuffer finished : Bool}

theorem turn_kept {wBuffer : Str}
    (turned : turn finished wBuffer data send = (some (buffered, hadBuffer), after)) :
    after.stage = .looping (finished || data.isNone) := by
  simp only [turn] at turned
  split at turned
  · cases turned
  · split at turned
    · split at turned
      · cases turned
        rfl
      · cases turned
        rfl
      · cases turned
    · cases turned
      rfl

theorem resume_kept (resumed : writer.resume data send = (some (buffered, hadBuffer), after)) :
    ∃ finished, writer.stage = .looping finished ∧ after.stage = .looping (finished || data.isNone) := by
  unfold resume at resumed
  split at resumed
  · next finished stage => exact ⟨finished, stage, turn_kept resumed⟩
  · cases resumed

theorem resume_told (resumed : writer.resume data send = (some (buffered, hadBuffer), after))
    (told : writer.told = true) : after.told = true := by
  obtain ⟨finished, stage, kept⟩ := resume_kept resumed
  simp only [Writer.told, stage] at told
  simp [Writer.told, kept, told]

theorem turn_closes (finished : Bool) (wBuffer : Str) (send : Send) :
    (turn finished wBuffer none send).2.told = true := by
  simp only [turn, Option.isNone_none, Bool.or_true]
  split
  · rfl
  · split
    · split <;> rfl
    · rfl

theorem resume_closes (writer : Writer) (send : Send) : (writer.resume none send).2.told = true := by
  unfold resume
  split
  · exact turn_closes ..
  · rfl

theorem startData_told {source : Source} {reply : Reply} {file : Option Str}
    (answered : writer.startData source reply send file = .ok (some (buffered, hadBuffer), after))
    (other : ∀ data, reply ≠ .stream data) : after.told = true := by
  cases reply with
  | stream data => exact absurd rfl (other data)
  | close data =>
      simp only [startData] at answered
      have closes := resume_closes (turn false writer.wBuffer data send).2 send
      generalize turn false writer.wBuffer data send = first at answered closes
      obtain ⟨res, first⟩ := first
      dsimp only at answered closes
      generalize first.resume none send = second at answered closes
      obtain ⟨closing, second⟩ := second
      cases source <;> cases answered <;> exact closes
  | file header filename =>
      cases source <;> cases file <;> cases answered <;> exact turn_closes ..

end Writer

end ExaProxy.Client
