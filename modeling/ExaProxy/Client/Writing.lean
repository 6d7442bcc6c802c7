import ExaProxy.Client.Manager
import ExaProxy.Data.Transition

namespace ExaProxy.Client

open Data
open Content (Send Reply)

namespace Writer

/-- The bytes that the socket takes in one turn of the loop. -/
def turnTaken (finished : Bool) (wBuffer : Str) (data : Option Str) (send : Send) : Str :=
  let hadBuffer : Bool := wBuffer ≠ []
  let wBuffer := wBuffer ++ data.getD []
  if (finished || data.isNone) ∧ wBuffer = [] then []
  else if hadBuffer = false ∨ data = some [] then
    match send with
    | .accepted count => wBuffer.take count
    | .wouldBlock | .failed => []
  else []

def resumeTaken (writer : Writer) (data : Option Str) (send : Send) : Str :=
  match writer.stage with
  | .looping finished => turnTaken finished writer.wBuffer data send
  | _ => []

/-- The bytes that the socket takes in `startData`, where `file` is what the file holds. -/
def startTaken (writer : Writer) (reply : Reply) (send : Send) (file : Str) : Str :=
  match reply with
  | .stream data => turnTaken false writer.wBuffer (some data) send
  | .close data =>
      turnTaken false writer.wBuffer data send ++
        (turn false writer.wBuffer data send).2.resumeTaken none send
  | .file header _ => turnTaken false (writer.wBuffer ++ header ++ file) none send

/-- The data that is passed to `startData`. -/
def passedBy (reply : Reply) (file : Str) : Str :=
  match reply with
  | .stream data => data
  | .close data => data.getD []
  | .file header _ => header ++ file

variable {writer after : Writer} {data : Option Str} {send : Send} {source : Source} {reply : Reply}
  {file : Str} {result : Option (Bool × Bool)}

/-- No byte is lost in a turn of the loop, also when the send fails. -/
theorem turn_conserves (finished : Bool) (wBuffer : Str) (data : Option Str) (send : Send) :
    turnTaken finished wBuffer data send ++ (turn finished wBuffer data send).2.wBuffer =
      wBuffer ++ data.getD [] := by
  simp only [turnTaken, turn]
  split
  · rfl
  · split
    · cases send with
      | accepted count => exact List.take_append_drop _ _
      | wouldBlock => rfl
      | failed => rfl
    · rfl

/-- Data that is not empty is lost only where the coroutine has ended. -/
theorem resume_conserves (going : writer.resume data send = (result, after))
    (kept : data.getD [] = [] ∨ result ≠ none ∨ ∃ finished, writer.stage = .looping finished) :
    writer.resumeTaken data send ++ after.wBuffer = writer.wBuffer ++ data.getD [] := by
  rw [resume] at going
  rw [resumeTaken]
  cases stage : writer.stage with
  | looping finished =>
      simp only [stage] at going
      have conserved := turn_conserves finished writer.wBuffer data send
      rwa [going] at conserved
  | created | ended =>
      simp only [stage] at going
      cases going
      simpa [stage] using kept

theorem startData_conserves (http : source = .proxy ∨ source = .web)
    (started : writer.startData source reply send (some file) = .ok (result, after)) :
    writer.startTaken reply send file ++ after.wBuffer = writer.wBuffer ++ passedBy reply file := by
  cases reply with
  | stream data =>
      have conserved := turn_conserves false writer.wBuffer (some data) send
      rwa [Except.ok.inj started] at conserved
  | close data =>
      have first := turn_conserves false writer.wBuffer data send
      have second : (turn false writer.wBuffer data send).2.resumeTaken none send ++
          ((turn false writer.wBuffer data send).2.resume none send).2.wBuffer =
          (turn false writer.wBuffer data send).2.wBuffer ++ [] := resume_conserves rfl (.inl rfl)
      rw [List.append_nil] at second
      have last : after = ((turn false writer.wBuffer data send).2.resume none send).2 := by
        obtain rfl | rfl := http <;> cases started <;> rfl
      rw [startTaken, List.append_assoc, last, second, first]
      rfl
  | file header filename =>
      have conserved := turn_conserves false (writer.wBuffer ++ header ++ file) none send
      have last : after = (turn false (writer.wBuffer ++ header ++ file) none send).2 := by
        obtain rfl | rfl := http <;> cases started <;> rfl
      rw [startTaken, last, conserved]
      simp [passedBy]

theorem writeData_conserves (written : writer.writeData data send = .ok (result, after))
    (kept : data.getD [] = [] ∨ result ≠ none ∨ writer.told = false) :
    writer.resumeTaken data send ++ after.wBuffer = writer.wBuffer ++ data.getD [] := by
  rw [writeData] at written
  split at written
  · cases written
  · next started =>
      refine resume_conserves (Except.ok.inj written) ?_
      obtain empty | reported | untold := kept
      · exact .inl empty
      · exact .inr (.inl reported)
      · cases stage : writer.stage with
        | looping finished => exact .inr (.inr ⟨finished, rfl⟩)
        | created =>
            cases data with
            | none => exact .inl rfl
            | some data => exact absurd ⟨stage, rfl⟩ started
        | ended =>
            rw [told, stage] at untold
            cases untold

end Writer

/-- A client with the bytes that its socket has taken and the data that it was given. -/
structure Wire where
  writer : Writer := {}
  taken : Str := []
  passed : Str := []

/-- The calls that `ClientManager` makes for a response, up to a `writeData` that reports
that the connection is closed.  A file that is sent can be read. -/
inductive Wire.Step (source : Source) (wire : Wire) : Wire → Prop
  | startData {reply : Reply} {send : Send} {file : Str} {result : Option (Bool × Bool)} {after : Writer}
      (started : wire.writer.startData source reply send (some file) = .ok (result, after)) :
      Step source wire
        ⟨after, wire.taken ++ wire.writer.startTaken reply send file,
          wire.passed ++ Writer.passedBy reply file⟩
  | writeData {data : Option Str} {send : Send} {reported : Bool × Bool} {after : Writer}
      (written : wire.writer.writeData data send = .ok (some reported, after)) :
      Step source wire
        ⟨after, wire.taken ++ wire.writer.resumeTaken data send, wire.passed ++ data.getD []⟩

/-- Nothing was lost, doubled or moved. -/
def Wire.Intact (wire : Wire) : Prop := wire.taken ++ wire.writer.wBuffer = wire.passed

theorem Wire.Step.intact {source : Source} {wire after : Wire} (http : source = .proxy ∨ source = .web)
    (step : wire.Step source after) (intact : wire.Intact) : after.Intact := by
  cases step with
  | startData started =>
      have conserved := Writer.startData_conserves http started
      rw [Intact, List.append_assoc, conserved, ← List.append_assoc, intact]
  | writeData written =>
      have conserved := Writer.writeData_conserves written (.inr (.inl (by simp)))
      rw [Intact, List.append_assoc, conserved, ← List.append_assoc, intact]

/-- The bytes that the socket has taken, and those in the buffer behind them, are the data
that was passed; also where a `writeData` closes the connection, unless data is written to a
writer that was told to close. -/
theorem bytes_intact {source : Source} (http : source = .proxy ∨ source = .web) {wire : Wire}
    (reached : Reachable (· = {}) (Wire.Step source) wire) :
    wire.taken ++ wire.writer.wBuffer = wire.passed ∧
      ∀ data send result after, data.getD [] = [] ∨ wire.writer.told = false →
        wire.writer.writeData data send = .ok (result, after) →
        wire.taken ++ wire.writer.resumeTaken data send ++ after.wBuffer = wire.passed ++ data.getD [] := by
  have intact : wire.Intact := by
    refine reached.invariant Wire.Intact ?_ fun _ _ _ intact step => step.intact http intact
    intro _ same
    subst same
    rfl
  refine ⟨intact, fun data send result after kept written => ?_⟩
  have conserved := Writer.writeData_conserves written (kept.imp_right .inr)
  rw [List.append_assoc, conserved, ← List.append_assoc, intact]

/-- The socket takes the first byte of a response of two. -/
def halfSent : Wire := ⟨⟨.looping false, ascii "b"⟩, ascii "a", ascii "ab"⟩

theorem halfSent_reached : Reachable (· = {}) (Wire.Step .proxy) halfSent := by
  have start : Reachable (· = {}) (Wire.Step .proxy) {} := .start rfl
  have started : (Wire.writer {}).startData .proxy (.stream (ascii "ab")) (.accepted 1) (some []) =
      .ok (some (true, false), halfSent.writer) := by rfl
  exact start.next (.startData started)

theorem bytes_intact_half : ascii "a" ++ ascii "b" = ascii "ab" ∧
    ascii "a" ++ ascii "b" ++ [] = ascii "ab" ++ [] := by
  have intact := bytes_intact (.inl rfl) halfSent_reached
  exact ⟨intact.1, intact.2 (some []) (.accepted 1) (some (false, true)) ⟨.looping false, []⟩ (.inl rfl) (by rfl)⟩

end ExaProxy.Client
