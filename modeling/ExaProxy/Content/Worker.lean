import ExaProxy.Client.HttpReader
import ExaProxy.Data.Methods
import ExaProxy.Network.Poller

namespace ExaProxy.Content

open ExaProxy.Data ExaProxy.Network
open ExaProxy.Client (Recv)

/-- What `send` does: it accepts a number of bytes, it would block, or it fails. -/
inductive Send where
  | accepted (count : Nat)
  | wouldBlock
  | failed
deriving DecidableEq, Repr

/-- The commands that open a connection. -/
inductive HostCommand where
  | download | connect | intercept
deriving DecidableEq, Repr

/-- `sent` and `broken` are what the socket has seen: the bytes it has accepted,
and whether a `send` has failed. -/
structure Downloader where
  client : Sock
  sock : Sock
  host : Str
  port : Int
  method : HostCommand
  wBuffer : Str
  sent : Str := []
  broken : Bool := false
deriving DecidableEq, Repr

namespace Downloader

variable (downloader : Downloader) (data : Str) (send : Send)

/-- Whether data is left in the buffer, `none` for a connection that failed. -/
def writeData : Option Bool × Downloader :=
  let wBuffer := downloader.wBuffer ++ data
  match send with
  | .accepted count =>
      (some (wBuffer.drop count ≠ []), { downloader with
        wBuffer := wBuffer.drop count
        sent := downloader.sent ++ wBuffer.take count })
  | .wouldBlock => (some (wBuffer ≠ []), { downloader with wBuffer })
  | .failed => (none, { downloader with wBuffer, broken := true })

def bufferData : Bool × Downloader :=
  let wBuffer := downloader.wBuffer ++ data
  (wBuffer ≠ [], { downloader with wBuffer })

/-- Whether the connection works, and what the client is told of it. -/
def startConversation : Bool × Str × Downloader :=
  let (res, downloader) := downloader.writeData [] send
  let response :=
    if downloader.method = .connect then ascii "HTTP/1.1 200 Connection Established\r\n\r\n" else []
  (res.isSome, response, downloader)

/-- All that the connection was given for its server. -/
def upload : Str := downloader.sent ++ downloader.wBuffer

variable {downloader data send}

@[simp] theorem writeData_sock : (downloader.writeData data send).2.sock = downloader.sock := by
  cases send <;> rfl

@[simp] theorem writeData_client : (downloader.writeData data send).2.client = downloader.client := by
  cases send <;> rfl

@[simp] theorem writeData_upload :
    (downloader.writeData data send).2.upload = downloader.upload ++ data := by
  cases send <;> simp [writeData, upload]

@[simp] theorem startConversation_downloader :
    (downloader.startConversation send).2.2 = (downloader.writeData [] send).2 := rfl

@[simp] theorem bufferData_upload : (downloader.bufferData data).2.upload = downloader.upload ++ data := by
  simp [bufferData, upload]

theorem writeData_buffered (healthy : (downloader.writeData data send).2.broken = false) :
    (downloader.writeData data send).1 =
      some (decide ((downloader.writeData data send).2.wBuffer ≠ [])) := by
  cases send with
  | accepted count => rfl
  | wouldBlock => rfl
  | failed => cases healthy

/-- Nothing is left of what is to be sent, or the connection fails. -/
def Drains (downloader : Downloader) : Send → Prop
  | .accepted count => downloader.wBuffer.length ≤ count
  | .wouldBlock => downloader.wBuffer = []
  | .failed => True

instance (downloader : Downloader) : DecidablePred downloader.Drains
  | .accepted count => inferInstanceAs (Decidable (_ ≤ count))
  | .wouldBlock => inferInstanceAs (Decidable (downloader.wBuffer = []))
  | .failed => .isTrue trivial

theorem drains_iff : downloader.Drains send ↔ (downloader.writeData [] send).1 ≠ some true := by
  unfold Drains writeData
  cases send with
  | accepted count => simp
  | wouldBlock => simp
  | failed => simp

theorem writeData_broken (healthy : (downloader.writeData data send).2.broken = false) :
    downloader.broken = false := by
  cases send with
  | accepted count => exact healthy
  | wouldBlock => exact healthy
  | failed => cases healthy

end Downloader

/-- What `recv` gives `readData`, with `none` for a connection that has ended. -/
def readData : Recv → Option Str
  | .data [] => none
  | .data bytes => some bytes
  | .wouldBlock => some []
  | .error => none

end ExaProxy.Content
