import ExaProxy.Client.HttpReader
import ExaProxy.Http.Heads
import ExaProxy.Worker.Destinations

namespace ExaProxy.Worker

open ExaProxy.Data ExaProxy.Http

variable {κ : Type} {configuration : Configuration} {peer : Peer} {header : Str} {message : Message}

def OneLine (text : Str) : Prop := 10 ∉ text ∧ 13 ∉ text

/-- What the proxy writes of itself and of the client stays on one line. -/
structure Plain (configuration : Configuration) (peer : Peer) : Prop where
  version : OneLine configuration.version
  proxy : OneLine configuration.proxy
  peer : OneLine peer.peer

/-- The requests whose texts can be forwarded: one that was validated, with the headers
that are added, and perhaps with one forward less. -/
inductive Forwarded (configuration : Configuration) (peer : Peer) (header : Str) : Message → Prop
  | validated (message : Message) (ok : Message.parse configuration.toConfiguration
      configuration.transparent peer.peer header = .ok message) : Forwarded configuration peer header message
  | added (message after : Message) (ok : Message.parse configuration.toConfiguration
      configuration.transparent peer.peer header = .ok message)
      (adds : addHeaders configuration peer message = .ok after) :
      Forwarded configuration peer header after
  | limited (message : Message) (forwarded : Forwarded configuration peer header message) (count : Nat) :
      Forwarded configuration peer header { message with
        headers := message.headers.set (ascii "max-forwards") (ascii "Max-Forwards: " ++ Str.decimal count) }

/-- The lines of what is forwarded. -/
def Sendable (remaining _name line : Str) : Prop := line ∈ Headers.linesOf remaining ∨ OneLine line

theorem OneLine.append {text more : Str} (first : OneLine text) (second : OneLine more) :
    OneLine (text ++ more) :=
  ⟨fun member => (List.mem_append.mp member).elim first.1 second.1,
    fun member => (List.mem_append.mp member).elim first.2 second.2⟩

/-- A request that is forwarded has the first line that the client sent, and sound
headers. -/
structure Kept (header : Str) (message : Message) : Prop where
  request : Request.parse header = .ok message.request
  text : message.raw = header
  separator : message.separator = Message.separatorOf header
  sound : ∃ free, Headers.Sound (Sendable message.request.remaining) free message.headers

theorem validated_sendable (plain : Plain configuration peer) {transparent : Bool} {remoteIp : Str}
    (validated : Message.Validated configuration.toConfiguration transparent remoteIp header message) :
    Headers.Sound (Sendable message.request.remaining) (xProxyVersion :: Headers.hopByHop)
      message.headers := by
  apply validated.sound.weaken
  rintro name line (sent | ⟨_, rfl⟩)
  · exact .inl sent
  · right
    apply OneLine.append _ plain.version
    constructor <;> decide

theorem known_oneLine (known : message.Known) : OneLine message.request.version := by
  rcases known with version | version <;> rw [version] <;> constructor <;> decide

theorem Forwarded.kept (plain : Plain configuration peer)
    (forwarded : Forwarded configuration peer header message) (known : message.Known) :
    Kept header message := by
  induction forwarded with
  | validated message ok =>
      have validated := Message.parse_validated ok
      exact ⟨validated.request, validated.text, validated.separator, _, validated_sendable plain validated⟩
  | added message after ok adds =>
      have validated := Message.parse_validated ok
      have version : OneLine message.request.version := by
        obtain ⟨popped, _, adds⟩ := bind_ok adds
        split at adds
        · cases adds
          exact known_oneLine known
        · obtain ⟨last, _, adds⟩ := bind_ok adds
          cases adds
          exact known_oneLine known
      have via : OneLine (viaLine configuration message) := by
        refine .append (.append (.append ?_ version) ?_) plain.proxy <;> constructor <;> decide
      have forwarded : OneLine (forwardedLine peer) := by
        refine .append ?_ plain.peer
        constructor <;> decide
      obtain ⟨headers, same, sound, _⟩ :=
        addHeaders_sound configuration peer (validated_sendable plain validated) (.inr via) (.inr forwarded)
      cases adds.symm.trans same
      exact ⟨validated.request, validated.text, validated.separator, _, sound⟩
  | limited message forwarded count ih =>
      obtain ⟨request, text, separator, free, sound⟩ := ih known
      have digits : OneLine (Str.decimal count) := by
        constructor <;> intro member <;>
        · exact absurd ((Str.isdigit_iff.mp (Str.decimal_isdigit count)).2 _ member) (by decide)
      have line : OneLine (ascii "Max-Forwards: " ++ Str.decimal count) := by
        refine .append ?_ digits
        constructor <;> decide
      refine ⟨request, text, separator, _, sound.enter (by simp) (.of_filled ?_) (fun _ _ => id) ?_⟩
      · simp [ascii]
      · intro other member
        rw [List.mem_singleton.mp member]
        exact .inr line

theorem Kept.printable (kept : Kept header message) (known : message.Known) : message.Printable := by
  obtain ⟨free, sound⟩ := kept.sound
  refine ⟨known, Request.toStr_lines kept.request (known_oneLine known).1, ?_, sound.filled, sound.hidden, ?_⟩
  · rw [kept.separator, kept.text]
  · intro name _ line member
    rcases sound.lines name line member with sent | own
    · obtain ⟨part, among, rfl⟩ := List.mem_map.mp sent
      refine ⟨fun newline => Str.splitOn_part among (Str.stripOf_mem newline), fun none carriage => none ?_⟩
      obtain ⟨head, whole⟩ := Request.parse_remaining kept.request
      rw [List.splitOn_eq_splitOnP] at among
      rw [kept.text, whole]
      exact List.mem_append_right _ (List.mem_cons_of_mem _
        (Str.splitOnP_part among 13 (Str.stripOf_mem carriage)).1)
    · exact ⟨own.1, fun _ => own.2⟩

/-- The text of a request that a decision sends to a server. -/
def requestText : Content.Decision → Option Str
  | .download _ _ _ _ request => some request
  | .intercept _ _ data => some data
  | _ => none

theorem doHTTPOptions_text {decision : Content.Decision} {text : Str}
    (decided : doHTTPOptions configuration message = (.decided decision : Outcome κ))
    (sends : requestText decision = some text) : ∃ headers, text = { message with headers }.toStr ∧
      (headers = message.headers ∨ ∃ count, headers = message.headers.set (ascii "max-forwards")
        (ascii "Max-Forwards: " ++ Str.decimal count)) := by
  unfold doHTTPOptions at decided
  split at decided
  · cases decided
    exact ⟨message.headers, (Option.some.inj sends).symm, .inl rfl⟩
  · split at decided
    · cases decided
      cases sends
    · split at decided
      · cases decided
        cases sends
      · cases decided
        exact ⟨_, (Option.some.inj sends).symm, .inr ⟨_, rfl⟩⟩

theorem doMethod_text {childRequest : Message → Str} {decision : Content.Decision} {text : Str}
    (decided : doMethod configuration childRequest message = (.decided decision : Outcome κ))
    (sends : requestText decision = some text) : ∃ headers, text = { message with headers }.toStr ∧
      (headers = message.headers ∨ ∃ count, headers = message.headers.set (ascii "max-forwards")
        (ascii "Max-Forwards: " ++ Str.decimal count)) := by
  simp only [doMethod] at decided
  split at decided
  · unfold doHTTPRequest at decided
    split at decided
    · cases decided
    · cases decided
      exact ⟨message.headers, (Option.some.inj sends).symm, .inl rfl⟩
  · split at decided
    · unfold doHTTPConnect at decided
      split at decided
      · cases decided
        cases sends
      · split at decided
        · cases decided
        · cases decided
          cases sends
    · split at decided
      · exact doHTTPOptions_text decided sends
      · split at decided
        · cases decided
          exact ⟨message.headers, (Option.some.inj sends).symm, .inl rfl⟩
        · cases decided
          cases sends

theorem decide_method {outcome : Outcome κ} (decides : decide configuration peer .proxy header = .ok outcome) :
    (∃ message after, Message.parse configuration.toConfiguration configuration.transparent peer.peer
      header = .ok message ∧ addHeaders configuration peer message = .ok after ∧
      outcome = doMethod configuration (createChildRequest peer) after) ∨
    ∃ code content version, outcome = answer configuration code content version := by
  simp only [decide, doHTTP] at decides
  split at decides
  · next failure _ =>
      cases decides
      right
      cases failure with
      | expectationFailed => exact ⟨_, _, _, rfl⟩
      | invalidRequest reason => exact ⟨_, _, _, rfl⟩
      | problem => exact ⟨_, _, _, rfl⟩
  · next message ok =>
      obtain ⟨after, adds, same⟩ := map_ok decides
      cases added : addHeaders configuration peer message with
      | error failure =>
          rw [added] at adds
          cases adds
      | ok result =>
          rw [added] at adds
          cases adds
          exact .inl ⟨message, after, ok, added, same.symm⟩

/-- The texts that are sent without an answer of the program. -/
theorem decide_forwarded {decision : Content.Decision} {text : Str}
    (decides : decide configuration peer .proxy header = (.ok (.decided decision) : Except Raised (Outcome κ)))
    (sends : requestText decision = some text) :
    ∃ message, Forwarded configuration peer header message ∧ text = message.toStr := by
  rcases decide_method decides with ⟨message, after, ok, adds, outcome⟩ | ⟨code, content, version, outcome⟩
  · have added := Forwarded.added message after ok adds
    obtain ⟨headers, rfl, rfl | ⟨count, rfl⟩⟩ := doMethod_text outcome.symm sends
    · exact ⟨after, added, rfl⟩
    · exact ⟨_, .limited after added count, rfl⟩
  · cases outcome
    cases sends

theorem decide_deferred {written : Str} (decides : decide configuration peer .proxy header =
    (.ok (.deferred written (.message message)) : Except Raised (Outcome κ))) :
    Forwarded configuration peer header message := by
  rcases decide_method decides with ⟨earlier, after, ok, adds, outcome⟩ | ⟨code, content, version, outcome⟩
  · obtain ⟨_, same⟩ := doMethod_deferred outcome.symm
    cases same
    exact .added earlier _ ok adds
  · cases outcome

theorem classifyURL_unchanged {response path : Str} : classifyURL response ≠ .ok (.rewrite path) := by
  unfold classifyURL
  split
  · simp
  · split
    · simp
    · split
      · simp
      · split
        · simp
        · split <;> simp

theorem contentResponse_text {classification : Classification} {decision : Content.Decision} {text : Str}
    (unchanged : ∀ path, classification ≠ .rewrite path)
    (decides : contentResponse message classification = .ok decision)
    (sends : requestText decision = some text) : text = message.toStr := by
  cases classification with
  | rewrite path => exact absurd rfl (unchanged path)
  | permit => cases decides; exact (Option.some.inj sends).symm
  | intercept destination => cases decides; exact (Option.some.inj sends).symm
  | file name => cases decides; cases sends
  | redirect url => cases decides; cases sends
  | http data => cases decides; cases sends

theorem connectResponse_text {classification : Classification} {text : Str}
    (sends : requestText (connectResponse message classification) = some text) : text = message.toStr := by
  cases classification with
  | intercept destination => exact (Option.some.inj sends).symm
  | _ => cases sends

/-- They are sent as they are, whatever the program answers. -/
theorem progress_forwarded {response : Option Str} {decision : Content.Decision} {text : Str}
    (decides : progress .proxy message response = (.ok (.decided decision) : Except Raised (Outcome κ)))
    (sends : requestText decision = some text) : text = message.toStr := by
  cases response with
  | none => cases decides
  | some response =>
      simp only [progress, reduceCtorEq, if_false, ne_eq, not_true_eq_false] at decides
      obtain ⟨classification, classifies, decides⟩ := bind_ok decides
      split at decides
      · obtain ⟨content, responds, decides⟩ := bind_ok decides
        cases decides
        exact contentResponse_text (fun path same => classifyURL_unchanged (same ▸ classifies)) responds sends
      · split at decides
        · cases decides
          exact connectResponse_text sends
        · cases decides

/-- A server that ends the head of a request at a blank line has read all of it, but
for what the client has put in quotes. -/
theorem forwarded_blank_line (plain : Plain configuration peer)
    (forwarded : Forwarded configuration peer header message) (known : message.Known)
    {before blank after : Str} (text : message.toStr = before ++ blank ++ after)
    (twice : blank = ascii "\r\n\r\n" ∨ blank = ascii "\n\n") :
    (∀ byte ∈ after, byte = 13 ∨ byte = 10) ∨ message.InQuotes before := by
  by_cases ends : ∀ byte ∈ after, byte = 13 ∨ byte = 10
  · exact .inl ends
  · push Not at ends
    exact .inr (((forwarded.kept plain known).printable known).blank_line text twice ends)

/-- Two requests, the second in the quotes of a header of the first. -/
def twoRequests : Str :=
  ascii "GET http://a/ HTTP/1.1\r\nX: \"\r\n\r\nGET http://b/ HTTP/1.1\r\nY: \"\r\n\r\n"

theorem twoRequests_parsed : ∃ message, Message.parse withoutProgram.toConfiguration
    withoutProgram.transparent localPeer.peer twoRequests = .ok message ∧ message.Known ∧
    message.toStr = ascii "GET / HTTP/1.1\r\nX: \"" ++ ascii "\r\n\r\n" ++
      ascii "GET http://b/ HTTP/1.1\r\nY: \"\r\n\r\n" := by
  have parsed : (Message.parse withoutProgram.toConfiguration withoutProgram.transparent localPeer.peer
      twoRequests).map (fun message => (message.request.version, message.toStr)) =
      .ok (ascii "1.1", ascii "GET / HTTP/1.1\r\nX: \"" ++ ascii "\r\n\r\n" ++
        ascii "GET http://b/ HTTP/1.1\r\nY: \"\r\n\r\n") := by decide +kernel
  obtain ⟨message, ok, same⟩ := map_ok parsed
  obtain ⟨version, text⟩ := Prod.mk.inj same
  exact ⟨message, ok, .inr version, text⟩

theorem forwarded_blank_line_quoted : ∃ message,
    Forwarded withoutProgram localPeer twoRequests message ∧
      message.InQuotes (ascii "GET / HTTP/1.1\r\nX: \"") := by
  obtain ⟨message, ok, known, text⟩ := twoRequests_parsed
  have plain : Plain withoutProgram localPeer := by
    constructor <;> constructor <;> decide
  have forwarded : Forwarded withoutProgram localPeer twoRequests message := .validated message ok
  exact ⟨message, forwarded, (forwarded_blank_line plain forwarded known text (.inl rfl)).resolve_left
    (by decide)⟩

/-- The quotes hide a blank line from the reader of requests and from the parser of
headers, and not from the server. -/
theorem blank_line_forwarded : ¬ ∀ buffer size seek request rest later configuration message,
    Client.checkRequest buffer size seek = some (request, rest, later) →
    Message.parse configuration false localPeer.peer request = .ok message → message.Known →
    ∀ before blank after, message.toStr = before ++ blank ++ after →
      blank = ascii "\r\n\r\n" ∨ blank = ascii "\n\n" → ∀ byte ∈ after, byte = 13 ∨ byte = 10 := by
  intro claimed
  have cut : Client.checkRequest twoRequests 65536 32 = some (twoRequests, [], 32) := by decide +kernel
  obtain ⟨message, ok, known, text⟩ := twoRequests_parsed
  have ends := claimed twoRequests 65536 32 twoRequests [] 32 withoutProgram.toConfiguration message cut ok
    known _ _ _ text (.inl rfl)
  revert ends
  decide

end ExaProxy.Worker
