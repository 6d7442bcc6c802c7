import ExaProxy.Http.Validated
import ExaProxy.Worker.Redirector

namespace ExaProxy.Worker

open ExaProxy.Data ExaProxy.Http
open ExaProxy.Content (Decision)

variable {κ : Type} {configuration : Configuration} {peer : Peer} {header : Str} {message : Message}
  {decision : Decision} {host : Str}

/-- The headers that `addHeaders` changes. -/
def ownHeaders : List Str :=
  ["proxy-connection", "via", "x_forwarded_for", "proxy-authenticate"].map ascii

/-- The headers that need not be as the parser leaves them. -/
def freeHeaders : List Str :=
  ascii "x_forwarded_for" :: ascii "via" :: xProxyVersion :: Headers.hopByHop

def viaLine (configuration : Configuration) (message : Message) : Str :=
  ascii "Via: " ++ message.request.version ++ ascii " " ++ configuration.proxy

def forwardedLine (peer : Peer) : Str := ascii "X-Forwarded-For: " ++ peer.peer

theorem get_popped {key name : Str} {before after : Headers} (ok : before.pop key = .ok after)
    (other : name ≠ key) : after.get name = before.get name := by
  rw [(Headers.pop_popped ok).get, if_neg other]

theorem get_extended {key name value : Str} {headers : Headers} (other : name ≠ key) :
    (headers.extend key value).get name = headers.get name := by
  rw [Headers.extend, Headers.get_enter, if_neg other]

theorem addHeaders_sound (configuration : Configuration) (peer : Peer) {allowed : Str → Str → Prop}
    (sound : Headers.Sound allowed (xProxyVersion :: Headers.hopByHop) message.headers)
    (via : allowed (ascii "via") (viaLine configuration message))
    (forwarded : allowed (ascii "x_forwarded_for") (forwardedLine peer)) :
    ∃ headers, addHeaders configuration peer message = .ok { message with headers } ∧
      Headers.Sound allowed freeHeaders headers ∧
      ∀ name ∉ ownHeaders, headers.get name = message.headers.get name := by
  obtain ⟨popped, pops⟩ := Headers.pop_listed fun member =>
    sound.listed (ascii "proxy-connection") member (by decide)
  have kept := sound.pop pops
  cases plain : configuration.transparent with
  | true =>
      refine ⟨popped, ?_, kept.freer (by simp [freeHeaders]), fun name other => ?_⟩
      · simp [addHeaders, pops, plain, bind, Except.bind, pure, Except.pure]
      · simp only [ownHeaders, List.map_cons, List.mem_cons, not_or] at other
        exact get_popped pops other.1
  | false =>
      have more := (kept.extend (by simp [viaLine, ascii]) via).extend
        (by simp [forwardedLine, ascii]) forwarded
      obtain ⟨last, ends⟩ := Headers.pop_listed fun member =>
        more.listed (ascii "proxy-authenticate") member (by decide)
      refine ⟨last, ?_, more.pop ends, ?_⟩
      · simp only [viaLine, forwardedLine] at ends
        simp only [addHeaders, pops, plain, ends, bind, Except.bind, pure, Except.pure,
          Bool.false_eq_true, if_false]
      · intro name other
        simp only [ownHeaders, List.map_cons, List.map_nil, List.mem_cons, List.not_mem_nil, or_false,
          not_or] at other
        rw [get_popped ends other.2.2.2, get_extended other.2.2.1, get_extended other.2.1,
          get_popped pops other.1]

/-- The host that a decision connects to. -/
def contacted : Decision → Option Str
  | .download host .. | .connect host .. => some host
  | _ => none

/-- What was decided at once. -/
def Outcome.settled : Outcome κ → Option Decision
  | .decided decision => some decision
  | _ => none

theorem Outcome.contacted_settled (outcome : Outcome κ)
    (contacts : outcome.settled.bind contacted = some host) :
    ∃ decision, outcome = .decided decision ∧ contacted decision = some host := by
  cases outcome with
  | decided decision => exact ⟨decision, rfl, contacts⟩
  | deferred written kept => cases contacts
  | hangup => cases contacts
  | error => cases contacts

/-- What is decided about a request if the program permits it, or is not asked. -/
inductive Permitted (κ : Type) (configuration : Configuration) (peer : Peer) (header : Str)
    (decision : Decision) : Prop
  | unasked (decides : decide configuration peer .proxy header =
      (.ok (.decided decision) : Except Raised (Outcome κ)))
  | answered (written : Str) (message : Message)
      (asks : decide configuration peer .proxy header =
        (.ok (.deferred written (.message message)) : Except Raised (Outcome κ)))
      (permits : progress .proxy message (some []) =
        (.ok (.decided decision) : Except Raised (Outcome κ)))

/-- The requests that are sent to the host of their header, whatever their first
line says. -/
def UsesHeaderhost (message : Message) : Prop :=
  message.request.method ∉ plainMethods ∧
    (message.request.method ∈ davMethods ∨
      (message.request.method = ascii "OPTIONS" ∨ message.request.method = ascii "TRACE") ∧
        ∀ value, maxForwards message.headers = some value →
          Str.isdigit value = true ∧ Str.digitsValue value ≠ 0)

/-- The host of a request is the one that is contacted, and that the program and the
log are told. -/
structure HostKept (κ : Type) (configuration : Configuration) (peer : Peer) (header : Str)
    (message : Message) : Prop where
  logged : message.host <+: message.url
  submitted : ∀ written kept, decide configuration peer .proxy header =
    (.ok (.deferred written kept) : Except Raised (Outcome κ)) → message.host <+: written
  contacted : ∀ decision host, Permitted κ configuration peer header decision →
    contacted decision = some host → host = message.host ∧ host ≠ []

theorem contacted_answer {code : Nat} {content version : Str}
    (decided : answer configuration code content version = (.decided decision : Outcome κ)) :
    contacted decision = none := by
  cases decided
  rfl

theorem doHTTPOptions_contacted
    (decided : doHTTPOptions configuration message = (.decided decision : Outcome κ))
    (contacts : contacted decision = some host) :
    (∀ value, maxForwards message.headers = some value →
      Str.isdigit value = true ∧ Str.digitsValue value ≠ 0) ∧ host = message.headerhost := by
  unfold doHTTPOptions at decided
  split at decided
  · next unlimited =>
      cases decided
      exact ⟨by simp [unlimited], (Option.some.inj contacts).symm⟩
  · next value limited =>
      split at decided
      · rw [contacted_answer decided] at contacts
        cases contacts
      · next digits =>
          split at decided
          · rw [contacted_answer decided] at contacts
            cases contacts
          · next positive =>
              cases decided
              refine ⟨fun other same => ?_, (Option.some.inj contacts).symm⟩
              cases limited.symm.trans same
              exact ⟨by simpa using digits, positive⟩

theorem doMethod_contacted {childRequest : Message → Str}
    (decided : doMethod configuration childRequest message = (.decided decision : Outcome κ))
    (contacts : contacted decision = some host) :
    host = message.host ∨ UsesHeaderhost message ∧ host = message.headerhost := by
  simp only [doMethod] at decided
  split at decided
  · unfold doHTTPRequest at decided
    split at decided
    · cases decided
    · cases decided
      exact .inl (Option.some.inj contacts).symm
  · next special =>
      split at decided
      · unfold doHTTPConnect at decided
        split at decided
        · rw [contacted_answer decided] at contacts
          cases contacts
        · split at decided
          · cases decided
          · cases decided
            exact .inl (Option.some.inj contacts).symm
      · split at decided
        · next options =>
            obtain ⟨limits, same⟩ := doHTTPOptions_contacted decided contacts
            exact .inr ⟨⟨special, .inr ⟨options, limits⟩⟩, same⟩
        · split at decided
          · next dav =>
              cases decided
              exact .inr ⟨⟨special, .inl dav⟩, (Option.some.inj contacts).symm⟩
          · rw [contacted_answer decided] at contacts
            cases contacts

theorem doMethod_headerhost (κ : Type) (configuration : Configuration)
    (uses : UsesHeaderhost message) (childRequest : Message → Str) :
    ∃ decision, doMethod configuration childRequest message = (.decided decision : Outcome κ) ∧
      contacted decision = some message.headerhost := by
  obtain ⟨special, method⟩ := uses
  have tunnel : message.request.method ≠ ascii "CONNECT" := by
    intro connect
    rw [connect] at method
    rcases method with dav | ⟨options | options, _⟩
    · exact absurd dav (by decide)
    · exact absurd options (by decide)
    · exact absurd options (by decide)
  unfold doMethod
  rw [if_neg special, if_neg tunnel]
  rcases method with dav | ⟨options, limits⟩
  · have other : ¬ (message.request.method = ascii "OPTIONS" ∨ message.request.method = ascii "TRACE") := by
      rintro (options | options)
      · exact absurd dav (options ▸ by decide)
      · exact absurd dav (options ▸ by decide)
    rw [if_neg other, if_pos dav]
    exact ⟨_, rfl, rfl⟩
  · rw [if_pos options, doHTTPOptions]
    cases limited : maxForwards message.headers with
    | none => exact ⟨_, rfl, rfl⟩
    | some value =>
        obtain ⟨digits, positive⟩ := limits value limited
        simp only [digits, positive, Bool.true_eq_false, if_false]
        exact ⟨_, rfl, rfl⟩

theorem doMethod_deferred {childRequest : Message → Str} {written : Str} {kept : Deferred κ}
    (deferred : doMethod configuration childRequest message = .deferred written kept) :
    written = childRequest message ∧ kept = .message message := by
  simp only [doMethod, doHTTPRequest, doHTTPConnect, doHTTPOptions, toHeaderhost, answer] at deferred
  grind

theorem progress_contacted
    (permits : progress .proxy message (some []) = (.ok (.decided decision) : Except Raised (Outcome κ)))
    (contacts : contacted decision = some host) : host = message.host := by
  have permitted : classifyURL [] = .ok .permit := rfl
  simp only [progress, permitted, contentResponse, connectResponse, bind, Except.bind, pure,
    Except.pure, reduceCtorEq, if_false, ne_eq, not_true_eq_false] at permits
  split at permits
  · cases permits
    exact (Option.some.inj contacts).symm
  · split at permits
    · cases permits
      exact (Option.some.inj contacts).symm
    · cases permits

theorem doHTTP_validated (ok : Message.parse configuration.toConfiguration configuration.transparent
    peer.peer header = .ok message) (childRequest : Message → Str) : ∃ headers,
    doHTTP configuration peer childRequest header = (.ok (doMethod configuration childRequest
      { message with headers }) : Except Raised (Outcome κ)) ∧
    ∀ name ∉ ownHeaders, headers.get name = message.headers.get name := by
  have sound : Headers.Sound (fun _ _ => True) (xProxyVersion :: Headers.hopByHop) message.headers :=
    (Message.parse_validated ok).sound.weaken fun _ _ _ => trivial
  obtain ⟨headers, adds, _, kept⟩ := addHeaders_sound configuration peer sound trivial trivial
  refine ⟨headers, ?_, kept⟩
  have parsed : (parseHTTP configuration.toConfiguration configuration.transparent peer.peer
    header).parsed = .ok message := ok
  simp only [doHTTP, parsed, adds]
  rfl

theorem headerhost_iff {transparent : Bool} {remoteIp raw : Str} {settings : Http.Configuration}
    (validated : Message.Validated settings transparent remoteIp raw message) :
    message.headerhost = message.host ↔ message.request.host = [] ∨ message.request.host = ascii "*" ∨
      message.request.host = message.headerhost := by
  rw [validated.host]
  split
  · next named => simp [named.1, named.2, eq_comm]
  · next unnamed =>
      simp only [not_and_or, not_not] at unnamed
      rcases unnamed with unnamed | unnamed <;> simp [unnamed]

/-- Which host is contacted depends on the header only where the first line has no
host, unless the method's branch takes the host of the header. -/
theorem host_kept_iff (ok : Message.parse configuration.toConfiguration configuration.transparent
    peer.peer header = .ok message) : HostKept κ configuration peer header message ↔
    (UsesHeaderhost message → message.request.host = [] ∨ message.request.host = ascii "*" ∨
      message.request.host = message.headerhost) := by
  have validated := Message.parse_validated ok
  obtain ⟨headers, does, kept⟩ := doHTTP_validated ok (createChildRequest peer)
  have decides : decide configuration peer .proxy header = (.ok (doMethod configuration
    (createChildRequest peer) { message with headers }) : Except Raised (Outcome κ)) := does
  have limit : maxForwards headers = maxForwards message.headers := by
    rw [maxForwards, kept _ (by decide), maxForwards]
  have same : UsesHeaderhost { message with headers } ↔ UsesHeaderhost message := by
    simp only [UsesHeaderhost, limit]
  rw [← headerhost_iff validated]
  constructor
  · intro host uses
    obtain ⟨decision, decided, contacts⟩ := doMethod_headerhost κ configuration (same.mpr uses)
      (createChildRequest peer)
    exact (host.contacted decision message.headerhost (.unasked (decides.trans (congrArg _ decided)))
      contacts).1
  · intro named
    constructor
    · rw [validated.url, List.append_assoc]
      exact List.prefix_append _ _
    · intro written deferred asks
      obtain ⟨rfl, _⟩ := doMethod_deferred (Except.ok.inj (decides.symm.trans asks))
      simp only [createChildRequest, validated.urlNoport, List.append_assoc]
      exact List.prefix_append _ _
    · intro decision host permitted contacts
      have kept : host = message.host := by
        cases permitted with
        | unasked decided =>
            rcases doMethod_contacted (Except.ok.inj (decides.symm.trans decided)) contacts with same | ⟨uses, other⟩
            · exact same
            · exact other.trans (named (same.mp uses))
        | answered written message asks permits =>
            obtain ⟨_, sent⟩ := doMethod_deferred (Except.ok.inj (decides.symm.trans asks))
            cases sent
            have same := progress_contacted permits contacts
            exact same
      exact ⟨kept, kept ▸ validated.hosted⟩

/-- A worker without a program, and a client of it. -/
def withoutProgram : Configuration where
  version := ascii "1.2.3"
  forward := []
  mask := false
  expect := false
  transparent := false
  enabled := false
  connect := true
  connectPorts := [443]
  proxy := ascii "ExaProxy-1.2.3-id-1"
  banner := ⟨ascii "Mon", ascii "1.2.3", ascii "linux"⟩

def localPeer : Peer := ⟨ascii "127.0.0.1", ascii "3128", ascii "127.0.0.1"⟩

theorem host_kept_get : ∃ message, Message.parse withoutProgram.toConfiguration
    withoutProgram.transparent localPeer.peer (ascii "GET http://a/ HTTP/1.1\r\nHost: b\r\n\r\n") = .ok message ∧
    HostKept Empty withoutProgram localPeer
      (ascii "GET http://a/ HTTP/1.1\r\nHost: b\r\n\r\n") message := by
  have parsed : (Message.parse withoutProgram.toConfiguration withoutProgram.transparent localPeer.peer
      (ascii "GET http://a/ HTTP/1.1\r\nHost: b\r\n\r\n")).map (·.request.method) =
        .ok (ascii "GET") := by decide +kernel
  obtain ⟨message, ok, method⟩ := map_ok parsed
  exact ⟨message, ok, (host_kept_iff ok).mpr fun uses => absurd (method ▸ uses.1) (by decide)⟩

/-- A request without a host in its header goes to no host at all. -/
theorem options_sent_nowhere : ¬ ∀ configuration peer header message,
    Message.parse configuration.toConfiguration configuration.transparent peer.peer header = .ok message →
      HostKept Empty configuration peer header message := by
  intro keeps
  have parsed : (Message.parse withoutProgram.toConfiguration withoutProgram.transparent localPeer.peer
      (ascii "OPTIONS http://a/ HTTP/1.0\r\n\r\n")).map (·.host) = .ok (ascii "a") := by decide +kernel
  obtain ⟨message, ok, _⟩ := map_ok parsed
  have decided : ((decide withoutProgram localPeer .proxy (ascii "OPTIONS http://a/ HTTP/1.0\r\n\r\n") :
      Except Raised (Outcome Empty)).map fun outcome => outcome.settled.bind contacted) =
        .ok (some []) := by decide +kernel
  obtain ⟨outcome, decides, contacts⟩ := map_ok decided
  obtain ⟨decision, rfl, contacts⟩ := outcome.contacted_settled contacts
  exact ((keeps withoutProgram localPeer _ message ok).contacted decision [] (.unasked decides) contacts).2 rfl

end ExaProxy.Worker
