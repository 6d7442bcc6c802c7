import ExaProxy.Http.Message
import ExaProxy.Http.Stored

namespace ExaProxy.Http

open ExaProxy.Data

variable {configuration : Configuration} {transparent : Bool} {remoteIp raw : Str} {message : Message}

namespace Headers

theorem Sound.first_ok {headers : Headers} {allowed : Str → Str → Prop} {free : List Str} {key : Str}
    (sound : Sound allowed free headers) (nonempty : key ≠ []) (fixed : key ∉ free) (absent : Str) :
    ∃ value, headers.first key absent = .ok value := by
  unfold first
  cases stored : headers.data.lookup key with
  | none => exact ⟨absent, rfl⟩
  | some lines =>
      have got : headers.get key = lines := by rw [get, stored]; rfl
      have filled := sound.filled key (sound.listed key (lookup_mem stored) fixed)
      cases lines with
      | nil => exact absurd got filled
      | cons line rest =>
          have named := sound.named key line nonempty fixed (by rw [got]; rfl)
          unfold fieldName at named
          split at named
          · cases named
          · cases found : Str.splitOnce (ascii ":") line with
            | none =>
                rw [found] at named
                cases named
            | some parts => exact ⟨parts.2, by simp [found]⟩

/-- The host can be read of all headers that can be parsed. -/
theorem parse_extractHost {httpVersion lines : Str} {expect transparent : Bool} {headers : Headers}
    (ok : Headers.parse httpVersion expect transparent lines = .ok headers) :
    ∃ host, headers.extractHost = .ok host := by
  have nonempty : ascii "host" ≠ [] := by decide
  obtain ⟨value, first⟩ := (parse_sound ok).1.first_ok nonempty (by decide) []
  exact ⟨hostOf (Str.strip value), by rw [extractHost, Headers.value, first]; rfl⟩

end Headers

def xProxyVersion : Str := ascii "x-proxy-version"

/-- The line by which the proxy names itself. -/
def Configuration.proxyName (configuration : Configuration) : Str :=
  ascii "X-Proxy-Version: ExaProxy version " ++ configuration.version

namespace Message

/-- The steps by which a request was validated. -/
structure Validated (configuration : Configuration) (transparent : Bool) (remoteIp raw : Str)
    (message : Message) : Prop where
  text : message.raw = raw
  separator : message.separator = separatorOf raw
  request : Request.parse raw = .ok message.request
  headers : ∃ headers, Headers.parse message.request.version configuration.expect transparent
    message.request.remaining = .ok headers ∧
      forward configuration (headers.replace xProxyVersion configuration.proxyName) remoteIp =
        .ok (message.client, message.headers) ∧ headers.extractHost = .ok message.headerhost
  host : message.host = if message.request.host ≠ [] ∧ message.request.host ≠ ascii "*" then
    message.request.host else message.headerhost
  port : message.port = message.request.port
  hosted : message.host ≠ []
  contentLength : ∃ encoding number, message.headers.encoding = .ok encoding ∧
    message.headers.lengthLine = .ok number ∧ message.contentLength =
      if Str.includes (ascii "chunked") encoding then .chunked else .number number
  url : message.url = message.host ++
    (if message.port ≠ 80 then ascii ":" ++ Str.decimal message.port else []) ++ message.request.path
  urlNoport : message.urlNoport = message.host ++ message.request.path

theorem parse_validated (ok : parse configuration transparent remoteIp raw = .ok message) :
    Validated configuration transparent remoteIp raw message := by
  obtain ⟨request, requests, ok⟩ := bind_ok ok
  obtain ⟨headers, parses, ok⟩ := bind_ok ok
  obtain ⟨headerhost, extracts, ok⟩ := bind_ok ok
  obtain ⟨_, hosted, ok⟩ := bind_ok ok
  obtain ⟨⟨client, forwarded⟩, forwards, ok⟩ := bind_ok ok
  obtain ⟨encoding, encodes, ok⟩ := bind_ok ok
  obtain ⟨number, numbers, ok⟩ := bind_ok ok
  obtain ⟨upgrade, upgrades, ok⟩ := bind_ok ok
  cases ok
  have request : Request.parse raw = .ok request := by
    cases parsed : Request.parse raw with
    | error raised =>
        rw [parsed] at requests
        cases requests
    | ok result =>
        rw [parsed] at requests
        cases requests
        rfl
  exact ⟨rfl, rfl, request, ⟨headers, parses, forwards, extracts⟩, rfl, rfl, refuse_ok hosted,
    ⟨encoding, number, encodes, numbers, rfl⟩, rfl, rfl⟩

/-- The header of a proxy before this one may be taken out. -/
theorem forward_headers {headers : Headers} {result : Str × Headers}
    (ok : forward configuration headers remoteIp = .ok result) :
    result.2 = headers ∨
      headers.popWhen (configuration.mask = true) configuration.forward = .ok result.2 := by
  unfold forward at ok
  split at ok
  · cases ok
    exact .inl rfl
  · obtain ⟨claimed, _, ok⟩ := bind_ok ok
    obtain ⟨valid, _, ok⟩ := bind_ok ok
    obtain ⟨popped, pops, ok⟩ := bind_ok ok
    cases ok
    exact .inr pops

/-- The lines of a request's headers are those that were sent, but for the one that
names the proxy. -/
def Line (configuration : Configuration) (remaining name line : Str) : Prop :=
  line ∈ Headers.linesOf remaining ∨ name = xProxyVersion ∧ line = configuration.proxyName

theorem Validated.sound (validated : Validated configuration transparent remoteIp raw message) :
    Headers.Sound (Line configuration message.request.remaining)
      (xProxyVersion :: Headers.hopByHop) message.headers := by
  obtain ⟨headers, parses, forwards, _⟩ := validated.headers
  have replaced : Headers.Sound (Line configuration message.request.remaining)
      (xProxyVersion :: Headers.hopByHop)
      (headers.replace xProxyVersion configuration.proxyName) :=
    (Headers.parse_sound parses).1.replace (by simp [Configuration.proxyName, ascii]) (fun _ _ => .inl)
      (.inr ⟨rfl, rfl⟩)
  rcases forward_headers forwards with same | pops
  · have same : message.headers = _ := same
    rw [same]
    exact replaced
  · exact replaced.popWhen pops

end Message

end ExaProxy.Http
