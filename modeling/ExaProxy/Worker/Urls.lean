import ExaProxy.Worker.Destinations

namespace ExaProxy.Worker

open ExaProxy.Data ExaProxy.Http
open ExaProxy.Content (Decision)

variable {κ : Type} {message : Message} {response path : Str} {decision : Decision}

def urlPrefix : Str := ascii "http://"

/-- The request as its answer would have it: the same one, for another path. -/
def withPath (message : Message) (path : Str) : Message :=
  { message with request := { message.request with
      useRaw := false
      protocol := ascii "http"
      path } }

/-- A decision does what an answer says: the URL of the request itself permits
it, and another path on its host is fetched instead. -/
structure Honours (message : Message) (response : Str) (decision : Decision) : Prop where
  permitted : response = urlPrefix ++ message.urlNoport →
    decision = download message.host (Str.decimal message.port) message.upgrade message
  rewritten : response ≠ urlPrefix ++ message.urlNoport → ∀ path,
    response = urlPrefix ++ message.host ++ ascii "/" ++ path →
      ∃ upgrade, decision = download message.host (Str.decimal message.port) upgrade
        (withPath message (ascii "/" ++ path))

theorem classifyURL_url (url : urlPrefix <+: response) : classifyURL response = .error .attributeError := by
  have filled : response ≠ [] := by
    intro same
    subst same
    exact absurd url (by decide)
  have found : (afterPrefix urlPrefix response).isSome = true := by
    rw [afterPrefix, if_pos url]
    rfl
  rw [classifyURL, if_neg filled]
  exact if_pos found

theorem classifyURL_other (other : ¬ urlPrefix <+: response) : ∃ classification,
    classifyURL response = .ok classification ∧ ∀ path, classification ≠ .rewrite path := by
  have absent : (afterPrefix (ascii "http://") response).isSome = false :=
    congrArg Option.isSome (if_neg other)
  unfold classifyURL
  split
  · exact ⟨.permit, rfl, nofun⟩
  · rw [absent, if_neg Bool.false_ne_true]
    split
    · exact ⟨_, rfl, nofun⟩
    · split
      · exact ⟨_, rfl, nofun⟩
      · split
        · exact ⟨_, rfl, nofun⟩
        · exact ⟨_, rfl, nofun⟩

theorem contentResponse_decides {classification : Classification}
    (kept : ∀ path, classification ≠ .rewrite path) :
    ∃ decision, contentResponse message classification = .ok decision := by
  cases classification with
  | rewrite path => exact absurd rfl (kept path)
  | permit => exact ⟨_, rfl⟩
  | file name => exact ⟨_, rfl⟩
  | redirect url => exact ⟨_, rfl⟩
  | intercept destination => exact ⟨_, rfl⟩
  | http data => exact ⟨_, rfl⟩

theorem progress_plain (plain : message.request.method ∈ plainMethods) :
    (progress .proxy message (some response) : Except Raised (Outcome κ)) =
      (classifyURL response).bind fun classification =>
        (contentResponse message classification).map .decided := by
  simp only [progress, reduceCtorEq, if_false, bind, ne_eq, not_true_eq_false, if_pos plain]
  cases classifyURL response with
  | error raised => rfl
  | ok classification =>
      simp only [Except.bind]
      cases contentResponse message classification <;> rfl

/-- The program's answer about a request is honoured unless it is a URL: to
compare it with the request raises. -/
theorem url_honoured_iff (plain : message.request.method ∈ plainMethods) :
    (∃ decision, progress .proxy message (some response) =
        (.ok (.decided decision) : Except Raised (Outcome κ)) ∧ Honours message response decision) ↔
      ¬ urlPrefix <+: response := by
  rw [progress_plain plain]
  constructor
  · rintro ⟨decision, decided, -⟩ url
    rw [classifyURL_url url] at decided
    cases decided
  · intro other
    obtain ⟨classification, classified, kept⟩ := classifyURL_other other
    obtain ⟨decision, decides⟩ : ∃ decision, contentResponse message classification = .ok decision :=
      contentResponse_decides kept
    refine ⟨decision, by rw [classified, Except.bind, decides]; rfl, ?_, ?_⟩
    · intro given
      subst given
      exact absurd (List.prefix_append _ _) other
    · intro _ path same
      rw [same, List.append_assoc, List.append_assoc] at other
      exact absurd (List.prefix_append _ _) other

/-- A worker whose program is asked, and a request that it is asked about. -/
def withProgram : Configuration := { withoutProgram with enabled := true }

def getHeader : Str := ascii "GET http://a/b HTTP/1.1\r\nHost: a\r\n\r\n"

/-- The request is deferred, with these parts. -/
def deferredGet (message : Message) : Prop :=
  ∃ written, decide withProgram localPeer .proxy getHeader =
    (.ok (.deferred written (.message message)) : Except Raised (Outcome Empty))

/-- The message that is kept for the answer of the program. -/
def Outcome.asked : Outcome κ → Option Message
  | .deferred _ (.message message) => some message
  | _ => none

theorem exists_deferredGet : ∃ message, deferredGet message ∧
    message.request.method = ascii "GET" ∧ message.host = ascii "a" ∧ message.urlNoport = ascii "a/b" := by
  have deferred : ((decide withProgram localPeer .proxy getHeader : Except Raised (Outcome Empty)).map
      fun outcome => outcome.asked.map fun message =>
        (message.request.method, message.host, message.urlNoport)) =
      .ok (some (ascii "GET", ascii "a", ascii "a/b")) := by decide +kernel
  obtain ⟨outcome, decides, parts⟩ := map_ok deferred
  cases outcome with
  | deferred written kept =>
      cases kept with
      | message message =>
          simp only [Outcome.asked, Option.map_some, Option.some.injEq, Prod.mk.injEq] at parts
          exact ⟨message, ⟨written, decides⟩, parts⟩
      | hostname => cases parts
      | other => cases parts
  | decided | hangup | error => cases parts

theorem url_honoured_redirect : ∃ message decision,
    progress .proxy message (some (ascii "redirect://b")) =
      (.ok (.decided decision) : Except Raised (Outcome Empty)) := by
  obtain ⟨message, _, method, _⟩ := exists_deferredGet
  obtain ⟨decision, decided, _⟩ := (url_honoured_iff (by rw [method]; decide)).mpr
    (show ¬ urlPrefix <+: ascii "redirect://b" by decide)
  exact ⟨message, decision, decided⟩

/-- The request's own URL, and another path on its host. -/
theorem url_raises : ∃ message, deferredGet message ∧
    urlPrefix ++ message.urlNoport = ascii "http://a/b" ∧
    urlPrefix ++ message.host ++ ascii "/" ++ ascii "c" = ascii "http://a/c" ∧
    progress .proxy message (some (ascii "http://a/b")) =
      (.error .attributeError : Except Raised (Outcome Empty)) ∧
    progress .proxy message (some (ascii "http://a/c")) =
      (.error .attributeError : Except Raised (Outcome Empty)) := by
  obtain ⟨message, deferred, method, host, url⟩ := exists_deferredGet
  have plain : message.request.method ∈ plainMethods := by rw [method]; decide
  have raises : ∀ response, urlPrefix <+: response → progress .proxy message (some response) =
      (.error .attributeError : Except Raised (Outcome Empty)) := fun response url => by
    rw [progress_plain plain, classifyURL_url url]
    rfl
  exact ⟨message, deferred, by rw [url]; rfl, by rw [host]; rfl, raises _ (by decide), raises _ (by decide)⟩

end ExaProxy.Worker
