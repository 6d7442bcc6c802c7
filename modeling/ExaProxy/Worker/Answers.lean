import ExaProxy.Client.HttpReader
import ExaProxy.Http.Lines
import ExaProxy.Tls.Whole
import ExaProxy.Worker.Destinations
import ExaProxy.Worker.Icap

namespace ExaProxy.Worker

open ExaProxy.Data ExaProxy.Http
open ExaProxy.Client (Source)

variable {κ : Type} {configuration : Configuration} {peer : Peer} {server : IcapServer}
  {header subheader : Str} {message : Message}

/-- A call returned a triple that does not report an error. -/
def Answered (result : Except Raised (Option (Outcome κ))) : Prop :=
  ∃ outcome, result = .ok (some outcome) ∧ outcome ≠ .error

/-- What `Redirector.decide` can read of a source. -/
def Readable (source : Source) (header : Str) : Prop :=
  match source with
  | .web => ∃ request, Request.parse header = .ok request
  | .tls => Tls.WholeHello header
  | .proxy | .icap | .passthrough => True

/-- What is to be modified is an HTTP request, and its headers can be parsed. -/
def ReadableHttp (configuration : Configuration) (header : Str) : Prop :=
  ∃ request headers, Request.parse header = .ok request ∧
    Headers.parse request.version configuration.expect true request.remaining = .ok headers

/-- A request over ICAP: its lines have colons up to the first empty one, no part is one
of an answer, and what it holds can be read unless it asks for the options. -/
structure ReadableIcap (configuration : Configuration) (header subheader : Str) : Prop where
  line : ∃ method url version, Icap.parseRequestLine ((Icap.linesOf header).headD []) =
      some (method, url, version) ∧ version = ascii "ICAP/1.0" ∧
      (method = ascii "OPTIONS" ∨ method = ascii "REQMOD" ∧ ReadableHttp configuration subheader)
  colons : ∀ line ∈ (Icap.linesOf header).tail.takeWhile (· ≠ []), 58 ∈ line
  parts : ∀ headers, Icap.readHeaders (Icap.linesOf header).tail {} = some headers →
    ∀ pair ∈ Icap.getOffsets (headers.get (ascii "encapsulated")), pair.1 ∉ Icap.responseParts

/-- What `ICAPRedirector.decide` can read of a source. -/
def ReadableOverIcap (configuration : Configuration) (source : Source) (header subheader : Str) : Prop :=
  match source with
  | .icap => ReadableIcap configuration header subheader
  | _ => Readable source header

theorem doMethod_no_error (childRequest : Message → Str) :
    doMethod configuration childRequest message ≠ (.error : Outcome κ) := by
  simp only [doMethod, doHTTPRequest, doHTTPConnect, doHTTPOptions, toHeaderhost, answer]
  grind

theorem validateHTTP_no_error (http : HTTP) (failure : Failure) :
    validateHTTP configuration http failure ≠ (.error : Outcome κ) := by
  cases failure <;> simp [validateHTTP, answer]

theorem doHTTP_answers (childRequest : Message → Str) :
    Answered ((doHTTP configuration peer childRequest header : Except Raised (Outcome κ)).map some) := by
  cases parsed : Message.parse configuration.toConfiguration configuration.transparent peer.peer header with
  | error failure =>
      have refused : (parseHTTP configuration.toConfiguration configuration.transparent peer.peer
        header).parsed = .error failure := parsed
      refine ⟨validateHTTP configuration (parseHTTP configuration.toConfiguration
        configuration.transparent peer.peer header) failure, ?_, validateHTTP_no_error _ failure⟩
      simp only [doHTTP, refused]
      rfl
  | ok message =>
      obtain ⟨headers, does, _⟩ := doHTTP_validated parsed childRequest
      rw [does]
      exact ⟨_, rfl, doMethod_no_error childRequest⟩

theorem doMonitor_answers :
    Answered ((doMonitor configuration peer header : Except Raised (Outcome κ)).map some) ↔
      ∃ request, Request.parse header = .ok request := by
  have request : (parseHTTP configuration.toConfiguration configuration.transparent peer.peer
    header).request = (Request.parse header).toOption := rfl
  unfold doMonitor
  rw [request]
  cases Request.parse header with
  | error raised => exact iff_of_false (fun ⟨_, ok, _⟩ => by cases ok) nofun
  | ok request => exact iff_of_true ⟨_, rfl, nofun⟩ ⟨request, rfl⟩

theorem answered_map {call : Except Raised (Option Str)} {change : Option Str → Outcome κ}
    (no_error : ∀ name, change name ≠ .error) :
    Answered ((call.map change).map some) ↔ ∃ name, call = .ok name := by
  cases call with
  | error raised => exact iff_of_false (fun ⟨_, ok, _⟩ => by cases ok) nofun
  | ok name => exact iff_of_true ⟨_, rfl, no_error name⟩ ⟨name, rfl⟩

theorem readHeaders_returns {lines : List Str} {headers : Icap.Headers} :
    (∃ after, Icap.readHeaders lines headers = some after) ↔
      ∀ line ∈ lines.takeWhile (· ≠ []), 58 ∈ line := by
  induction lines generalizing headers with
  | nil => simp [Icap.readHeaders]
  | cons line rest ih =>
      by_cases empty : line = []
      · simp [Icap.readHeaders, empty]
      · have colon : (∃ parts, Str.splitOnce (ascii ":") line = some parts) ↔ 58 ∈ line := Str.splitOnce_returns
        rw [Icap.readHeaders, if_neg empty, List.takeWhile_cons_of_pos (by simpa using empty),
          List.forall_mem_cons, ← colon]
        cases Str.splitOnce (ascii ":") line with
        | none => simp
        | some parts => simp [ih]

theorem foundHost_returns : ReadableHttp configuration header ↔
    ∃ request host, Request.parse header = .ok request ∧
      Message.foundHost configuration.toConfiguration true header = .ok host := by
  unfold ReadableHttp Message.foundHost
  cases Request.parse header with
  | error raised => simp
  | ok request =>
      simp only [Except.ok.injEq, Except.mapError, bind, Except.bind, exists_and_left, exists_eq_left']
      cases parsed : Headers.parse request.version configuration.expect true request.remaining with
      | error failure => simp
      | ok headers =>
          obtain ⟨host, extracts⟩ := Headers.parse_extractHost parsed
          simp only [extracts, pure, Except.pure]
          exact iff_of_true ⟨headers, rfl⟩ ⟨_, rfl⟩

theorem createICAPRequest_returns (peer : Peer) (server : IcapServer) {icapMessage : Icap.Request} :
    (∃ written, IcapRedirector.createICAPRequest configuration server peer icapMessage subheader =
      .ok written) ↔ icapMessage.method = ascii "OPTIONS" ∨ ReadableHttp configuration subheader := by
  unfold IcapRedirector.createICAPRequest
  rw [foundHost_returns]
  split
  · next options => exact iff_of_true ⟨_, rfl⟩ (.inl options)
  · next modify =>
      simp only [modify, false_or]
      split
      · next empty =>
          subst empty
          exact iff_of_false nofun fun ⟨_, _, parses, _⟩ => by cases parses
      · split
        · next request host parses finds => exact iff_of_true ⟨_, rfl⟩ ⟨request, host, parses, finds⟩
        · next fails => exact iff_of_false nofun fun ⟨request, host, parses, finds⟩ => fails request host parses finds

theorem methods_iff {method : Str} :
    method ∈ Icap.methods ↔ method = ascii "OPTIONS" ∨ method = ascii "REQMOD" := by
  simp [Icap.methods, or_comm]

theorem customer_encapsulated (headers : Icap.Headers) (name : Str) :
    Icap.Headers.get { headers with fields := headers.fields.insert (ascii "x-customer-name") name }
      (ascii "encapsulated") = headers.get (ascii "encapsulated") := by
  rw [Icap.Headers.get, AList.lookup_insert_ne (by decide), Icap.Headers.get]

theorem parseRequest_returns (allowed : Str → Prop) :
    (∃ icapMessage, Icap.parseRequest header subheader = .ok (some icapMessage) ∧
      allowed icapMessage.method) ↔
      (∃ method url version, Icap.parseRequestLine ((Icap.linesOf header).headD []) =
        some (method, url, version) ∧ version = ascii "ICAP/1.0" ∧ method ∈ Icap.methods ∧ allowed method) ∧
      ∃ headers, Icap.readHeaders (Icap.linesOf header).tail {} = some headers ∧
        ∀ pair ∈ Icap.getOffsets (headers.get (ascii "encapsulated")), pair.1 ∉ Icap.responseParts := by
  unfold Icap.parseRequest
  cases Icap.parseRequestLine ((Icap.linesOf header).headD []) with
  | none => simp
  | some parts =>
      obtain ⟨method, url, version⟩ := parts
      simp only [Option.some.injEq, Prod.mk.injEq]
      by_cases known : method ∈ Icap.methods ∧ version ∈ Icap.versions
      · have version : version = ascii "ICAP/1.0" := List.mem_singleton.mp known.2
        simp only [if_pos known]
        cases Icap.readHeaders (Icap.linesOf header).tail {} with
        | none => simp
        | some headers =>
            simp only [customer_encapsulated]
            split
            · next found =>
                obtain ⟨pair, member, response⟩ := found
                apply iff_of_false
                · intro given
                  obtain ⟨_, same, _⟩ := given
                  cases same
                · intro given
                  obtain ⟨_, _, same, parts⟩ := given
                  cases same
                  exact parts pair member response
            · next none =>
                push Not at none
                constructor
                · intro given
                  obtain ⟨_, same, permitted⟩ := given
                  cases same
                  exact ⟨⟨method, url, _, ⟨rfl, rfl, rfl⟩, version, known.1, permitted⟩, headers, rfl, none⟩
                · intro given
                  obtain ⟨⟨_, _, _, ⟨rfl, rfl, rfl⟩, _, _, permitted⟩, _⟩ := given
                  exact ⟨_, rfl, permitted⟩
      · simp only [if_neg known]
        apply iff_of_false
        · intro given
          obtain ⟨_, same, _⟩ := given
          cases same
        · intro given
          obtain ⟨⟨_, _, _, ⟨rfl, rfl, rfl⟩, rfl, member, _⟩, _⟩ := given
          exact known ⟨member, List.mem_singleton_self _⟩

theorem doICAP_answers : Answered (IcapRedirector.doICAP configuration server peer header subheader) ↔
    ReadableIcap configuration header subheader := by
  have written : Answered (IcapRedirector.doICAP configuration server peer header subheader) ↔
      ∃ icapMessage, Icap.parseRequest header subheader = .ok (some icapMessage) ∧
        (icapMessage.method = ascii "OPTIONS" ∨ ReadableHttp configuration subheader) := by
    simp only [← createICAPRequest_returns peer server]
    unfold IcapRedirector.doICAP
    cases Icap.parseRequest header subheader with
    | error raised => exact iff_of_false (fun ⟨_, ok, _⟩ => by cases ok) nofun
    | ok request =>
        cases request with
        | none => exact iff_of_false (fun ⟨_, ok, _⟩ => by cases ok) nofun
        | some icapMessage =>
            simp only [bind, Except.bind, Except.ok.injEq, Option.some.injEq, exists_eq_left']
            cases IcapRedirector.createICAPRequest configuration server peer icapMessage subheader with
            | error raised => exact iff_of_false (fun ⟨_, ok, _⟩ => by cases ok) nofun
            | ok text => exact iff_of_true ⟨_, rfl, nofun⟩ ⟨text, rfl⟩
  rw [written, parseRequest_returns fun method => method = ascii "OPTIONS" ∨ ReadableHttp configuration subheader]
  constructor
  · intro given
    obtain ⟨⟨method, url, version, line, icap, known, readable⟩, headers, reads, parts⟩ := given
    refine ⟨⟨method, url, version, line, icap, ?_⟩, readHeaders_returns.mp ⟨headers, reads⟩, ?_⟩
    · rcases readable with options | readable
      · exact .inl options
      · exact (methods_iff.mp known).imp_right fun modify => ⟨modify, readable⟩
    · intro other same
      cases reads.symm.trans same
      exact parts
  · intro given
    obtain ⟨⟨method, url, version, line, icap, known⟩, colons, parts⟩ := given
    obtain ⟨headers, reads⟩ := readHeaders_returns.mpr colons
    refine ⟨⟨method, url, version, line, icap, ?_, ?_⟩, headers, reads, parts headers reads⟩
    · exact methods_iff.mpr (known.imp_right And.left)
    · exact known.imp_right And.right

theorem doTLS_answers :
    Answered ((doTLS configuration peer header : Except Raised (Outcome κ)).map some) ↔
      Tls.WholeHello header := by
  rw [← Tls.parseClientHello_returns]
  apply answered_map
  intro name
  cases name with
  | none => nofun
  | some hostname =>
      simp only
      split <;> nofun

/-- Which texts cost no worker. -/
theorem workers_answer_iff (source : Source) :
    (Answered ((decide configuration peer source header : Except Raised (Outcome κ)).map some) ↔
      Readable source header) ∧
    (Answered (IcapRedirector.decide configuration server peer source header subheader) ↔
      ReadableOverIcap configuration source header subheader) := by
  cases source with
  | proxy => exact ⟨iff_of_true (doHTTP_answers _) trivial, iff_of_true (doHTTP_answers _) trivial⟩
  | web => exact ⟨doMonitor_answers, doMonitor_answers⟩
  | icap => exact ⟨iff_of_true ⟨_, rfl, nofun⟩ trivial, doICAP_answers⟩
  | tls =>
      have overIcap : Answered ((IcapRedirector.doTLS server peer header).map some) ↔
          Tls.WholeHello header := by
        rw [← Tls.parseClientHello_returns]
        exact answered_map fun name => nofun
      exact ⟨doTLS_answers, overIcap⟩
  | passthrough => exact ⟨iff_of_true ⟨_, rfl, nofun⟩ trivial, iff_of_true ⟨_, rfl, nofun⟩ trivial⟩

/-- A page that is asked for with a line of one word costs the worker. -/
theorem monitor_fails : ¬ ∀ configuration peer buffer size seek header rest later,
    Client.checkRequest buffer size seek = some (header, rest, later) → header ≠ [] →
      Answered ((decide configuration peer .web header : Except Raised (Outcome Empty)).map some) := by
  intro answers
  have cut : Client.checkRequest (ascii "GET\r\n\r\n") 65536 0 =
      some (ascii "GET\r\n\r\n", [], 0) := by decide +kernel
  obtain ⟨request, parses⟩ := doMonitor_answers.mp
    (answers withoutProgram localPeer _ _ _ _ _ _ cut (by decide))
  have fails : Request.parse (ascii "GET\r\n\r\n") = .error .valueError := by decide +kernel
  cases fails.symm.trans parses

end ExaProxy.Worker
